import CecFix.StreamPath

/-!
# Standby and stream path requests

A SetStreamPath brings Playback 1 back, so that none should follow a standby before
the system is turned on again. `systemStandby` and the handler of Standby leave
`want_set_stream_path` as it is: a request from before the standby is answered by the
next report after it. Nothing else breaks the rule.
-/

namespace CecFix.StandbyStays
open Cec StreamPath

def isActivation : Event → Bool
  | .fifoOn _ => true
  | _ => false

def isStandby : Event → Bool
  | .fifoOff _ => true
  | .callback (some m) _ => isTVOffCmd m
  | _ => false

def isReport : Event → Bool
  | .callback (some m) _ => isReportPhysicalAddress m
  | _ => false

def streamPaths (es : List Effect) : List PhysicalAddress := es.filterMap streamPath?

/-- `x` comes after a standby `e`, and no activation from `e` on, `x` included. -/
structure AfterStandby (events before : List Event) (e : Event) (mid : List Event) (x : Event)
    (after : List Event) : Prop where
  split : events = before ++ e :: mid ++ x :: after
  standby : isStandby e = true
  quiet : ∀ y ∈ mid, isActivation y = false
  last : isActivation x = false

def StaysStandby (s : Daemon) (events : List Event) : Prop :=
  ∀ before e mid x after, AfterStandby events before e mid x after →
    streamPaths (daemon.emit (daemon.run s (before ++ e :: mid)) x) = []

/-- A standby that comes while a request waits is not followed by a report before
the next activation. -/
def RequestsSettled (s : Daemon) (events : List Event) : Prop :=
  ∀ before e mid x after, AfterStandby events before e mid x after →
    (daemon.run s before).wantSetStreamPath = true → (∀ y ∈ mid, isReport y = false) →
      isReport x = false

@[simp] theorem streamPaths_sock (es : List Lan.SockEvent) : streamPaths (es.map .sock) = [] := by
  simp [streamPaths]

@[simp] theorem streamPaths_append (es fs : List Effect) :
    streamPaths (es ++ fs) = streamPaths es ++ streamPaths fs :=
  List.filterMap_append

theorem handleMessage_streamPaths {m : VcCecMessage} (h : isReportPhysicalAddress m = false)
    (s : Daemon) (net : TvInputs) : streamPaths (handleMessage m s net).effects = [] := by
  rw [handleMessage]
  split_ifs with h1 h2 h3 h4 h5
  · exact streamPaths_sock _
  · simp [broadcastStandby, streamPaths, streamPath?]
  · rfl
  · obtain ⟨es, heq, hes⟩ := replyWithPowerStatus_effects m.initiator s net
    rw [heq, streamPaths_append, streamPaths_sock, List.nil_append]
    rcases hes with rfl | ⟨status, rfl⟩
    · rfl
    · rfl
  · rw [h] at h5
    cases h5
  · rfl
  · rfl

section Step
variable {s : Daemon} {x : Event}

theorem next_want (hx : isActivation x = false) :
    (daemon.next s x).wantSetStreamPath = (s.wantSetStreamPath && !isReport x) := by
  cases x with
  | fifoOn net => cases hx
  | fifoOff net => simp [daemon, handle, systemStandby, isReport]
  | callback parsed net =>
    cases parsed with
    | none => simp [daemon, handle, handleCECCallback, isReport]
    | some m =>
      simp only [daemon, handle, handleCECCallback, isReport]
      cases hr : isReportPhysicalAddress m with
      | true => simp [handleMessage_report hr, handleReport_state]
      | false => simp [(handleMessage_frame hr s net).2]

theorem emit_streamPaths (hx : isActivation x = false) :
    streamPaths (daemon.emit s x) = [] ↔ ¬ (s.wantSetStreamPath = true ∧ isReport x = true) := by
  cases x with
  | fifoOn net => cases hx
  | fifoOff net =>
    simp [daemon, handle, systemStandby, isReport, broadcastStandby, streamPaths, streamPath?]
  | callback parsed net =>
    cases parsed with
    | none => simp [daemon, handle, handleCECCallback, isReport, streamPaths]
    | some m =>
      simp only [daemon, handle, handleCECCallback, isReport]
      cases hr : isReportPhysicalAddress m with
      | true =>
        rw [handleMessage_report hr, handleReport_effects]
        cases s.wantSetStreamPath <;> simp [streamPaths]
      | false => simp [handleMessage_streamPaths hr]

theorem not_activation_of_standby (h : isStandby x = true) : isActivation x = false := by
  cases x with
  | fifoOn net => cases h
  | _ => rfl

theorem not_report_of_standby (h : isStandby x = true) : isReport x = false := by
  cases x with
  | fifoOn net => cases h
  | fifoOff net => rfl
  | callback parsed net =>
    cases parsed with
    | none => rfl
    | some m =>
      simp only [isStandby, isTVOffCmd, Bool.and_eq_true, beq_iff_eq] at h
      simp [isReport, isReportPhysicalAddress, h.1.2]

end Step

theorem run_want (s : Daemon) (mid : List Event) (hquiet : ∀ y ∈ mid, isActivation y = false) :
    (daemon.run s mid).wantSetStreamPath = true ↔
      s.wantSetStreamPath = true ∧ ∀ y ∈ mid, isReport y = false := by
  induction mid generalizing s with
  | nil => simp
  | cons y mid ih =>
    have hy := hquiet y (by simp)
    rw [Transducer.run_cons, ih _ (fun z hz => hquiet z (by simp [hz])), next_want hy]
    simp [and_assoc]

theorem AfterStandby.want {s : Daemon} {events before mid after : List Event} {e x : Event}
    (h : AfterStandby events before e mid x after) :
    (daemon.run s (before ++ e :: mid)).wantSetStreamPath = true ↔
      (daemon.run s before).wantSetStreamPath = true ∧ ∀ y ∈ mid, isReport y = false := by
  have hquiet : ∀ y ∈ e :: mid, isActivation y = false := by
    intro y hy
    rcases List.mem_cons.mp hy with rfl | hy
    · exact not_activation_of_standby h.standby
    · exact h.quiet y hy
  rw [Transducer.run_append, run_want _ _ hquiet]
  simp [not_report_of_standby h.standby]

theorem stays_standby_iff (s : Daemon) (events : List Event) :
    StaysStandby s events ↔ RequestsSettled s events := by
  constructor
  · intro h before e mid x after hx hwant hmid
    have hnone := (emit_streamPaths hx.last).mp (h before e mid x after hx)
    rw [← Bool.not_eq_true]
    exact fun hr => hnone ⟨hx.want.mpr ⟨hwant, hmid⟩, hr⟩
  · intro h before e mid x after hx
    rw [emit_streamPaths hx.last]
    intro hboth
    obtain ⟨hwant, hmid⟩ := hx.want.mp hboth.1
    have hr := h before e mid x after hx hwant hmid
    rw [hboth.2] at hr
    cases hr

def playbackReport : VcCecMessage where
  length := 3
  initiator := .eDVD1
  follower := cecBroadcastAddr
  payload := fun i => [opcodeReportPhysicalAddress, 0x20, 0x00].getD i 0

def onThenOff : List Event :=
  [.fifoOn unreachable, .fifoOff unreachable, .callback (some playbackReport) unreachable]

theorem report_after_standby_activates :
    streamPaths (daemon.emit (daemon.run (boot (Lan.bootState [])) (onThenOff.take 2))
        (.callback (some playbackReport) unreachable)) = [⟨0x20, 0x00⟩] ∧
      ¬ StaysStandby (boot (Lan.bootState [])) onThenOff := by
  have hsent : streamPaths (daemon.emit (daemon.run (boot (Lan.bootState [])) (onThenOff.take 2))
      (.callback (some playbackReport) unreachable)) = [⟨0x20, 0x00⟩] := by decide
  refine ⟨hsent, fun h => ?_⟩
  have hnone := h [.fifoOn unreachable] (.fifoOff unreachable) []
    (.callback (some playbackReport) unreachable) [] ⟨rfl, rfl, fun _ hy => (nomatch hy), rfl⟩
  exact absurd (hsent.symm.trans hnone) (by decide)

end CecFix.StandbyStays
