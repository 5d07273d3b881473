import CecFix.Daemon

/-!
# Stream path requests

What `setStreamPathToPlayback1` and the marker `want_set_stream_path` are for, as a
reference machine: a request made before Playback 1 has reported waits for its
next report, and nothing else answers it. The daemon follows this machine exactly
on the runs in which no other device reports while a request waits: the handler
of reports takes the first address that comes in, whoever sent it.
-/

namespace CecFix.StreamPath
open Cec

structure FullReport where
  message : VcCecMessage
  opcode : message.payload 0 = opcodeReportPhysicalAddress
  long : 3 ≤ message.length

inductive Input where
  | systemActive (net : TvInputs)
  | systemStandby (net : TvInputs)
  | report (r : FullReport) (net : TvInputs)

def Input.event : Input → Event
  | .systemActive net => .fifoOn net
  | .systemStandby net => .fifoOff net
  | .report r net => .callback (some r.message) net

def streamPath? : Effect → Option PhysicalAddress
  | .cec (.sendMessage _ [op, a, b] _) => if op = opcodeSetStreamPath then some ⟨a, b⟩ else none
  | _ => none

def implementation : Transducer Daemon Input PhysicalAddress := daemon.adapt Input.event streamPath?

structure Reference where
  playback1 : Option PhysicalAddress
  pending : Bool

def reference : Transducer Reference Input PhysicalAddress where
  next
    | t, .systemActive _ => { t with pending := t.pending || t.playback1.isNone }
    | t, .systemStandby _ => t
    | t, .report r _ =>
      if r.message.initiator = .eDVD1 then ⟨some (reportedAddress r.message), false⟩ else t
  emit
    | t, .systemActive _ => t.playback1.toList
    | _, .systemStandby _ => []
    | t, .report r _ =>
      if r.message.initiator = .eDVD1 ∧ t.pending then [reportedAddress r.message] else []

def Reference.initial : Reference := ⟨none, false⟩

def Input.FromPlayback1 (a : PhysicalAddress) : Input → Prop
  | .report r _ => r.message.initiator = .eDVD1 ∧ reportedAddress r.message = a
  | _ => False

theorem reference_step_reported {t : Reference} {x : Input} {a : PhysicalAddress}
    (h : a ∈ reference.emit t x ∨ (reference.next t x).playback1 = some a) :
    t.playback1 = some a ∨ x.FromPlayback1 a := by
  cases x with
  | systemActive net =>
    left
    simpa [reference] using h
  | systemStandby net =>
    left
    simpa [reference] using h
  | report r net =>
    by_cases hr : r.message.initiator = .eDVD1
    · right
      simp only [reference, hr, if_true, true_and, Option.some.injEq] at h
      refine ⟨hr, ?_⟩
      rcases h with h | h
      · split_ifs at h
        · exact (List.mem_singleton.mp h).symm
        · cases h
      · exact h
    · left
      simpa [reference, hr] using h

theorem reference_sends_reported (inputs : List Input) (t : Reference) {a : PhysicalAddress}
    (h : a ∈ (reference.outputs t inputs).flatten) :
    t.playback1 = some a ∨ ∃ x ∈ inputs, x.FromPlayback1 a := by
  induction inputs generalizing t with
  | nil => cases h
  | cons x xs ih =>
    simp only [Transducer.outputs_cons, List.flatten_cons, List.mem_append] at h
    have hstep : t.playback1 = some a ∨ x.FromPlayback1 a ∨ ∃ y ∈ xs, y.FromPlayback1 a := by
      rcases h with h | h
      · rcases reference_step_reported (Or.inl h) with ht | hx
        · exact Or.inl ht
        · exact Or.inr (Or.inl hx)
      · rcases ih _ h with hn | hxs
        · rcases reference_step_reported (Or.inr hn) with ht | hx
          · exact Or.inl ht
          · exact Or.inr (Or.inl hx)
        · exact Or.inr (Or.inr hxs)
    rcases hstep with ht | hx | ⟨y, hy, hya⟩
    · exact Or.inl ht
    · exact Or.inr ⟨x, by simp, hx⟩
    · exact Or.inr ⟨y, by simp [hy], hya⟩

@[simp] theorem streamPath_sock (e : Lan.SockEvent) : streamPath? (.sock e) = none := rfl

@[simp] theorem filterMap_streamPath_setStreamPath (a : PhysicalAddress) :
    (setStreamPath a).filterMap streamPath? = [a] := by
  simp [setStreamPath, streamPath?]

theorem systemActive_emit (s : Daemon) (net : TvInputs) :
    implementation.emit s (.systemActive net) =
      match s.addressMap .eDVD1 with
      | some (some a) => [a]
      | _ => [] := by
  simp only [implementation, Transducer.adapt_emit, Input.event, daemon, handle, systemActive,
    setStreamPathToPlayback1, withLan_addressMap]
  cases h : s.addressMap .eDVD1 with
  | none => simp [streamPath?, getPhysicalAddress]
  | some p => cases p <;> simp

theorem systemActive_next (s : Daemon) (net : TvInputs) :
    (implementation.next s (.systemActive net)).addressMap = s.addressMap ∧
      (implementation.next s (.systemActive net)).wantSetStreamPath =
        (s.wantSetStreamPath || (s.addressMap .eDVD1).isNone) := by
  simp only [implementation, Transducer.adapt_next, Input.event, daemon, handle, systemActive,
    setStreamPathToPlayback1, withLan_addressMap]
  split <;> simp_all

theorem systemStandby_emit (s : Daemon) (net : TvInputs) :
    implementation.emit s (.systemStandby net) = [] := by
  simp [implementation, Input.event, daemon, handle, systemStandby, broadcastStandby, streamPath?]

theorem report_handled (s : Daemon) (r : FullReport) (net : TvInputs) :
    handle s (Input.report r net).event = handleReportPhysicalAddress r.message s := by
  have h : isReportPhysicalAddress r.message = true := by
    have hl := r.long
    simp only [isReportPhysicalAddress, r.opcode, Bool.and_eq_true, decide_eq_true_eq, beq_self_eq_true,
      and_true]
    omega
  exact handleMessage_report h s net

theorem report_emit (s : Daemon) (r : FullReport) (net : TvInputs) :
    implementation.emit s (.report r net) =
      if s.wantSetStreamPath then [reportedAddress r.message] else [] := by
  simp only [implementation, Transducer.adapt_emit, daemon, report_handled, handleReport_effects]
  split_ifs <;> simp

theorem report_next (s : Daemon) (r : FullReport) (net : TvInputs) :
    implementation.next s (.report r net) = (handleReportPhysicalAddress r.message s).state := by
  simp only [implementation, Transducer.adapt_next, daemon, report_handled]

def Refines (s : Daemon) (t : Reference) : Prop :=
  s.addressMap .eDVD1 = t.playback1.map some ∧ s.wantSetStreamPath = t.pending

def AnsweredByPlayback1 (s : Daemon) : Input → Prop
  | .report r _ => s.wantSetStreamPath = true → r.message.initiator = .eDVD1
  | _ => True

instance (s : Daemon) : ∀ x, Decidable (AnsweredByPlayback1 s x)
  | .report r _ =>
    inferInstanceAs (Decidable (s.wantSetStreamPath = true → r.message.initiator = .eDVD1))
  | .systemActive _ => inferInstanceAs (Decidable True)
  | .systemStandby _ => inferInstanceAs (Decidable True)

theorem refines_step (s : Daemon) (t : Reference) (x : Input) (hR : Refines s t)
    (hC : AnsweredByPlayback1 s x) :
    implementation.emit s x = reference.emit t x ∧
      Refines (implementation.next s x) (reference.next t x) := by
  obtain ⟨hmap, hwant⟩ := hR
  cases x with
  | systemActive net =>
    obtain ⟨hm, hw⟩ := systemActive_next s net
    constructor
    · rw [systemActive_emit, hmap]
      cases hp : t.playback1 <;> simp [reference, hp]
    · refine ⟨by rw [hm, hmap]; rfl, ?_⟩
      rw [hw, hmap, hwant]
      simp [reference]
  | systemStandby net => exact ⟨systemStandby_emit s net, hmap, hwant⟩
  | report r net =>
    rw [report_emit, report_next, handleReport_state]
    cases hd : decide (r.message.initiator = .eDVD1) with
    | true =>
      have hi := of_decide_eq_true hd
      simp [reference, hi, hwant, Refines]
    | false =>
      have hi := of_decide_eq_false hd
      have hpend : t.pending = false := by
        rw [← hwant, ← Bool.not_eq_true]
        exact fun h => hi (hC h)
      simp [reference, hi, hwant, hpend, hmap, Refines, Function.update_of_ne (Ne.symm hi)]

theorem refines_sharp (s : Daemon) (t : Reference) (x : Input) (_ : Refines s t)
    (hC : ¬ AnsweredByPlayback1 s x) : implementation.emit s x ≠ reference.emit t x := by
  cases x with
  | systemActive net => exact absurd trivial hC
  | systemStandby net => exact absurd trivial hC
  | report r net =>
    simp only [AnsweredByPlayback1, Classical.not_imp] at hC
    rw [report_emit, if_pos hC.1]
    simp [reference, hC.2]

/-- The SetStreamPath messages of a run are those of the reference machine, step
by step, exactly if only Playback 1 reports while a request waits. -/
theorem stream_path_refines_iff (lan : Lan.LanState) (inputs : List Input) :
    implementation.outputs (boot lan) inputs = reference.outputs .initial inputs ↔
      implementation.Along AnsweredByPlayback1 (boot lan) inputs :=
  Transducer.outputs_eq_iff_along refines_step refines_sharp ⟨rfl, rfl⟩ inputs

def audioReport : FullReport where
  message :=
    { length := 3
      initiator := .eAudioSystem
      follower := cecBroadcastAddr
      payload := fun i => [opcodeReportPhysicalAddress, 0x10, 0x00].getD i 0 }
  opcode := rfl
  long := le_rfl

theorem audio_report_answers_request :
    implementation.outputs (boot (Lan.bootState []))
        [.systemActive unreachable, .report audioReport unreachable] = [[], [⟨0x10, 0x00⟩]] ∧
      reference.outputs .initial
        [.systemActive unreachable, .report audioReport unreachable] = [[], []] := by
  decide

end CecFix.StreamPath
