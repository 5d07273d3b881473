import CecFix.Daemon

/-!
# Messages between other devices

In passive mode the callback sees every message on the bus. Three of the recognisers
ask whether the message is for the TV; `isImageViewOn`, `isReportPhysicalAddress` and
`isGiveOSDName` do not, and their handlers run for a message between two other
devices as well. What such a message then does depends on the handler: an OSD name
request is always answered, a report is without consequence only if it says what
the map has already, and ImageViewOn only if no word gets through to the projector.
-/

namespace CecFix.OtherDevices
open Cec Lan

def BetweenOthers (m : VcCecMessage) : Prop := m.follower ≠ .eTV ∧ m.follower ≠ cecBroadcastAddr

instance (m : VcCecMessage) : Decidable (BetweenOthers m) := inferInstanceAs (Decidable (_ ∧ _))

def Silent (es : List SockEvent) : Prop := ∀ b, .send b ∉ es

structure Untouched (s : Daemon) (a : Acted) : Prop where
  bus : ∀ c, .cec c ∉ a.effects
  projector : ∀ b, .sock (.send b) ∉ a.effects
  addressMap : a.state.addressMap = s.addressMap
  wantSetStreamPath : a.state.wantSetStreamPath = s.wantSetStreamPath

def NoneOpens (scripts : ℕ → SocketScript) : Prop := ∀ j < maxRetryCount, ¬ (scripts j).Opened

/-- `turnOnTV` sends nothing: it is turned away, it finds a fresh status that says on,
or it does not get through. -/
def TurnsOnSilently (s : LanState) (net : TvInputs) : Prop :=
  s.hasActiveConnection = true ∨
    (s.Fresh net.now ∧ (s.lastPowerQueryResult = 1 ∨ s.lastPowerQueryResult = 3)) ∨
    ((s.Fresh net.now ∨ NoneOpens net.query) ∧ NoneOpens net.command)

structure WithoutConsequence (s : Daemon) (m : VcCecMessage) (net : TvInputs) : Prop where
  imageViewOn : isImageViewOn m = true → TurnsOnSilently s.lan net
  report : isReportPhysicalAddress m = true → s.wantSetStreamPath = false ∧
    s.addressMap m.initiator = some (some (reportedAddress m))
  giveOSDName : isGiveOSDName m = false

@[simp] theorem silent_nil : Silent [] := by simp [Silent]

@[simp] theorem silent_append (es fs : List SockEvent) :
    Silent (es ++ fs) ↔ Silent es ∧ Silent fs := by
  simp [Silent, forall_and]

theorem sendPower_silent_iff {s : LanState} (hs : s.hasActiveConnection = false) (code : Bytes)
    (scripts : ℕ → SocketScript) :
    Silent (sendPower code s scripts).events ↔ NoneOpens scripts := by
  rw [sendPower_events]
  exact commandHost_silent_iff s scripts hs code

theorem refresh_silent_iff {s : LanState} (hs : s.hasActiveConnection = false) (now : Timespec)
    (scripts : ℕ → SocketScript) : Silent (refresh s now scripts).events ↔ NoneOpens scripts :=
  commandHost_silent_iff s scripts hs queryPowerCommand

theorem refresh_unopened {s : LanState} (hs : s.hasActiveConnection = false) (now : Timespec)
    {scripts : ℕ → SocketScript} (h : NoneOpens scripts) :
    (refresh s now scripts).value = -1 := by
  apply (queryPowerStatus_unanswered hs _).1
  intro j hj hcomp
  obtain ⟨c, hc⟩ := hcomp
  exact h j hj hc.1.opened

theorem refresh_flag {s : LanState} (hs : s.hasActiveConnection = false) (now : Timespec)
    (scripts : ℕ → SocketScript) : (refresh s now scripts).state.hasActiveConnection = false := by
  rw [refresh, queryPowerStatus_state hs]
  exact hs

theorem refresh_active {s : LanState} (hs : s.hasActiveConnection = true) (now : Timespec)
    (scripts : ℕ → SocketScript) : (refresh s now scripts).events = [] ∧
      (refresh s now scripts).state.hasActiveConnection = true := by
  simp [refresh, queryPowerStatus, commandHost, hs, retry_active]

theorem cached_active {s : LanState} (hs : s.hasActiveConnection = true) (now : Timespec)
    (scripts : ℕ → SocketScript) : (queryPowerStatusCached s now scripts).events = [] ∧
      (queryPowerStatusCached s now scripts).state.hasActiveConnection = true := by
  by_cases hfresh : s.Fresh now
  · rw [cached_fresh hfresh]
    exact ⟨rfl, hs⟩
  · rw [cached_stale hfresh]
    exact refresh_active hs now scripts

theorem turnOnTV_silent_iff (s : LanState) (net : TvInputs) :
    Silent (turnOnTV s net).events ↔ TurnsOnSilently s net := by
  have hcases := turnTV_cases (fun status => status == 1 || status == 3) onCommand s net
  simp only [Bool.or_eq_true, Bool.or_eq_false_iff, beq_iff_eq, beq_eq_false_iff_ne] at hcases
  have hturn : turnOnTV s net =
      turnTV (statusIs fun status => status == 1 || status == 3) (sendPower onCommand) s net := rfl
  rw [hturn]
  cases hs : s.hasActiveConnection with
  | true =>
    obtain ⟨hquiet, hactive⟩ := cached_active hs net.now net.query
    apply iff_of_true _ (Or.inl hs)
    rcases hcases with ⟨-, -, heq⟩ | ⟨-, heq⟩
    · rw [heq]
      exact hquiet ▸ silent_nil
    · rw [heq]
      show Silent ((queryPowerStatusCached s net.now net.query).events ++
        (sendPower onCommand (queryPowerStatusCached s net.now net.query).state net.command).events)
      rw [hquiet, sendPower_active hactive]
      exact silent_nil
  | false =>
    by_cases hfresh : s.Fresh net.now
    · have hcached := cached_fresh hfresh net.query
      simp only [statusIs, hcached] at hcases
      rcases hcases with ⟨-, hon, heq⟩ | ⟨hoff, heq⟩
      · rw [heq]
        exact iff_of_true silent_nil (Or.inr (Or.inl ⟨hfresh, hon⟩))
      · have hnot : ¬ (s.lastPowerQueryResult = 1 ∨ s.lastPowerQueryResult = 3) := by omega
        rw [heq, List.nil_append, sendPower_silent_iff hs]
        simp [TurnsOnSilently, hs, hfresh, hnot]
    · have hcached := cached_stale hfresh net.query
      simp only [statusIs, hcached] at hcases
      have hright : TurnsOnSilently s net ↔ NoneOpens net.query ∧ NoneOpens net.command := by
        simp [TurnsOnSilently, hs, hfresh]
      rw [hright]
      rcases hcases with ⟨hpos, -, heq⟩ | ⟨-, heq⟩
      · rw [heq, refresh_silent_iff hs]
        apply iff_of_false
        · intro hnone
          rw [refresh_unopened hs net.now hnone] at hpos
          omega
        · intro hnone
          rw [refresh_unopened hs net.now hnone.1] at hpos
          omega
      · rw [heq, silent_append, refresh_silent_iff hs,
          sendPower_silent_iff (refresh_flag hs net.now net.query)]

theorem between_unrecognised {m : VcCecMessage} (hm : BetweenOthers m) :
    isTVOffCmd m = false ∧ isRequestForVendorId m = false ∧ isRequestForPowerStatus m = false := by
  simp [isTVOffCmd, isRequestForVendorId, isRequestForPowerStatus, hm.1, hm.2]

theorem not_giveOSDName_of_imageViewOn {m : VcCecMessage} (h : isImageViewOn m = true) :
    isGiveOSDName m = false := by
  simp only [isImageViewOn, Bool.and_eq_true, Bool.or_eq_true, beq_iff_eq] at h
  rcases h.2 with hop | hop <;> simp [isGiveOSDName, hop, opcodeImageViewOn, opcodeTextViewOn,
    opcodeGiveOSDName]

theorem untouched_withLan {α : Type} (s : Daemon) (r : Ran α) :
    Untouched s (s.withLan r) ↔ Silent r.events := by
  constructor
  · intro h b hb
    exact h.projector b (List.mem_map_of_mem hb)
  · intro h
    exact
      { bus := fun c hc => by simp at hc
        projector := fun b hb => h b (by simpa using hb)
        addressMap := rfl
        wantSetStreamPath := rfl }

theorem untouched_report (s : Daemon) (m : VcCecMessage) :
    Untouched s (handleReportPhysicalAddress m s) ↔ s.wantSetStreamPath = false ∧
      s.addressMap m.initiator = some (some (reportedAddress m)) := by
  have hstate := handleReport_state m s
  have heffects := handleReport_effects m s
  cases hwant : s.wantSetStreamPath with
  | true =>
    rw [hwant, if_pos rfl] at heffects
    apply iff_of_false
    · intro h
      exact h.bus _ (by rw [heffects, setStreamPath]; exact List.mem_cons_self)
    · simp
  | false =>
    rw [hwant, if_neg Bool.false_ne_true] at heffects
    rw [and_iff_right rfl]
    constructor
    · intro h
      have hmap := congrFun h.addressMap m.initiator
      rw [hstate] at hmap
      exact hmap.symm.trans (Function.update_self ..)
    · intro h
      exact
        { bus := fun c hc => by simp [heffects] at hc
          projector := fun b hb => by simp [heffects] at hb
          addressMap := by rw [hstate, ← h, Function.update_eq_self]
          wantSetStreamPath := by rw [hstate, hwant] }

/-- A message between two other devices goes without consequence exactly if ImageViewOn
does not get through to the projector, a report is known already and awaited by
nobody, and the OSD name is not asked for. -/
theorem acts_only_as_tv_iff (s : Daemon) (m : VcCecMessage) (net : TvInputs)
    (hm : BetweenOthers m) :
    Untouched s (handleCECCallback (some m) s net) ↔ WithoutConsequence s m net := by
  obtain ⟨hstandby, hvendor, hstatus⟩ := between_unrecognised hm
  show Untouched s (handleMessage m s net) ↔ _
  by_cases hview : isImageViewOn m = true
  · have hlen : m.length = 1 := by
      simp only [isImageViewOn, Bool.and_eq_true, beq_iff_eq] at hview
      exact hview.1
    have hreport : ¬ isReportPhysicalAddress m = true := by
      intro hr
      have := length_of_report hr
      omega
    rw [handleMessage, if_pos hview, untouched_withLan, turnOnTV_silent_iff]
    constructor
    · intro h
      exact ⟨fun _ => h, fun hr => absurd hr hreport, not_giveOSDName_of_imageViewOn hview⟩
    · intro h
      exact h.imageViewOn hview
  by_cases hreport : isReportPhysicalAddress m = true
  · have hname := (not_recognised_of_length (m := m) (by have := length_of_report hreport; omega)).2.2.2.2
    rw [handleMessage_report hreport, untouched_report]
    constructor
    · intro h
      exact ⟨fun hv => absurd hv hview, fun _ => h, hname⟩
    · intro h
      exact h.report hreport
  cases hname : isGiveOSDName m with
  | true =>
    have hnamed : handleMessage m s net = ⟨s, setOSDName⟩ := by
      simp [handleMessage, hview, hstandby, hvendor, hstatus, hreport, hname]
    rw [hnamed]
    apply iff_of_false
    · intro h
      exact h.bus (.setOsdName osdName) (by simp [setOSDName])
    · intro h
      rw [h.giveOSDName] at hname
      cases hname
  | false =>
    have hnothing : handleMessage m s net = ⟨s, []⟩ := by
      simp [handleMessage, hview, hstandby, hvendor, hstatus, hreport, hname]
    rw [hnothing]
    exact iff_of_true ⟨by simp, by simp, rfl, rfl⟩
      ⟨fun hv => absurd hv hview, fun hr => absurd hr hreport, hname⟩

def toAudioSystem (opcode : UInt8) : VcCecMessage where
  length := 1
  initiator := .eDVD1
  follower := .eAudioSystem
  payload := fun i => [opcode].getD i 0

theorem others_standby_untouched :
    Untouched (boot (bootState []))
      (handleCECCallback (some (toAudioSystem opcodeStandby)) (boot (bootState [])) unreachable) :=
  (acts_only_as_tv_iff _ _ _ (by decide)).mpr ⟨nofun, nofun, rfl⟩

theorem others_osd_name_answered :
    BetweenOthers (toAudioSystem opcodeGiveOSDName) ∧
      ¬ Untouched (boot (bootState [])) (handleCECCallback
        (some (toAudioSystem opcodeGiveOSDName)) (boot (bootState [])) unreachable) :=
  ⟨by decide, fun h => h.bus (.setOsdName osdName) (List.mem_singleton.mpr rfl)⟩

end CecFix.OtherDevices
