import CecFix.Daemon

/-!
# The daemon's own messages come back

In passive mode with all opcodes registered, what the program transmits may be
delivered to its own callback. A run of the bus keeps the list of the calls that
transmitted; a looped message is any message one of them puts on the bus, at any
later time. The bytes sent for `vc_cec_set_vendor_id` and `vc_cec_set_osd_name`
are those of the standard's messages of these names.
-/

namespace CecFix.Loopback
open Cec

def busBytes : CecCall → Bytes
  | .sendMessage _ bytes _ => bytes
  | .sendStandby _ _ => [opcodeStandby]
  | .setVendorId id =>
    [opcodeDeviceVendorID, UInt8.ofNat (id / 0x10000), UInt8.ofNat (id / 0x100), UInt8.ofNat id]
  | .setOsdName name => opcodeSetOSDName :: name

/-- Whether a call may be for a device. The name goes to whoever asked for it. -/
def mayReach : CecCall → CecAllDevices → Bool
  | .sendMessage follower _ _, d => d == follower
  | .sendStandby follower _, d => d == follower
  | .setVendorId _, d => d == cecBroadcastAddr
  | .setOsdName _, _ => true

/-- `m` is the message of `c` as a receiver sees it, with any payload behind its end. -/
structure Carries (c : CecCall) (m : VcCecMessage) : Prop where
  initiator : m.initiator = .eTV
  follower : mayReach c m.follower = true
  length : m.length = (busBytes c).length
  payload : ∀ i : Fin 16, i.val < m.length → (busBytes c)[i.val]? = some (m.payload i)

instance (c : CecCall) (m : VcCecMessage) : Decidable (Carries c m) :=
  decidable_of_iff (m.initiator = .eTV ∧ mayReach c m.follower = true ∧
      m.length = (busBytes c).length ∧
      ∀ i : Fin 16, i.val < m.length → (busBytes c)[i.val]? = some (m.payload i))
    ⟨fun ⟨h₁, h₂, h₃, h₄⟩ => ⟨h₁, h₂, h₃, h₄⟩, fun ⟨h₁, h₂, h₃, h₄⟩ => ⟨h₁, h₂, h₃, h₄⟩⟩

structure Bus where
  daemon : Daemon
  sent : List CecCall

inductive BusEvent where
  | foreign (parsed : Option VcCecMessage) (net : TvInputs)
  | looped (m : VcCecMessage) (net : TvInputs)
  | fifoOff (net : TvInputs)
  | fifoOn (net : TvInputs)

def BusEvent.event : BusEvent → Event
  | .foreign parsed net => .callback parsed net
  | .looped m net => .callback (some m) net
  | .fifoOff net => .fifoOff net
  | .fifoOn net => .fifoOn net

def bus : Transducer Bus BusEvent Effect where
  next b x :=
    ⟨(handle b.daemon x.event).state,
      b.sent ++ (handle b.daemon x.event).effects.filterMap cecCall?⟩
  emit b x := (handle b.daemon x.event).effects

def Bus.initial (lan : Lan.LanState) : Bus := ⟨boot lan, bootEffects.filterMap cecCall?⟩

def Deliverable (b : Bus) : BusEvent → Prop
  | .looped m _ => ∃ c ∈ b.sent, Carries c m
  | _ => True

instance (b : Bus) : ∀ x, Decidable (Deliverable b x)
  | .looped m _ => inferInstanceAs (Decidable (∃ c ∈ b.sent, Carries c m))
  | .foreign _ _ => inferInstanceAs (Decidable True)
  | .fifoOff _ => inferInstanceAs (Decidable True)
  | .fifoOn _ => inferInstanceAs (Decidable True)

inductive Own : CecCall → Prop where
  | givePhysicalAddress (d : CecAllDevices) :
      Own (.sendMessage d [opcodeGivePhysicalAddress] false)
  | setStreamPath (a : PhysicalAddress) :
      Own (.sendMessage cecBroadcastAddr [opcodeSetStreamPath, a.byte0, a.byte1] false)
  | reportPowerStatus (d : CecAllDevices) (status : UInt8) :
      Own (.sendMessage d [opcodeReportPowerStatus, status] true)
  | standby : Own (.sendStandby cecBroadcastAddr false)
  | vendorId : Own (.setVendorId cecVendorIdBroadcom)
  | osdName : Own (.setOsdName osdName)

def AllOwn (es : List Effect) : Prop := ∀ c, .cec c ∈ es → Own c

theorem allOwn_sock (es : List Lan.SockEvent) : AllOwn (es.map .sock) := by
  simp [AllOwn]

theorem AllOwn.append {es fs : List Effect} (he : AllOwn es) (hf : AllOwn fs) :
    AllOwn (es ++ fs) := by
  intro c hc
  rcases List.mem_append.mp hc with h | h
  · exact he c h
  · exact hf c h

theorem AllOwn.singleton {c : CecCall} (h : Own c) : AllOwn [.cec c] := by
  simp [AllOwn, h]

theorem AllOwn.nil : AllOwn [] := by simp [AllOwn]

theorem setStreamPathToPlayback1_own (s : Daemon) : AllOwn (setStreamPathToPlayback1 s).effects := by
  rcases setStreamPathToPlayback1_effects s with h | h | ⟨a, h⟩
  · rw [h]
    exact .singleton (.givePhysicalAddress _)
  · rw [h]
    exact .nil
  · rw [h]
    exact .singleton (.setStreamPath a)

theorem replyWithPowerStatus_own (d : CecAllDevices) (s : Daemon) (net : TvInputs) :
    AllOwn (replyWithPowerStatus d s net).effects := by
  obtain ⟨es, heq, hes⟩ := replyWithPowerStatus_effects d s net
  rw [heq]
  apply (allOwn_sock _).append
  rcases hes with rfl | ⟨status, rfl⟩
  · exact .nil
  · exact .singleton (.reportPowerStatus d status)

theorem handleReport_own (m : VcCecMessage) (s : Daemon) :
    AllOwn (handleReportPhysicalAddress m s).effects := by
  rw [handleReport_effects]
  split_ifs
  · exact .singleton (.setStreamPath _)
  · exact .nil

theorem handleMessage_own (m : VcCecMessage) (s : Daemon) (net : TvInputs) :
    AllOwn (handleMessage m s net).effects := by
  unfold handleMessage
  split_ifs
  · exact allOwn_sock _
  · exact (allOwn_sock _).append (.singleton .standby)
  · exact .singleton .vendorId
  · exact replyWithPowerStatus_own _ _ _
  · exact handleReport_own _ _
  · exact .singleton .osdName
  · exact .nil

theorem handle_own (s : Daemon) (e : Event) : AllOwn (handle s e).effects := by
  cases e with
  | callback parsed net =>
    cases parsed with
    | none => exact .nil
    | some m => exact handleMessage_own m s net
  | fifoOff net => exact (allOwn_sock _).append (.singleton .standby)
  | fifoOn net => exact (allOwn_sock _).append (setStreamPathToPlayback1_own _)

theorem handleMessage_unrecognised {m : VcCecMessage} (hinit : m.initiator = .eTV)
    (hop : m.payload 0 ≠ opcodeImageViewOn ∧ m.payload 0 ≠ opcodeTextViewOn ∧
      m.payload 0 ≠ opcodeGiveDeviceVendorID ∧ m.payload 0 ≠ opcodeGiveDevicePowerStatus ∧
      m.payload 0 ≠ opcodeReportPhysicalAddress ∧ m.payload 0 ≠ opcodeGiveOSDName)
    (s : Daemon) (net : TvInputs) : handleMessage m s net = ⟨s, []⟩ := by
  obtain ⟨h1, h2, h3, h4, h5, h6⟩ := hop
  simp [handleMessage, isImageViewOn, isTVOffCmd, isRequestForVendorId, isRequestForPowerStatus,
    isReportPhysicalAddress, isGiveOSDName, hinit, h1, h2, h3, h4, h5, h6]

theorem Carries.opcode {c : CecCall} {m : VcCecMessage} (h : Carries c m) {op : UInt8}
    {rest : Bytes} (hb : busBytes c = op :: rest) : m.payload 0 = op := by
  have h0 := h.payload 0 (by rw [h.length, hb]; simp)
  rw [hb] at h0
  simpa using h0.symm

theorem own_ignored {c : CecCall} (hown : Own c) {m : VcCecMessage} (h : Carries c m)
    (s : Daemon) (net : TvInputs) : handleMessage m s net = ⟨s, []⟩ := by
  obtain ⟨op, rest, hb, hop⟩ : ∃ op rest, busBytes c = op :: rest ∧
      (op ≠ opcodeImageViewOn ∧ op ≠ opcodeTextViewOn ∧ op ≠ opcodeGiveDeviceVendorID ∧
        op ≠ opcodeGiveDevicePowerStatus ∧ op ≠ opcodeReportPhysicalAddress ∧
        op ≠ opcodeGiveOSDName) := by
    cases hown <;> exact ⟨_, _, rfl, by decide⟩
  rw [← h.opcode hb] at hop
  exact handleMessage_unrecognised h.initiator hop s net

def SentOwn (b : Bus) : Prop := ∀ c ∈ b.sent, Own c

theorem sentOwn_step (b : Bus) (x : BusEvent) (h : SentOwn b) : SentOwn (bus.next b x) := by
  intro c hc
  rcases List.mem_append.mp hc with hc | hc
  · exact h c hc
  · obtain ⟨e, he, hec⟩ := List.mem_filterMap.mp hc
    cases e with
    | sock e => cases hec
    | cec c' =>
      obtain rfl : c' = c := Option.some.inj hec
      exact handle_own b.daemon x.event _ he

/-- A looped message changes nothing, the power cache included, and has no effect. -/
def LoopedIgnored (b : Bus) : BusEvent → Prop
  | .looped m net => bus.next b (.looped m net) = b ∧ bus.emit b (.looped m net) = []
  | _ => True

theorem looped_ignored (b : Bus) (x : BusEvent) (h : SentOwn b) (hx : Deliverable b x) :
    LoopedIgnored b x := by
  cases x with
  | looped m net =>
    obtain ⟨c, hc, hcm⟩ := hx
    have hm := own_ignored (h c hc) hcm b.daemon net
    simp only [LoopedIgnored, bus, BusEvent.event, handle, handleCECCallback, hm]
    exact ⟨by simp, trivial⟩
  | foreign parsed net => trivial
  | fifoOff net => trivial
  | fifoOn net => trivial

def isStandby : Effect → Bool
  | .cec (.sendStandby _ _) => true
  | _ => false

def foreignStandby (m : VcCecMessage) : Bool :=
  m.initiator != .eTV && (m.follower == .eTV || m.follower == cecBroadcastAddr) &&
    0 < m.length && m.payload 0 == opcodeStandby

def asksForStandby : BusEvent → Bool
  | .foreign (some m) _ => foreignStandby m
  | .fifoOff _ => true
  | _ => false

@[simp] theorem countP_comp_sock (es : List Lan.SockEvent) :
    es.countP (isStandby ∘ Effect.sock) = 0 := by
  rw [List.countP_eq_zero]
  simp [isStandby]

theorem countP_sock (es : List Lan.SockEvent) : (es.map Effect.sock).countP isStandby = 0 := by
  rw [List.countP_map, countP_comp_sock]

theorem setStreamPathToPlayback1_standby (s : Daemon) :
    (setStreamPathToPlayback1 s).effects.countP isStandby = 0 := by
  rcases setStreamPathToPlayback1_effects s with h | h | ⟨a, h⟩
  · rw [h]
    rfl
  · rw [h]
    rfl
  · rw [h]
    rfl

theorem replyWithPowerStatus_standby (d : CecAllDevices) (s : Daemon) (net : TvInputs) :
    (replyWithPowerStatus d s net).effects.countP isStandby = 0 := by
  obtain ⟨es, heq, hes⟩ := replyWithPowerStatus_effects d s net
  rw [heq, List.countP_append, countP_sock, Nat.zero_add]
  rcases hes with rfl | ⟨status, rfl⟩
  · rfl
  · rfl

theorem handleReport_standby (m : VcCecMessage) (s : Daemon) :
    (handleReportPhysicalAddress m s).effects.countP isStandby = 0 := by
  rw [handleReport_effects]
  split_ifs <;> rfl

theorem handleMessage_standby (m : VcCecMessage) (s : Daemon) (net : TvInputs) :
    (handleMessage m s net).effects.countP isStandby ≤ if isTVOffCmd m then 1 else 0 := by
  unfold handleMessage
  by_cases h1 : isImageViewOn m = true
  · simp [h1]
  by_cases h2 : isTVOffCmd m = true
  · simp [h1, h2, broadcastStandby, isStandby]
  rw [if_neg h1, if_neg h2, if_neg h2, Nat.le_zero]
  split_ifs
  · rfl
  · exact replyWithPowerStatus_standby _ _ _
  · exact handleReport_standby _ _
  · rfl
  · rfl

theorem foreignStandby_of_isTVOffCmd {m : VcCecMessage} (h : isTVOffCmd m = true) :
    foreignStandby m = true := by
  simp only [isTVOffCmd, Bool.and_eq_true, beq_iff_eq] at h
  obtain ⟨⟨⟨hf, hi⟩, hl⟩, ho⟩ := h
  simp [foreignStandby, hf, hi, hl, ho]

theorem standby_step (b : Bus) (x : BusEvent) (h : SentOwn b) (hx : Deliverable b x) :
    (bus.emit b x).countP isStandby ≤ if asksForStandby x then 1 else 0 := by
  cases x with
  | foreign parsed net =>
    cases parsed with
    | none => exact Nat.zero_le _
    | some m =>
      apply (handleMessage_standby m b.daemon net).trans
      by_cases hoff : isTVOffCmd m = true
      · simp [hoff, asksForStandby, foreignStandby_of_isTVOffCmd hoff]
      · simp [hoff]
  | looped m net =>
    have hl : bus.emit b (.looped m net) = [] := (looped_ignored b (.looped m net) h hx).2
    simp [hl]
  | fifoOff net =>
    simp [bus, BusEvent.event, handle, systemStandby, broadcastStandby, isStandby, asksForStandby]
  | fifoOn net =>
    simp [bus, BusEvent.event, handle, systemActive, setStreamPathToPlayback1_standby]

theorem initial_sentOwn (lan : Lan.LanState) : SentOwn (.initial lan) := by
  intro c hc
  simp only [Bus.initial, bootEffects, getPhysicalAddress, List.filterMap_cons, cecCall?,
    List.filterMap_nil, List.mem_singleton] at hc
  exact hc ▸ .givePhysicalAddress .eDVD1

/-- In every run in which the program's own messages come back, they are ignored,
and there are no more Standby broadcasts than foreign ones and off commands. -/
theorem own_messages_ignored (lan : Lan.LanState) (xs : List BusEvent)
    (hx : bus.Along Deliverable (.initial lan) xs) :
    bus.Along LoopedIgnored (.initial lan) xs ∧
      (bus.outputs (.initial lan) xs).flatten.countP isStandby ≤ xs.countP asksForStandby := by
  constructor
  · exact hx.of_invariant (fun b x h hd => ⟨looped_ignored b x h hd, sentOwn_step b x h⟩)
      (initial_sentOwn lan)
  · exact Transducer.countP_outputs_le isStandby asksForStandby (fun b x h _ => sentOwn_step b x h)
      standby_step (initial_sentOwn lan) hx

def standbyFrom (d : CecAllDevices) : VcCecMessage where
  length := 1
  initiator := d
  follower := cecBroadcastAddr
  payload := fun i => [opcodeStandby].getD i 0

theorem looped_standby_ignored :
    let xs : List BusEvent := [.foreign (some (standbyFrom .eDVD1)) unreachable,
      .looped (standbyFrom .eTV) unreachable, .looped (standbyFrom .eTV) unreachable]
    bus.Along LoopedIgnored (.initial (Lan.bootState [])) xs ∧
      (bus.outputs (.initial (Lan.bootState [])) xs).flatten.countP isStandby ≤
        xs.countP asksForStandby :=
  own_messages_ignored (Lan.bootState []) _ (by decide)

end CecFix.Loopback
