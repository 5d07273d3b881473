import CecFix.CecMessage
import CecFix.PowerStatus
import CecFix.Transducer

/-!
# The daemon between two callbacks

The globals and handlers of `main.cpp`, each handler run to its end before the
next callback. What the outside decides during one callback (the clock, the
results of the system calls of a query and of a command) is the argument `net`;
what a handler does to the outside is its list of effects, in order. The return
codes of the CEC library only pick a line for the log and are left out.

An entry of `addressMap` is a pointer, so that it has the null pointer among its
values; the two bytes it points to are part of it.
-/

namespace CecFix.Cec
open Lan (LanState Ran SocketScript SockEvent Timespec queryPowerStatusCached statusIs isOn isOff
  sendPower sendOn sendOff)

structure PhysicalAddress where
  byte0 : UInt8
  byte1 : UInt8
  deriving DecidableEq

abbrev AddressPtr := Option PhysicalAddress

structure Daemon where
  addressMap : CecAllDevices → Option AddressPtr
  wantSetStreamPath : Bool
  lan : LanState

inductive CecCall where
  | sendMessage (follower : CecAllDevices) (bytes : Bytes) (isReply : Bool)
  | sendStandby (follower : CecAllDevices) (isReply : Bool)
  | setVendorId (id : ℕ)
  | setOsdName (name : Bytes)
  deriving DecidableEq

inductive Effect where
  | cec (c : CecCall)
  | sock (e : SockEvent)

structure Acted where
  state : Daemon
  effects : List Effect

structure TvInputs where
  now : Timespec
  query : ℕ → SocketScript
  command : ℕ → SocketScript

def Daemon.withLan {α : Type} (s : Daemon) (r : Ran α) : Acted :=
  ⟨{ s with lan := r.state }, r.events.map .sock⟩

def Acted.andThen (a : Acted) (es : List Effect) : Acted := { a with effects := a.effects ++ es }

inductive TvOutcome where
  | already
  | sent (ret : Int)
  deriving DecidableEq

/-- The common body of `turnOffTV` and `turnOnTV`: an exception of the test counts
as the answer that the command is needed. -/
def turnTV (test : LanState → Timespec → (ℕ → SocketScript) → Ran (Except String Bool))
    (send : LanState → (ℕ → SocketScript) → Ran Int) (s : LanState) (net : TvInputs) :
    Ran TvOutcome :=
  let t := test s net.now net.query
  match t.value with
  | .ok true => ⟨.already, t.state, t.events⟩
  | .ok false | .error _ =>
    let r := send t.state net.command
    ⟨.sent r.value, r.state, t.events ++ r.events⟩

def turnOffTV : LanState → TvInputs → Ran TvOutcome := turnTV isOff sendOff
def turnOnTV : LanState → TvInputs → Ran TvOutcome := turnTV isOn sendOn

def getPhysicalAddress (follower : CecAllDevices) : List Effect :=
  [.cec (.sendMessage follower [opcodeGivePhysicalAddress] false)]

def setStreamPath (a : PhysicalAddress) : List Effect :=
  [.cec (.sendMessage cecBroadcastAddr [opcodeSetStreamPath, a.byte0, a.byte1] false)]

def broadcastStandby : List Effect := [.cec (.sendStandby cecBroadcastAddr false)]
def broadcastVendorId : List Effect := [.cec (.setVendorId cecVendorIdBroadcom)]
def setOSDName : List Effect := [.cec (.setOsdName osdName)]

def setStreamPathToPlayback1 (s : Daemon) : Acted :=
  match s.addressMap .eDVD1 with
  | none => ⟨{ s with wantSetStreamPath := true }, getPhysicalAddress .eDVD1⟩
  | some none => ⟨s, []⟩
  | some (some a) => ⟨s, setStreamPath a⟩

def reportedAddress (m : VcCecMessage) : PhysicalAddress := ⟨m.payload 1, m.payload 2⟩

def eraseAddress (map : CecAllDevices → Option AddressPtr) (d : CecAllDevices) :
    CecAllDevices → Option AddressPtr :=
  match map d with
  | some _ => Function.update map d none
  | none => map

def handleReportPhysicalAddress (m : VcCecMessage) (s : Daemon) : Acted :=
  let addressPtr := reportedAddress m
  let map := Function.update (eraseAddress s.addressMap m.initiator) m.initiator
    (some (some addressPtr))
  if s.wantSetStreamPath then
    ⟨{ s with addressMap := map, wantSetStreamPath := false }, setStreamPath addressPtr⟩
  else ⟨{ s with addressMap := map }, []⟩

def replyWithPowerStatus (requestor : CecAllDevices) (s : Daemon) (net : TvInputs) : Acted :=
  let t := isOn s.lan net.now net.query
  match t.value with
  | .error _ => s.withLan t
  | .ok tvIsOn => (s.withLan t).andThen
      [.cec (.sendMessage requestor
        [opcodeReportPowerStatus, if tvIsOn then cecPowerStatusOn else cecPowerStatusStandby]
        true)]

def systemStandby (s : Daemon) (net : TvInputs) : Acted :=
  (s.withLan (turnOffTV s.lan net)).andThen broadcastStandby

def systemActive (s : Daemon) (net : TvInputs) : Acted :=
  let a := s.withLan (turnOnTV s.lan net)
  let b := setStreamPathToPlayback1 a.state
  ⟨b.state, a.effects ++ b.effects⟩

def handleMessage (m : VcCecMessage) (s : Daemon) (net : TvInputs) : Acted :=
  if isImageViewOn m then s.withLan (turnOnTV s.lan net)
  else if isTVOffCmd m then (s.withLan (turnOffTV s.lan net)).andThen broadcastStandby
  else if isRequestForVendorId m then ⟨s, broadcastVendorId⟩
  else if isRequestForPowerStatus m then replyWithPowerStatus m.initiator s net
  else if isReportPhysicalAddress m then handleReportPhysicalAddress m s
  else if isGiveOSDName m then ⟨s, setOSDName⟩
  else ⟨s, []⟩

/-- `parsed` is the message struct after `vc_cec_param2message`, if that succeeded. -/
def handleCECCallback (parsed : Option VcCecMessage) (s : Daemon) (net : TvInputs) : Acted :=
  match parsed with
  | none => ⟨s, []⟩
  | some m => handleMessage m s net

inductive Event where
  | callback (parsed : Option VcCecMessage) (net : TvInputs)
  | fifoOff (net : TvInputs)
  | fifoOn (net : TvInputs)

def handle (s : Daemon) : Event → Acted
  | .callback parsed net => handleCECCallback parsed s net
  | .fifoOff net => systemStandby s net
  | .fifoOn net => systemActive s net

def daemon : Transducer Daemon Event Effect where
  next s e := (handle s e).state
  emit s e := (handle s e).effects

def boot (lan : LanState) : Daemon := ⟨fun _ => none, false, lan⟩

/-- What `initCEC` transmits: the address of Playback 1 is asked for. -/
def bootEffects : List Effect := getPhysicalAddress .eDVD1

def unreachable : TvInputs :=
  let dead : SocketScript := ⟨-1, 0, 0, .failed, .failed, .failed⟩
  ⟨⟨0, 0⟩, fun _ => dead, fun _ => dead⟩

@[simp] theorem withLan_addressMap {α : Type} (s : Daemon) (r : Ran α) :
    (s.withLan r).state.addressMap = s.addressMap := rfl
@[simp] theorem withLan_wantSetStreamPath {α : Type} (s : Daemon) (r : Ran α) :
    (s.withLan r).state.wantSetStreamPath = s.wantSetStreamPath := rfl
@[simp] theorem withLan_lan {α : Type} (s : Daemon) (r : Ran α) :
    (s.withLan r).state.lan = r.state := rfl
@[simp] theorem withLan_effects {α : Type} (s : Daemon) (r : Ran α) :
    (s.withLan r).effects = r.events.map .sock := rfl
@[simp] theorem andThen_state (a : Acted) (es : List Effect) : (a.andThen es).state = a.state := rfl
@[simp] theorem andThen_effects (a : Acted) (es : List Effect) :
    (a.andThen es).effects = a.effects ++ es := rfl

def cecCall? : Effect → Option CecCall
  | .cec c => some c
  | .sock _ => none

@[simp] theorem cecCall_sock (e : SockEvent) : cecCall? (.sock e) = none := rfl

theorem update_eraseAddress (map : CecAllDevices → Option AddressPtr) (d : CecAllDevices)
    (p : Option AddressPtr) : Function.update (eraseAddress map d) d p = Function.update map d p := by
  rw [eraseAddress]
  cases map d with
  | none => rfl
  | some q => simp

theorem handleReport_state (m : VcCecMessage) (s : Daemon) :
    (handleReportPhysicalAddress m s).state =
      { s with
        addressMap := Function.update s.addressMap m.initiator (some (some (reportedAddress m)))
        wantSetStreamPath := false } := by
  simp only [handleReportPhysicalAddress, update_eraseAddress]
  split_ifs with h
  · rfl
  · rw [Bool.not_eq_true] at h
    simp [← h]

theorem handleReport_effects (m : VcCecMessage) (s : Daemon) :
    (handleReportPhysicalAddress m s).effects =
      if s.wantSetStreamPath then setStreamPath (reportedAddress m) else [] := by
  rw [handleReportPhysicalAddress]
  split_ifs <;> rfl

theorem handleMessage_report {m : VcCecMessage} (h : isReportPhysicalAddress m = true) (s : Daemon)
    (net : TvInputs) : handleMessage m s net = handleReportPhysicalAddress m s := by
  have hlen := length_of_report h
  obtain ⟨h1, h2, h3, h4, -⟩ := not_recognised_of_length (m := m) (by omega)
  simp [handleMessage, h, h1, h2, h3, h4]

theorem turnTV_cases (test : Int → Bool) (code : Bytes) (s : LanState) (net : TvInputs) :
    let t := statusIs test s net.now net.query
    let status := (queryPowerStatusCached s net.now net.query).value
    (0 ≤ status ∧ test status = true ∧ turnTV (statusIs test) (sendPower code) s net =
        ⟨.already, t.state, t.events⟩) ∨
      ((status < 0 ∨ test status = false) ∧ turnTV (statusIs test) (sendPower code) s net =
        ⟨.sent (sendPower code t.state net.command).value,
          (sendPower code t.state net.command).state,
          t.events ++ (sendPower code t.state net.command).events⟩) := by
  intro t status
  have hvalue : t.value = if status < 0 then .error ("Networking error: " ++ toString status)
      else .ok (test status) := rfl
  rw [turnTV]
  split
  · next h =>
    rw [hvalue] at h
    split_ifs at h with hneg
    injection h with h
    exact Or.inl ⟨not_lt.mp hneg, h, rfl⟩
  · next h =>
    rw [hvalue] at h
    split_ifs at h with hneg
    injection h with h
    exact Or.inr ⟨Or.inr h, rfl⟩
  · next h =>
    rw [hvalue] at h
    split_ifs at h with hneg
    exact Or.inr ⟨Or.inl hneg, rfl⟩

theorem replyWithPowerStatus_state (d : CecAllDevices) (s : Daemon) (net : TvInputs) :
    (replyWithPowerStatus d s net).state = (s.withLan (isOn s.lan net.now net.query)).state := by
  unfold replyWithPowerStatus
  dsimp only
  split <;> rfl

theorem replyWithPowerStatus_effects (d : CecAllDevices) (s : Daemon) (net : TvInputs) :
    ∃ es : List Effect, (replyWithPowerStatus d s net).effects =
        (isOn s.lan net.now net.query).events.map .sock ++ es ∧
      (es = [] ∨ ∃ status, es =
        [.cec (.sendMessage d [opcodeReportPowerStatus, status] true)]) := by
  unfold replyWithPowerStatus
  dsimp only
  split
  · exact ⟨[], (List.append_nil _).symm, Or.inl rfl⟩
  · exact ⟨[_], rfl, Or.inr ⟨_, rfl⟩⟩

theorem setStreamPathToPlayback1_effects (s : Daemon) :
    (setStreamPathToPlayback1 s).effects = getPhysicalAddress .eDVD1 ∨
      (setStreamPathToPlayback1 s).effects = [] ∨
      ∃ a, (setStreamPathToPlayback1 s).effects = setStreamPath a := by
  unfold setStreamPathToPlayback1
  split
  · exact Or.inl rfl
  · exact Or.inr (Or.inl rfl)
  · exact Or.inr (Or.inr ⟨_, rfl⟩)

theorem handleMessage_frame {m : VcCecMessage} (h : isReportPhysicalAddress m = false) (s : Daemon)
    (net : TvInputs) : (handleMessage m s net).state.addressMap = s.addressMap ∧
      (handleMessage m s net).state.wantSetStreamPath = s.wantSetStreamPath := by
  unfold handleMessage
  split_ifs with h1 h2 h3 h4 h5
  · exact ⟨rfl, rfl⟩
  · exact ⟨rfl, rfl⟩
  · exact ⟨rfl, rfl⟩
  · rw [replyWithPowerStatus_state]
    exact ⟨rfl, rfl⟩
  · rw [h] at h5
    cases h5
  · exact ⟨rfl, rfl⟩
  · exact ⟨rfl, rfl⟩

end CecFix.Cec
