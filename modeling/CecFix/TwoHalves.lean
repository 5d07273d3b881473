import CecFix.Daemon
import CecFix.Projection

/-!
# The two halves of the daemon

The daemon is two machines side by side. The router keeps the addresses and answers on the
bus; the remote keeps the projector's state and talks to it. A message or a command is an
input of the one, of the other or of both, and only the remote's inputs come with what the
network does. Of what the daemon gives out, the reports of the power status are the
remote's, and the rest on the bus is the router's.

Neither half has any influence on the other, as far as an event always comes to its end: a
projector that keeps silent on an open connection holds up the router as well, and a read
behind the payload of a message that was never received may end both.
-/

namespace CecFix.TwoHalves
open Cec Lan

structure Router where
  addressMap : CecAllDevices → Option AddressPtr
  wantSetStreamPath : Bool

inductive BusInput where
  | standby
  | activate
  | report (initiator : CecAllDevices) (address : PhysicalAddress)
  | vendorId
  | osdName
  deriving DecidableEq

def streamPath (a : PhysicalAddress) : CecCall :=
  .sendMessage cecBroadcastAddr [opcodeSetStreamPath, a.byte0, a.byte1] false

def askPlayback1 : CecCall := .sendMessage .eDVD1 [opcodeGivePhysicalAddress] false

def Router.next (r : Router) : BusInput → Router
  | .activate => if r.addressMap .eDVD1 = none then { r with wantSetStreamPath := true } else r
  | .report d a => ⟨Function.update r.addressMap d (some (some a)), false⟩
  | _ => r

def Router.emit (r : Router) : BusInput → List CecCall
  | .standby => [.sendStandby cecBroadcastAddr false]
  | .activate =>
    match r.addressMap .eDVD1 with
    | none => [askPlayback1]
    | some p => p.toList.map streamPath
  | .report _ a => if r.wantSetStreamPath then [streamPath a] else []
  | .vendorId => [.setVendorId cecVendorIdBroadcom]
  | .osdName => [.setOsdName osdName]

def router : Transducer Router BusInput CecCall := ⟨Router.next, Router.emit⟩

def routerOf (s : Daemon) : Router := ⟨s.addressMap, s.wantSetStreamPath⟩

def messageInput (m : VcCecMessage) : Option BusInput :=
  if isImageViewOn m then none
  else if isTVOffCmd m then some .standby
  else if isRequestForVendorId m then some .vendorId
  else if isRequestForPowerStatus m then none
  else if isReportPhysicalAddress m then some (.report m.initiator (reportedAddress m))
  else if isGiveOSDName m then some .osdName
  else none

def busInput : Event → Option BusInput
  | .callback parsed _ => parsed.bind messageInput
  | .fifoOff _ => some .standby
  | .fifoOn _ => some .activate

def isPowerReport : CecCall → Bool
  | .sendMessage _ bytes _ => bytes.head? == some opcodeReportPowerStatus
  | _ => false

def busCall? : Effect → Option CecCall
  | .cec c => if isPowerReport c then none else some c
  | .sock _ => none

inductive PowerInput where
  | on (net : TvInputs)
  | off (net : TvInputs)
  | status (requestor : CecAllDevices) (net : TvInputs)

def statusReport (requestor : CecAllDevices) (tvIsOn : Bool) : Effect :=
  .cec (.sendMessage requestor
    [opcodeReportPowerStatus, if tvIsOn then cecPowerStatusOn else cecPowerStatusStandby] true)

def remote : Transducer LanState PowerInput Effect where
  next s
    | .on net => (turnOnTV s net).state
    | .off net => (turnOffTV s net).state
    | .status _ net => (isOn s net.now net.query).state
  emit s
    | .on net => (turnOnTV s net).events.map .sock
    | .off net => (turnOffTV s net).events.map .sock
    | .status d net =>
      (isOn s net.now net.query).events.map .sock ++
        (isOn s net.now net.query).value.toOption.toList.map (statusReport d)

def messagePower (m : VcCecMessage) (net : TvInputs) : Option PowerInput :=
  if isImageViewOn m then some (.on net)
  else if isTVOffCmd m then some (.off net)
  else if isRequestForVendorId m then none
  else if isRequestForPowerStatus m then some (.status m.initiator net)
  else none

def powerInput : Event → Option PowerInput
  | .callback parsed net => parsed.bind fun m => messagePower m net
  | .fifoOff net => some (.off net)
  | .fifoOn net => some (.on net)

def powerEffect? (e : Effect) : Option Effect :=
  if (busCall? e).isSome then none else some e

section Row
variable {α β : Type*} {f : Effect → Option β} {g : α → Effect}

theorem filterMap_row_none (h : ∀ a, f (g a) = none) (row : List α) :
    (row.map g).filterMap f = [] := by
  rw [List.filterMap_map, List.filterMap_eq_nil_iff]
  exact fun a _ => h a

theorem filterMap_row_all {f : Effect → Option Effect} (h : ∀ a, f (g a) = some (g a))
    (row : List α) : (row.map g).filterMap f = row.map g := by
  rw [List.filterMap_map, ← List.filterMap_eq_map]
  exact List.filterMap_congr fun a _ => h a

end Row

theorem busCalls_sock (es : List SockEvent) : (es.map Effect.sock).filterMap busCall? = [] :=
  filterMap_row_none (fun _ => rfl) es

theorem reply_effects (d : CecAllDevices) (s : Daemon) (net : TvInputs) :
    (replyWithPowerStatus d s net).effects = remote.emit s.lan (.status d net) := by
  rw [replyWithPowerStatus]
  dsimp only [remote]
  split
  · next h =>
    rw [h]
    exact (List.append_nil _).symm
  · next h =>
    rw [h]
    rfl

theorem busCalls_reports (d : CecAllDevices) (answers : List Bool) :
    (answers.map (statusReport d)).filterMap busCall? = [] :=
  filterMap_row_none (fun _ => rfl) answers

theorem router_message (m : VcCecMessage) (s : Daemon) (net : TvInputs) :
    routerOf (handleMessage m s net).state =
        (messageInput m).elim (routerOf s) (router.next (routerOf s)) ∧
      (handleMessage m s net).effects.filterMap busCall? =
        (messageInput m).elim [] (router.emit (routerOf s)) := by
  rw [handleMessage, messageInput]
  split_ifs with h1 h2 h3 h4 h5 h6
  · exact ⟨rfl, busCalls_sock _⟩
  · refine ⟨rfl, ?_⟩
    rw [andThen_effects, withLan_effects, List.filterMap_append, busCalls_sock]
    rfl
  · exact ⟨rfl, rfl⟩
  · refine ⟨?_, ?_⟩
    · rw [replyWithPowerStatus_state]
      rfl
    · rw [reply_effects]
      dsimp only [remote]
      rw [List.filterMap_append, busCalls_sock, busCalls_reports]
      rfl
  · rw [handleReport_state, handleReport_effects]
    refine ⟨rfl, ?_⟩
    show _ = if s.wantSetStreamPath then _ else _
    split_ifs <;> rfl
  · exact ⟨rfl, rfl⟩
  · exact ⟨rfl, rfl⟩

theorem router_activate (s : Daemon) :
    routerOf (setStreamPathToPlayback1 s).state = router.next (routerOf s) .activate ∧
      (setStreamPathToPlayback1 s).effects.filterMap busCall? =
        router.emit (routerOf s) .activate := by
  have hmap : (routerOf s).addressMap .eDVD1 = s.addressMap .eDVD1 := rfl
  dsimp only [router, Router.next, Router.emit]
  rw [hmap, setStreamPathToPlayback1]
  cases s.addressMap .eDVD1 with
  | none => exact ⟨rfl, rfl⟩
  | some p => cases p <;> exact ⟨rfl, rfl⟩

theorem router_step (s : Daemon) (e : Event) :
    routerOf (daemon.next s e) = (busInput e).elim (routerOf s) (router.next (routerOf s)) ∧
      (daemon.emit s e).filterMap busCall? = (busInput e).elim [] (router.emit (routerOf s)) := by
  cases e with
  | callback parsed net =>
    cases parsed with
    | none => exact ⟨rfl, rfl⟩
    | some m => exact router_message m s net
  | fifoOff net =>
    refine ⟨rfl, ?_⟩
    show ((turnOffTV s.lan net).events.map Effect.sock ++ broadcastStandby).filterMap busCall? = _
    rw [List.filterMap_append, busCalls_sock]
    rfl
  | fifoOn net =>
    obtain ⟨hview, hcalls⟩ := router_activate (s.withLan (turnOnTV s.lan net)).state
    refine ⟨hview, ?_⟩
    show ((turnOnTV s.lan net).events.map Effect.sock ++ _).filterMap busCall? = _
    rw [List.filterMap_append, busCalls_sock, List.nil_append]
    exact hcalls

def routerHalf : Projection daemon router where
  view := routerOf
  read := busInput
  watch := busCall?
  next_view s e := (router_step s e).1
  emit_watch s e := (router_step s e).2

def askedBy (initiator : CecAllDevices) (opcode : UInt8) : VcCecMessage :=
  ⟨1, initiator, .eTV, fun _ => opcode⟩

def answering : TvInputs :=
  ⟨⟨7, 0⟩, fun _ => greetingScript .failed, fun _ => greetingScript (.got ⟨onOffAck, onOffAck_fits⟩)⟩

theorem powerEffects_sock (es : List SockEvent) :
    (es.map Effect.sock).filterMap powerEffect? = es.map .sock :=
  filterMap_row_all (f := powerEffect?) (fun _ => rfl) es

theorem powerEffects_reports (d : CecAllDevices) (answers : List Bool) :
    (answers.map (statusReport d)).filterMap powerEffect? = answers.map (statusReport d) :=
  filterMap_row_all (f := powerEffect?) (fun _ => rfl) answers

theorem powerEffects_path (s : Daemon) :
    (setStreamPathToPlayback1 s).effects.filterMap powerEffect? = [] := by
  rcases setStreamPathToPlayback1_effects s with h | h | ⟨a, h⟩
  · rw [h]
    rfl
  · rw [h]
    rfl
  · rw [h]
    rfl

theorem remote_message (m : VcCecMessage) (s : Daemon) (net : TvInputs) :
    (handleMessage m s net).state.lan = (messagePower m net).elim s.lan (remote.next s.lan) ∧
      (handleMessage m s net).effects.filterMap powerEffect? =
        (messagePower m net).elim [] (remote.emit s.lan) := by
  rw [handleMessage, messagePower]
  split_ifs with h1 h2 h3 h4 h5 h6
  · exact ⟨rfl, powerEffects_sock _⟩
  · refine ⟨rfl, ?_⟩
    rw [andThen_effects, withLan_effects, List.filterMap_append, powerEffects_sock]
    exact List.append_nil _
  · exact ⟨rfl, rfl⟩
  · refine ⟨?_, ?_⟩
    · rw [replyWithPowerStatus_state]
      rfl
    · rw [reply_effects]
      dsimp only [remote, Option.elim_some]
      rw [List.filterMap_append, powerEffects_sock, powerEffects_reports]
  · rw [handleReport_state, handleReport_effects]
    refine ⟨rfl, ?_⟩
    split_ifs <;> rfl
  · exact ⟨rfl, rfl⟩
  · exact ⟨rfl, rfl⟩

theorem remote_step (s : Daemon) (e : Event) :
    (daemon.next s e).lan = (powerInput e).elim s.lan (remote.next s.lan) ∧
      (daemon.emit s e).filterMap powerEffect? = (powerInput e).elim [] (remote.emit s.lan) := by
  cases e with
  | callback parsed net =>
    cases parsed with
    | none => exact ⟨rfl, rfl⟩
    | some m => exact remote_message m s net
  | fifoOff net =>
    refine ⟨rfl, ?_⟩
    show ((turnOffTV s.lan net).events.map Effect.sock ++ broadcastStandby).filterMap powerEffect? = _
    rw [List.filterMap_append, powerEffects_sock]
    exact List.append_nil _
  | fifoOn net =>
    have hlan : ∀ s : Daemon, (setStreamPathToPlayback1 s).state.lan = s.lan := by
      intro s
      rw [setStreamPathToPlayback1]
      split <;> rfl
    refine ⟨hlan _, ?_⟩
    show ((turnOnTV s.lan net).events.map Effect.sock ++ _).filterMap powerEffect? = _
    rw [List.filterMap_append, powerEffects_sock, powerEffects_path]
    exact List.append_nil _

def remoteHalf : Projection daemon remote where
  view := Daemon.lan
  read := powerInput
  watch := powerEffect?
  next_view s e := (remote_step s e).1
  emit_watch s e := (remote_step s e).2

/-- Whatever addresses are known and reported and whatever else is asked on the bus: what is
said to the projector, the power status that is reported and the one that is cached follow
from the power commands and the questions for the status. -/
theorem projector_unaffected {s t : Daemon} (h : s.lan = t.lan) {es fs : List Event}
    (hread : es.filterMap powerInput = fs.filterMap powerInput) :
    (daemon.outputs s es).flatten.filterMap powerEffect? =
        (daemon.outputs t fs).flatten.filterMap powerEffect? ∧
      (daemon.run s es).lan = (daemon.run t fs).lan :=
  remoteHalf.unaffected h hread

theorem projector_unaffected_known :
    let s : Daemon := ⟨fun _ => some (some ⟨0x10, 0⟩), true, bootState []⟩
    let fs : List Event := [.callback (some (askedBy .eDVD1 opcodeGiveDeviceVendorID)) unreachable,
      .fifoOn answering]
    (daemon.outputs (boot (bootState [])) [.fifoOn answering]).flatten.filterMap powerEffect? =
        (daemon.outputs s fs).flatten.filterMap powerEffect? ∧
      (daemon.run (boot (bootState [])) [.fifoOn answering]).lan = (daemon.run s fs).lan :=
  projector_unaffected rfl rfl

theorem halves_cover (e : Effect) : (powerEffect? e).isSome = !(busCall? e).isSome := by
  rw [powerEffect?]
  split_ifs with h
  · rw [h]
    rfl
  · rw [Bool.eq_false_of_not_eq_true h]
    rfl

end CecFix.TwoHalves
