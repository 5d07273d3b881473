import CecFix.Daemon
import CecFix.ExchangeSteps
import CecFix.TracePath

/-!
# What the projector sees

The conversation the projector takes part in, as a protocol of its own: a connection is
made, it greets, it is asked, it acknowledges, it gets one command, and the connection
is closed. At each point where the projector does not do its part, the connection is
closed with nothing more sent. Every step of `sendCommand` follows the protocol, whoever
else takes steps in between; so do its retries, the handlers, and whole runs of the
daemon, in which one event is dealt with after the other and each exchange ends.
-/

namespace CecFix.WireProtocol
open Cec Lan

inductive Stage where
  | created
  | resolved
  | connected
  | greeted
  | requested
  | acknowledged
  | commanded
  | ended
  deriving DecidableEq

def Stage.MayClose : Stage → Prop
  | .created | .resolved | .connected | .ended => True
  | .greeted | .requested | .acknowledged | .commanded => False

inductive Wire where
  | closed
  | opened (sock : Int) (stage : Stage)

/-- A failed `socket` gives a negative descriptor, which is closed at once. -/
inductive Talks (host : Bytes) (codes : Set Bytes) : Wire → SockEvent → Wire → Prop
  | socket (sock : Int) : Talks host codes .closed (.socket sock) (.opened sock .created)
  | resolve {sock : Int} (h : 0 ≤ sock) :
      Talks host codes (.opened sock .created) (.inetPton host) (.opened sock .resolved)
  | connect (sock : Int) :
      Talks host codes (.opened sock .resolved) .connect (.opened sock .connected)
  | greeting {sock : Int} {r : ReadResult} (h : r.Says openGreeting) :
      Talks host codes (.opened sock .connected) (.read r) (.opened sock .greeted)
  | noGreeting {sock : Int} {r : ReadResult} (h : ¬ r.Says openGreeting) :
      Talks host codes (.opened sock .connected) (.read r) (.opened sock .ended)
  | request (sock : Int) :
      Talks host codes (.opened sock .greeted) (.send request) (.opened sock .requested)
  | ack {sock : Int} {r : ReadResult} (h : r.Says ack) :
      Talks host codes (.opened sock .requested) (.read r) (.opened sock .acknowledged)
  | noAck {sock : Int} {r : ReadResult} (h : ¬ r.Says ack) :
      Talks host codes (.opened sock .requested) (.read r) (.opened sock .ended)
  | command {sock : Int} {code : Bytes} (h : code ∈ codes) :
      Talks host codes (.opened sock .acknowledged) (.send code) (.opened sock .commanded)
  | answer (sock : Int) (r : ReadResult) :
      Talks host codes (.opened sock .commanded) (.read r) (.opened sock .ended)
  | close {sock : Int} {stage : Stage} (h : stage.MayClose) :
      Talks host codes (.opened sock stage) (.close sock) .closed

theorem Talks.mono {host : Bytes} {codes codes' : Set Bytes} (hcodes : codes ⊆ codes') {w w' : Wire}
    {e : SockEvent} (h : Talks host codes w e w') : Talks host codes' w e w' := by
  cases h with
  | socket sock => exact .socket sock
  | resolve h => exact .resolve h
  | connect sock => exact .connect sock
  | greeting h => exact .greeting h
  | noGreeting h => exact .noGreeting h
  | request sock => exact .request sock
  | ack h => exact .ack h
  | noAck h => exact .noAck h
  | command h => exact .command (hcodes h)
  | answer sock r => exact .answer sock r
  | close h => exact .close h

def Stands (sock : Int) (w : Wire) : Pc → Prop
  | .test | .mark | .create | .sleep | .clear | .done => w = .closed
  | .resolve => 0 ≤ sock ∧ w = .opened sock .created
  | .connect => w = .opened sock .resolved
  | .greet => w = .opened sock .connected
  | .sendRequest => w = .opened sock .greeted
  | .readAck => w = .opened sock .requested
  | .sendCode => w = .opened sock .acknowledged
  | .readAnswer => w = .opened sock .commanded
  | .close => ∃ stage : Stage, stage.MayClose ∧ w = .opened sock stage

theorem Stands.of_outside {sock : Int} {w : Wire} {pc : Pc} (hpc : ¬ pc.Holding)
    (h : Stands sock w pc) : w = .closed := by
  cases pc with
  | test => exact h
  | mark => exact h
  | done => exact h
  | _ => exact absurd (by decide) hpc

section Step
variable {j : Job} {codes : Set Bytes} {w : Wire} {c : Call}

theorem stands_leave {retCode : Int} {e : SockEvent} {stage : Stage}
    (h : Talks j.host codes w e (.opened j.script.sock stage)) (hclose : stage.MayClose) :
    ∃ es w', (c.leave retCode [e]).events = c.events ++ es ∧
      TracePath (Talks j.host codes) w es w' ∧
      Stands j.script.sock w' (c.leave retCode [e]).pc :=
  ⟨[e], _, rfl, .single h, stage, hclose, rfl⟩

theorem stands_goto {pc : Pc} {e : SockEvent} {w' : Wire} (h : Talks j.host codes w e w')
    (hpc : Stands j.script.sock w' pc) :
    ∃ es w', (c.goto pc [e]).events = c.events ++ es ∧
      TracePath (Talks j.host codes) w es w' ∧ Stands j.script.sock w' (c.goto pc [e]).pc :=
  ⟨[e], w', rfl, .single h, hpc⟩

theorem stands_silent {c' : Call} (hev : c'.events = c.events)
    (hpc : Stands j.script.sock w c'.pc) :
    ∃ es w', c'.events = c.events ++ es ∧ TracePath (Talks j.host codes) w es w' ∧
      Stands j.script.sock w' c'.pc :=
  ⟨[], w, by rw [hev, List.append_nil], .refl w, hpc⟩

theorem next_talks (hcode : j.code ∈ codes) (active : Bool) (h : Stands j.script.sock w c.pc) :
    ∃ es w', (c.next j active).events = c.events ++ es ∧
      TracePath (Talks j.host codes) w es w' ∧ Stands j.script.sock w' (c.next j active).pc := by
  cases hpc : c.pc with
  | test =>
    rw [hpc] at h
    obtain rfl : w = .closed := h
    cases active with
    | true => exact stands_silent (by simp [Call.next, hpc]) (by simp [Call.next, hpc, Stands])
    | false =>
      simp only [Call.next, hpc, Bool.false_eq_true, if_false]
      exact stands_silent (List.append_nil _) rfl
  | mark =>
    rw [hpc] at h
    obtain rfl : w = .closed := h
    simp only [Call.next, hpc]
    exact stands_silent (List.append_nil _) rfl
  | create =>
    rw [hpc] at h
    obtain rfl : w = .closed := h
    simp only [Call.next, hpc]
    split_ifs with hsock
    · exact stands_leave (.socket _) trivial
    · exact stands_goto (.socket _) ⟨Int.not_lt.mp hsock, rfl⟩
  | resolve =>
    rw [hpc] at h
    obtain ⟨hsock, rfl⟩ := h
    simp only [Call.next, hpc]
    split_ifs with hres
    · exact stands_leave (.resolve hsock) trivial
    · exact stands_goto (.resolve hsock) rfl
  | connect =>
    rw [hpc] at h
    obtain rfl : w = .opened j.script.sock .resolved := h
    simp only [Call.next, hpc]
    split_ifs with hcon
    · exact stands_leave (.connect _) trivial
    · exact stands_goto (.connect _) rfl
  | greet =>
    rw [hpc] at h
    obtain rfl : w = .opened j.script.sock .connected := h
    simp only [Call.next, hpc]
    cases hg : j.script.greeting with
    | failed => exact stands_leave (.noGreeting id) trivial
    | got g =>
      dsimp only
      split_ifs with hopen
      · exact stands_leave (.noGreeting fun hsay => hopen ((greeting_check g).mpr hsay)) trivial
      · exact stands_goto (.greeting ((greeting_check g).mp (not_not.mp hopen))) rfl
  | sendRequest =>
    rw [hpc] at h
    obtain rfl : w = .opened j.script.sock .greeted := h
    simp only [Call.next, hpc]
    exact stands_goto (.request _) rfl
  | readAck =>
    rw [hpc] at h
    obtain rfl : w = .opened j.script.sock .requested := h
    simp only [Call.next, hpc]
    cases ha : j.script.ackReply with
    | failed => exact stands_leave (.noAck id) trivial
    | got a =>
      dsimp only
      split_ifs with hack
      · exact stands_leave (.noAck fun hsay => hack ((ack_check a).mpr hsay)) trivial
      · exact stands_goto (.ack ((ack_check a).mp (not_not.mp hack))) rfl
  | sendCode =>
    rw [hpc] at h
    obtain rfl : w = .opened j.script.sock .acknowledged := h
    simp only [Call.next, hpc]
    exact stands_goto (.command hcode) rfl
  | readAnswer =>
    rw [hpc] at h
    obtain rfl : w = .opened j.script.sock .commanded := h
    simp only [Call.next, hpc]
    cases ha : j.script.answer with
    | failed => exact stands_leave (.answer _ _) trivial
    | got a => exact stands_leave (c := { c with response := _ }) (.answer _ _) trivial
  | close =>
    rw [hpc] at h
    obtain ⟨stage, hclose, rfl⟩ := h
    simp only [Call.next, hpc]
    exact stands_goto (.close hclose) rfl
  | sleep =>
    rw [hpc] at h
    obtain rfl : w = .closed := h
    simp only [Call.next, hpc]
    exact stands_silent (List.append_nil _) rfl
  | clear =>
    rw [hpc] at h
    obtain rfl : w = .closed := h
    simp only [Call.next, hpc]
    exact stands_silent (List.append_nil _) rfl
  | done =>
    rw [hpc] at h
    obtain rfl : w = .closed := h
    simp only [Call.next, hpc]
    exact ⟨[], .closed, (List.append_nil _).symm, .refl _, rfl⟩

end Step

section Calls
variable {codes : Set Bytes}

theorem iterate_talks {j : Job} (hcode : j.code ∈ codes) (n : ℕ) (active : Bool) {c : Call}
    {w : Wire} (h : Stands j.script.sock w c.pc) :
    let c' := ((Call.step j)^[n] (active, c)).2
    ∃ es w', c'.events = c.events ++ es ∧ TracePath (Talks j.host codes) w es w' ∧
      Stands j.script.sock w' c'.pc := by
  induction n generalizing active c w with
  | zero => exact ⟨[], w, (List.append_nil _).symm, .refl w, h⟩
  | succ n ih =>
    obtain ⟨es, w₁, hev, htalk, hnext⟩ := next_talks hcode active h
    obtain ⟨es', w₂, hev', htalk', hlast⟩ :=
      ih (Call.step j (active, c)).1 (c := c.next j active) hnext
    refine ⟨es ++ es', w₂, ?_, htalk.append htalk', hlast⟩
    rw [Function.iterate_succ_apply, ← List.append_assoc, ← hev]
    exact hev'

theorem sendCommand_talks {code : Bytes} (hcode : code ∈ codes) (active : Bool)
    (host response : Bytes) (script : SocketScript) :
    TracePath (Talks host codes) .closed (sendCommand active host code response script).events
      .closed := by
  have hrun := sendCommand_alone ⟨host, code, script⟩ active response [] 0
  obtain ⟨es, w, hev, htalk, hlast⟩ :=
    iterate_talks (j := ⟨host, code, script⟩) hcode (0 + 13) active
      (c := .start response []) (w := .closed) rfl
  rw [hrun, List.nil_append] at hev
  rw [hrun] at hlast
  obtain rfl : w = .closed := hlast
  obtain rfl : (sendCommand active host code response script).events = es := hev
  exact htalk

theorem retry_talks {code : Bytes} (hcode : code ∈ codes) (active : Bool) (host response : Bytes)
    (scripts : ℕ → SocketScript) :
    TracePath (Talks host codes) .closed
      (sendCommandWithRetry active host code response scripts).events .closed := by
  cases active with
  | true => exact .refl _
  | false =>
    obtain ⟨n, hn⟩ := retry_events host code response scripts
    rw [hn, attemptEvents]
    exact TracePath.flatMap fun j _ => sendCommand_talks hcode false host response (scripts j)

end Calls

structure Exchanges (host code : Bytes) (n : ℕ) (es : List SockEvent) : Prop where
  talks : TracePath (Talks host {code}) .closed es .closed
  opens : es.countP isSocket ≤ n

theorem Exchanges.nil (host code : Bytes) (n : ℕ) : Exchanges host code n [] :=
  ⟨.refl _, Nat.zero_le n⟩

def sends (code : Bytes) : SockEvent → Bool
  | .send b => b == code
  | _ => false

def Wire.due : Wire → ℕ
  | .closed => 0
  | .opened _ .commanded | .opened _ .ended => 0
  | .opened _ _ => 1

theorem sends_le_sockets {host code : Bytes} (hcode : code ≠ request) {w w' : Wire}
    {es : List SockEvent} (h : TracePath (Talks host {code}) w es w') :
    es.countP (sends code) + w'.due ≤ es.countP isSocket + w.due := by
  induction es generalizing w with
  | nil =>
    obtain rfl : w = w' := h
    exact le_rfl
  | cons e es ih =>
    obtain ⟨v, hstep, hrest⟩ := h
    have htail := ih hrest
    have hrequest : (request == code) = false := beq_eq_false_iff_ne.mpr (Ne.symm hcode)
    have hhead : (if sends code e then 1 else 0) + v.due ≤ (if isSocket e then 1 else 0) + w.due := by
      cases hstep with
      | request sock => simp [sends, hrequest, Wire.due]
      | command h => simp [sends, isSocket, Wire.due, Set.mem_singleton_iff.mp h]
      | _ => simp [sends, isSocket, Wire.due]
    rw [List.countP_cons, List.countP_cons]
    omega

theorem sends_other {host code b : Bytes} (hb : b ≠ request) (hbc : b ≠ code) {w w' : Wire}
    {es : List SockEvent} (h : TracePath (Talks host {code}) w es w') :
    es.countP (sends b) = 0 := by
  induction es generalizing w with
  | nil => rfl
  | cons e es ih =>
    obtain ⟨v, hstep, hrest⟩ := h
    have hhead : sends b e = false := by
      cases hstep with
      | request sock => exact beq_eq_false_iff_ne.mpr (Ne.symm hb)
      | command h => exact beq_eq_false_iff_ne.mpr fun heq => hbc (heq.symm.trans h)
      | _ => rfl
    rw [List.countP_cons, ih hrest, hhead]
    rfl

theorem Exchanges.sends_le {host code : Bytes} {n : ℕ} {es : List SockEvent}
    (h : Exchanges host code n es) (hcode : code ≠ request) : es.countP (sends code) ≤ n :=
  (sends_le_sockets hcode h.talks).trans h.opens

theorem commandHost_exchanges (code : Bytes) (s : LanState) (scripts : ℕ → SocketScript) :
    Exchanges s.host code maxRetryCount (commandHost code s scripts).events where
  talks := retry_talks (Set.mem_singleton code) s.hasActiveConnection s.host _ scripts
  opens := retry_opens s.host code _ scripts s.hasActiveConnection

theorem cached_exchanges (s : LanState) (now : Timespec) (scripts : ℕ → SocketScript) :
    Exchanges s.host queryPowerCommand (if s.Fresh now then 0 else maxRetryCount)
      (queryPowerStatusCached s now scripts).events := by
  by_cases hfresh : s.Fresh now
  · rw [cached_fresh hfresh]
    exact .nil ..
  · rw [cached_stale hfresh, if_neg hfresh]
    exact commandHost_exchanges queryPowerCommand s scripts

theorem cached_host (s : LanState) (now : Timespec) (scripts : ℕ → SocketScript) :
    (queryPowerStatusCached s now scripts).state.host = s.host := by
  by_cases hfresh : s.Fresh now
  · rw [cached_fresh hfresh]
  · rw [cached_stale hfresh]
    rfl

theorem sendPower_exchanges (code : Bytes) (s : LanState) (scripts : ℕ → SocketScript) :
    Exchanges s.host code maxRetryCount (sendPower code s scripts).events := by
  rw [sendPower_events]
  exact commandHost_exchanges code s scripts

theorem sendPower_host (code : Bytes) (s : LanState) (scripts : ℕ → SocketScript) :
    (sendPower code s scripts).state.host = s.host := by
  rw [sendPower]
  split_ifs
  · rfl
  · rfl

def sock? : Effect → Option SockEvent
  | .sock e => some e
  | .cec _ => none

def commandOf : Event → Option Bytes
  | .callback none _ => none
  | .callback (some m) _ =>
    if isImageViewOn m then some onCommand else if isTVOffCmd m then some offCommand else none
  | .fifoOff _ => some offCommand
  | .fifoOn _ => some onCommand

def Event.net : Event → TvInputs
  | .callback _ net => net
  | .fifoOff net => net
  | .fifoOn net => net

def asksStatus : Event → Bool
  | .callback none _ => false
  | .callback (some m) _ => isImageViewOn m || isTVOffCmd m || isRequestForPowerStatus m
  | .fifoOff _ => true
  | .fifoOn _ => true

def Queries (s : LanState) (e : Event) : Prop := asksStatus e = true ∧ ¬ s.Fresh (Event.net e).now

instance (s : LanState) (e : Event) : Decidable (Queries s e) := inferInstanceAs (Decidable (_ ∧ _))

/-- The connections made for one event: first those on which the status is asked for, if it
has to be, then those on which the event's own command is sent. -/
def Budgeted (s : LanState) (e : Event) (es : List SockEvent) : Prop :=
  ∃ asked sent, es = asked ++ sent ∧
    Exchanges s.host queryPowerCommand (if Queries s e then maxRetryCount else 0) asked ∧
    match commandOf e with
    | none => sent = []
    | some code => Exchanges s.host code maxRetryCount sent

theorem sock_events (es : List SockEvent) : (es.map Effect.sock).filterMap sock? = es := by
  rw [List.filterMap_map]
  exact List.filterMap_some

theorem turnTV_exchanges (test : Int → Bool) (code : Bytes) (s : LanState) (net : TvInputs) :
    let r := turnTV (statusIs test) (sendPower code) s net
    r.state.host = s.host ∧ ∃ asked sent, r.events = asked ++ sent ∧
      Exchanges s.host queryPowerCommand (if s.Fresh net.now then 0 else maxRetryCount) asked ∧
      Exchanges s.host code maxRetryCount sent := by
  have hask := cached_exchanges s net.now net.query
  have hhost := cached_host s net.now net.query
  rcases turnTV_cases test code s net with ⟨-, -, heq⟩ | ⟨-, heq⟩
  · rw [heq]
    exact ⟨hhost, _, [], (List.append_nil _).symm, hask, .nil ..⟩
  · rw [heq]
    refine ⟨(sendPower_host ..).trans hhost, _, _, rfl, hask, ?_⟩
    have hsent := sendPower_exchanges code (queryPowerStatusCached s net.now net.query).state
      net.command
    rw [hhost] at hsent
    exact hsent

theorem budget_eq {s : LanState} {e : Event} (hasks : asksStatus e = true) :
    (if Queries s e then maxRetryCount else 0) =
      if s.Fresh (Event.net e).now then 0 else maxRetryCount := by
  by_cases hfresh : s.Fresh (Event.net e).now
  · rw [if_pos hfresh, if_neg fun h => h.2 hfresh]
  · rw [if_neg hfresh, if_pos ⟨hasks, hfresh⟩]

section Handlers
variable {s : Daemon}

theorem turn_budgeted {test : Int → Bool} {code : Bytes} {e : Event} {a : Acted}
    {es : List Effect} (hasks : asksStatus e = true) (he : commandOf e = some code)
    (hstate : a.state.lan = (turnTV (statusIs test) (sendPower code) s.lan (Event.net e)).state)
    (heff : a.effects =
      (turnTV (statusIs test) (sendPower code) s.lan (Event.net e)).events.map .sock ++ es)
    (hes : es.filterMap sock? = []) :
    a.state.lan.host = s.lan.host ∧ Budgeted s.lan e (a.effects.filterMap sock?) := by
  obtain ⟨hhost, asked, sent, hev, hask, hsent⟩ := turnTV_exchanges test code s.lan (Event.net e)
  refine ⟨hstate ▸ hhost, asked, sent, ?_, ?_, ?_⟩
  · rw [heff, List.filterMap_append, hes, List.append_nil, sock_events]
    exact hev
  · rw [budget_eq hasks]
    exact hask
  · rw [he]
    exact hsent

theorem idle_budgeted {e : Event} (he : commandOf e = none) : Budgeted s.lan e [] :=
  ⟨[], [], rfl, .nil .., by rw [he]⟩

theorem reply_budgeted {m : VcCecMessage} {net : TvInputs} (hm : isRequestForPowerStatus m = true)
    (he : commandOf (.callback (some m) net) = none) :
    let a := replyWithPowerStatus m.initiator s net
    a.state.lan.host = s.lan.host ∧
      Budgeted s.lan (.callback (some m) net) (a.effects.filterMap sock?) := by
  obtain ⟨es, heff, hes⟩ := replyWithPowerStatus_effects m.initiator s net
  have hcec : es.filterMap sock? = [] := by
    rcases hes with rfl | ⟨status, rfl⟩
    · rfl
    · rfl
  refine ⟨?_, (isOn s.lan net.now net.query).events, [], ?_, ?_, ?_⟩
  · rw [replyWithPowerStatus_state]
    exact cached_host s.lan net.now net.query
  · rw [heff, List.filterMap_append, hcec, sock_events]
  · rw [budget_eq (by simp [asksStatus, hm])]
    exact cached_exchanges s.lan net.now net.query
  · rw [he]

variable (s) in
theorem handle_budgeted (e : Event) :
    (handle s e).state.lan.host = s.lan.host ∧
      Budgeted s.lan e ((handle s e).effects.filterMap sock?) := by
  cases e with
  | fifoOff net => exact turn_budgeted rfl rfl rfl rfl rfl
  | fifoOn net =>
    have hpath : (setStreamPathToPlayback1
        (s.withLan (turnOnTV s.lan net)).state).effects.filterMap sock? = [] := by
      rcases setStreamPathToPlayback1_effects (s.withLan (turnOnTV s.lan net)).state with
        h | h | ⟨a, h⟩
      · rw [h]; rfl
      · rw [h]; rfl
      · rw [h]; rfl
    have hlan : (systemActive s net).state.lan = (turnOnTV s.lan net).state := by
      simp only [systemActive, setStreamPathToPlayback1]
      split <;> rfl
    exact turn_budgeted rfl rfl hlan rfl hpath
  | callback parsed net =>
    cases parsed with
    | none => exact ⟨rfl, idle_budgeted rfl⟩
    | some m =>
      simp only [handle, handleCECCallback, handleMessage]
      split_ifs with himage hoff hvendor hpower hreport hname
      · exact turn_budgeted (by simp [asksStatus, himage]) (by simp [commandOf, himage]) rfl
          (List.append_nil _).symm rfl
      · exact turn_budgeted (by simp [asksStatus, hoff]) (by simp [commandOf, himage, hoff])
          rfl rfl rfl
      · exact ⟨rfl, idle_budgeted (by simp [commandOf, himage, hoff])⟩
      · exact reply_budgeted hpower (by simp [commandOf, himage, hoff])
      · rw [handleReport_state, handleReport_effects]
        have hcec : (if s.wantSetStreamPath then setStreamPath (reportedAddress m)
            else []).filterMap sock? = [] := by
          split_ifs <;> rfl
        rw [hcec]
        exact ⟨rfl, idle_budgeted (by simp [commandOf, himage, hoff])⟩
      · exact ⟨rfl, idle_budgeted (by simp [commandOf, himage, hoff])⟩
      · exact ⟨rfl, idle_budgeted (by simp [commandOf, himage, hoff])⟩

end Handlers

theorem commandOf_cases {e : Event} {code : Bytes} (h : commandOf e = some code) :
    code = onCommand ∨ code = offCommand := by
  cases e with
  | fifoOff net => exact Or.inr (Option.some.inj h).symm
  | fifoOn net => exact Or.inl (Option.some.inj h).symm
  | callback parsed net =>
    cases parsed with
    | none => cases h
    | some m =>
      simp only [commandOf] at h
      split_ifs at h
      · exact Or.inl (Option.some.inj h).symm
      · exact Or.inr (Option.some.inj h).symm

theorem Budgeted.talks {s : LanState} {e : Event} {es : List SockEvent} (h : Budgeted s e es) :
    TracePath (Talks s.host {onCommand, offCommand, queryPowerCommand}) .closed es .closed := by
  obtain ⟨asked, sent, rfl, hask, hsent⟩ := h
  have hasked : TracePath (Talks s.host {onCommand, offCommand, queryPowerCommand}) .closed asked
      .closed := hask.talks.mono fun _ _ _ => Talks.mono (by simp)
  apply hasked.append
  cases hcode : commandOf e with
  | none =>
    rw [hcode] at hsent
    exact hsent ▸ .refl _
  | some code =>
    rw [hcode] at hsent
    apply hsent.talks.mono fun _ _ _ => Talks.mono _
    rcases commandOf_cases hcode with rfl | rfl
    · simp
    · simp

/-- In every run each event costs the projector at most five connections for its status,
none while that is in the cache, and then at most five for the event's own command, to the
string in `HOST`; and nothing else is said to it. -/
theorem run_budgeted (host : Bytes) (es : List Event) :
    daemon.Along (fun s e => s.lan.host = host ∧
      Budgeted s.lan e ((daemon.emit s e).filterMap sock?)) (boot (bootState host)) es :=
  Transducer.Along.of_invariant (I := fun s => s.lan.host = host) (C := fun _ _ => True)
    (fun s e hs _ => ⟨⟨hs, (handle_budgeted s e).2⟩, (handle_budgeted s e).1.trans hs⟩) rfl
    (Transducer.along_of_forall (fun _ _ _ => trivial) _)

theorem sendNull_exchanges (s : LanState) (scripts : ℕ → SocketScript) :
    Exchanges s.host nullCommand maxRetryCount (sendNull s scripts).events := by
  have hnull := commandHost_exchanges nullCommand s scripts
  rw [sendNull]
  split_ifs
  · exact hnull
  · exact hnull

theorem sendNull_state (host : Bytes) (scripts : ℕ → SocketScript) :
    (sendNull (bootState host) scripts).state = bootState host := by
  have hstate : (commandHost nullCommand (bootState host) scripts).state = bootState host := by
    rcases firstAnswer_or_none scripts with ⟨i, c, h⟩ | hnone
    · rw [commandHost_answers rfl h]
    · exact (commandHost_unanswered rfl nullCommand hnone).2.1
  rw [sendNull]
  split_ifs
  · exact hstate
  · exact hstate

/-- From the null command of `initLAN` on, whatever events come one after the other and
however their exchanges end, the calls made on the sockets are a conversation as the
projector expects it: one connection at a time, no command before greeting and
acknowledgement, every connection closed. -/
theorem process_talks (host : Bytes) (scripts : ℕ → SocketScript) (es : List Event) :
    let r := sendNull (bootState host) scripts
    TracePath (Talks host {nullCommand}) .closed r.events .closed ∧
      TracePath (Talks host {onCommand, offCommand, queryPowerCommand}) .closed
        ((daemon.outputs (boot r.state) es).flatten.filterMap sock?) .closed := by
  refine ⟨(sendNull_exchanges (bootState host) scripts).talks, ?_⟩
  rw [sendNull_state]
  exact TracePath.outputs (I := fun s => s.lan.host = host)
    (fun s e hs => (handle_budgeted s e).1.trans hs)
    (fun s e hs => hs ▸ (handle_budgeted s e).2.talks) rfl es

end CecFix.WireProtocol
