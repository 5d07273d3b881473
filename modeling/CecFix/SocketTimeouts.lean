import CecFix.ConnectionExclusion
import CecFix.ConnectWithTimeout

/-!
# Timeouts of the socket

The steps of `sendCommand` with the two `setsockopt` calls between `socket` and
`inet_pton`, and with what these and `connect_with_timeout` do to the socket. Both
`setsockopt` calls pass an `int`, which is shorter than a `struct timeval`, and ignore
that they fail: the socket has no timeout. While no connection is made this does not
show, since `connect_with_timeout` waits in `poll` only; from the first connection on
the call waits for the projector as long as the projector likes, with
`has_active_connection` set.
-/

namespace CecFix.SocketTimeouts
open Lan Connect ConnectionExclusion

def sizeofInt : ℕ := 4
def sockTimeoutS : ℕ := 5

structure Target where
  longBits : ℕ
  timevalSize : ℕ
  larger : sizeofInt < timevalSize

/-- No timeout is none at all: the operation waits for ever. -/
structure Socket where
  flags : Flags
  sndTimeo : Option ℕ
  rcvTimeo : Option ℕ
  deriving DecidableEq

def Socket.fresh : Socket := ⟨freshFlags, none, none⟩

inductive Timeo where
  | snd
  | rcv

def Socket.setsockopt (t : Target) (s : Socket) (opt : Timeo) (seconds len : ℕ) : Socket :=
  if len < t.timevalSize then s
  else
    match opt with
    | .snd => { s with sndTimeo := some seconds }
    | .rcv => { s with rcvTimeo := some seconds }

def Socket.Blocking (s : Socket) : Prop := s.flags &&& oNonblock = 0

instance (s : Socket) : Decidable s.Blocking := inferInstanceAs (Decidable (_ = _))

structure TimedJob (t : Target) where
  job : Job
  connect : ConnectScript
  returns : (connectWithTimeout t.longBits sockTimeoutMs connect freshFlags).rc =
    some job.script.connectRet

inductive Setup where
  | snd
  | rcv
  | complete
  deriving DecidableEq

structure TimedCall where
  call : Call
  setup : Setup
  sock : Socket

variable {t : Target}

def TimedJob.connecting (j : TimedJob t) (sock : Socket) : Connecting :=
  connectWithTimeout t.longBits sockTimeoutMs j.connect sock.flags

def TimedCall.next (j : TimedJob t) (active : Bool) (c : TimedCall) : TimedCall :=
  match c.setup with
  | .snd => { c with setup := .rcv, sock := c.sock.setsockopt t .snd sockTimeoutS sizeofInt }
  | .rcv => { c with setup := .complete, sock := c.sock.setsockopt t .rcv sockTimeoutS sizeofInt }
  | .complete =>
    { call := c.call.next j.job active
      setup := if c.call.pc = .create ∧ 0 ≤ j.job.script.sock then .snd else .complete
      sock :=
        match c.call.pc with
        | .create => .fresh
        | .connect => { c.sock with flags := (j.connecting c.sock).flags }
        | _ => c.sock }

def TimedCall.step (j : TimedJob t) (s : Bool × TimedCall) : Bool × TimedCall :=
  (if s.2.setup = .complete then s.2.call.pc.activeAfter s.1 else s.1, s.2.next j s.1)

variable {κ : Type*}

abbrev TimedCalls (κ : Type*) := Interleaving Bool (fun _ : κ => TimedCall)

def timed [DecidableEq κ] (jobs : κ → TimedJob t) : Transducer (TimedCalls κ) κ Empty :=
  Interleaving.machine fun k => TimedCall.step (jobs k)

def timedStart (responses : κ → Bytes) : TimedCalls κ :=
  ⟨false, fun k => ⟨.start (responses k) [], .complete, .fresh⟩⟩

def untimed (s : TimedCalls κ) : Calls κ := ⟨s.shared, fun k => (s.locals k).call⟩

theorem untimed_next [DecidableEq κ] (jobs : κ → TimedJob t) (s : TimedCalls κ) (k : κ) :
    untimed ((timed jobs).next s k) =
      if (s.locals k).setup = .complete then
        (sendCommands fun k => (jobs k).job).next (untimed s) k
      else untimed s := by
  have hother : ∀ j, j ≠ k → (((timed jobs).next s k).locals j).call = (s.locals j).call := by
    intro j hj
    rw [timed, Interleaving.next_other s hj]
  have hself : ((timed jobs).next s k).locals k = (s.locals k).next (jobs k) s.shared :=
    Interleaving.next_self s k
  cases hsetup : (s.locals k).setup with
  | complete =>
    rw [if_pos rfl]
    refine congrArg₂ Interleaving.mk ?_ ?_
    · simp [timed, TimedCall.step, hsetup, untimed, Call.step]
    · funext j
      by_cases hj : j = k
      · subst hj
        rw [hself, TimedCall.next, hsetup, Function.update_self]
        rfl
      · rw [hother j hj, Function.update_of_ne hj]
        rfl
  | _ =>
    rw [if_neg (by decide)]
    refine congrArg₂ Interleaving.mk ?_ ?_
    · simp [timed, TimedCall.step, hsetup]
    · funext j
      by_cases hj : j = k
      · subst hj
        rw [hself, TimedCall.next, hsetup]
      · exact hother j hj

theorem untimed_run [DecidableEq κ] (jobs : κ → TimedJob t) (s : TimedCalls κ) (ks : List κ) :
    ∃ ks', untimed ((timed jobs).run s ks) =
      (sendCommands fun k => (jobs k).job).run (untimed s) ks' := by
  induction ks generalizing s with
  | nil => exact ⟨[], rfl⟩
  | cons k ks ih =>
    obtain ⟨ks', h⟩ := ih ((timed jobs).next s k)
    rw [untimed_next] at h
    split_ifs at h with hsetup
    · exact ⟨k :: ks', h⟩
    · exact ⟨ks', h⟩

def waitsForPeer : Pc → Bool
  | .greet | .sendRequest | .readAck | .sendCode | .readAnswer => true
  | _ => false

def Issued (c : TimedCall) : Prop :=
  c.setup = .complete → waitsForPeer c.call.pc = true → c.sock.Blocking →
    c.sock.sndTimeo = some sockTimeoutS ∧ c.sock.rcvTimeo = some sockTimeoutS

/-- What the call is about to do, or waits in, comes to an end by itself: `connect` does
not wait at all, and no `poll` waits without a bound. -/
def Bounded (j : TimedJob t) (c : TimedCall) : Prop :=
  c.setup = .complete →
    match c.call.pc with
    | .greet | .readAck | .readAnswer => c.sock.Blocking → c.sock.rcvTimeo ≠ none
    | .sendRequest | .sendCode => c.sock.Blocking → c.sock.sndTimeo ≠ none
    | .connect => setfl c.sock.flags oNonblock &&& oNonblock ≠ 0 ∧
        ∀ p ∈ (j.connecting c.sock).asked, 0 ≤ p.2
    | _ => True

structure Wedgeless (jobs : κ → TimedJob t) (s : TimedCalls κ) : Prop where
  issued : ∀ k, Issued (s.locals k)
  bounded : s.shared = true → ∀ k, (s.locals k).call.pc.Holding → Bounded (jobs k) (s.locals k)

def Unconnected (jobs : κ → TimedJob t) (s : TimedCalls κ) (k : κ) : Prop :=
  (s.locals k).setup = .complete → (s.locals k).call.pc = .connect →
    (jobs k).job.script.connectRet < 1

theorem setsockopt_int (t : Target) (s : Socket) (opt : Timeo) (seconds : ℕ) :
    s.setsockopt t opt seconds sizeofInt = s := if_pos t.larger

structure Unguarded (c : TimedCall) : Prop where
  setup : c.setup ≠ .complete → c.call.pc = .resolve
  snd : c.sock.sndTimeo = none
  rcv : c.sock.rcvTimeo = none
  fresh : c.call.pc = .resolve ∨ c.call.pc = .connect → c.sock.flags = freshFlags

def follows : Pc → List Pc
  | .test => [.mark, .done]
  | .mark => [.create]
  | .create => [.resolve, .close]
  | .resolve => [.connect, .close]
  | .connect => [.greet, .close]
  | .greet => [.sendRequest, .close]
  | .sendRequest => [.readAck]
  | .readAck => [.sendCode, .close]
  | .sendCode => [.readAnswer]
  | .readAnswer => [.close]
  | .close => [.sleep]
  | .sleep => [.clear]
  | .clear => [.done]
  | .done => [.done]

theorem follows_resolve {pc : Pc} (h : .resolve ∈ follows pc) : pc = .create := by
  revert h
  cases pc <;> decide

theorem follows_connect {pc : Pc} (h : .connect ∈ follows pc) : pc = .resolve := by
  revert h
  cases pc <;> decide

theorem follows_waits {pc q : Pc} (h : q ∈ follows pc) (hpc : waitsForPeer pc = false)
    (hcon : pc ≠ .connect) : waitsForPeer q = false := by
  revert q
  cases pc with
  | connect => exact absurd rfl hcon
  | greet | sendRequest | readAck | sendCode | readAnswer => cases hpc
  | _ => decide

theorem next_follows (j : Job) (active : Bool) (c : Call) :
    (c.next j active).pc ∈ follows c.pc := by
  cases hpc : c.pc
  all_goals simp only [Call.next, hpc]
  all_goals repeat' split
  all_goals simp [follows, Call.goto, Call.leave]

theorem next_sock (j : TimedJob t) (active : Bool) {c : TimedCall} (h : c.setup = .complete) :
    (c.call.pc = .create ∧ (c.next j active).sock = .fresh) ∨
      (c.call.pc = .connect ∧
        (c.next j active).sock = { c.sock with flags := (j.connecting c.sock).flags }) ∨
      (c.call.pc ≠ .create ∧ c.call.pc ≠ .connect ∧ (c.next j active).sock = c.sock) := by
  simp only [TimedCall.next, h]
  cases c.call.pc with
  | create => exact Or.inl ⟨rfl, rfl⟩
  | connect => exact Or.inr (Or.inl ⟨rfl, rfl⟩)
  | _ => exact Or.inr (Or.inr ⟨nofun, nofun, rfl⟩)

theorem timeo_next (j : TimedJob t) (active : Bool) {c : TimedCall} (h : Unguarded c)
    (hsetup : c.setup = .complete) :
    (c.next j active).sock.sndTimeo = none ∧ (c.next j active).sock.rcvTimeo = none := by
  rcases next_sock j active hsetup with ⟨-, hs⟩ | ⟨-, hs⟩ | ⟨-, -, hs⟩
  · rw [hs]
    exact ⟨rfl, rfl⟩
  · rw [hs]
    exact ⟨h.snd, h.rcv⟩
  · rw [hs]
    exact ⟨h.snd, h.rcv⟩

theorem unguarded_next (j : TimedJob t) (active : Bool) {c : TimedCall} (h : Unguarded c) :
    Unguarded (c.next j active) := by
  cases hsetup : c.setup with
  | snd =>
    have hpc : c.call.pc = .resolve := h.setup (by rw [hsetup]; simp)
    simp only [TimedCall.next, hsetup, setsockopt_int]
    exact ⟨fun _ => hpc, h.snd, h.rcv, h.fresh⟩
  | rcv =>
    simp only [TimedCall.next, hsetup, setsockopt_int]
    exact ⟨fun hne => absurd rfl hne, h.snd, h.rcv, h.fresh⟩
  | complete =>
    have hcall : (c.next j active).call = c.call.next j.job active := by
      simp only [TimedCall.next, hsetup]
    obtain ⟨hsnd, hrcv⟩ := timeo_next j active h hsetup
    refine ⟨fun hne => ?_, hsnd, hrcv, fun hpc => ?_⟩
    · by_cases hopen : c.call.pc = .create ∧ 0 ≤ j.job.script.sock
      · simp [hcall, Call.next, hopen.1, not_lt.mpr hopen.2, Call.goto]
      · refine absurd ?_ hne
        simp only [TimedCall.next, hsetup]
        exact if_neg hopen
    · -- such a call comes from `socket`, or from `inet_pton` with the socket as it was
      have hfrom : c.call.pc = .create ∨ c.call.pc = .resolve := by
        have hfollows := next_follows j.job active c.call
        rw [← hcall] at hfollows
        rcases hpc with hpc | hpc
        · exact Or.inl (follows_resolve (hpc ▸ hfollows))
        · exact Or.inr (follows_connect (hpc ▸ hfollows))
      rcases next_sock j active hsetup with ⟨-, hs⟩ | ⟨hcon, -⟩ | ⟨hcr, -, hs⟩
      · rw [hs]
        rfl
      · rw [hcon] at hfrom
        rcases hfrom with hfrom | hfrom <;> cases hfrom
      · rw [hs]
        exact h.fresh (Or.inl (hfrom.resolve_left hcr))

theorem waits_next {j : TimedJob t} {active : Bool} {c : TimedCall}
    (hquiet : waitsForPeer c.call.pc = false)
    (hcon : c.setup = .complete → c.call.pc = .connect → j.job.script.connectRet < 1) :
    waitsForPeer (c.next j active).call.pc = false := by
  cases hsetup : c.setup with
  | complete =>
    simp only [TimedCall.next, hsetup]
    by_cases hpc : c.call.pc = .connect
    · simp [Call.next, hpc, hcon hsetup hpc, Call.leave, waitsForPeer]
    · exact follows_waits (next_follows j.job active c.call) hquiet hpc
  | _ => simpa only [TimedCall.next, hsetup] using hquiet

theorem wedged_next {j : TimedJob t} {active : Bool} {c : TimedCall} (h : Unguarded c)
    (hsetup : c.setup = .complete) (hpc : c.call.pc = .connect)
    (hcon : 1 ≤ j.job.script.connectRet) : ¬ Issued (c.next j active) := by
  intro hissued
  have hblocking : (j.connecting c.sock).flags &&& oNonblock = 0 := by
    rw [TimedJob.connecting, h.fresh (Or.inr hpc)]
    exact connect_blocking j.returns hcon
  have hnext : c.next j active = ⟨c.call.goto .greet [.connect], .complete,
      { c.sock with flags := (j.connecting c.sock).flags }⟩ := by
    simp [TimedCall.next, hsetup, hpc, Call.next, not_lt.mpr hcon]
  rw [hnext] at hissued
  have hsnd := (hissued rfl rfl hblocking).1
  rw [h.snd] at hsnd
  cases hsnd

structure Waitless (s : TimedCalls κ) : Prop where
  unguarded : ∀ k, Unguarded (s.locals k)
  quiet : ∀ k, waitsForPeer (s.locals k).call.pc = false

theorem Waitless.wedgeless {s : TimedCalls κ} (h : Waitless s) (jobs : κ → TimedJob t) :
    Wedgeless jobs s where
  issued k _ hwaits := by
    rw [h.quiet k] at hwaits
    cases hwaits
  bounded _ k _ _ := by
    have hquiet := h.quiet k
    cases hpc : (s.locals k).call.pc with
    | connect =>
      refine ⟨?_, connect_asked _ _ _ _⟩
      rw [setfl_nonblock]
      decide
    | greet | sendRequest | readAck | sendCode | readAnswer =>
      rw [hpc] at hquiet
      cases hquiet
    | _ => trivial

theorem waitless_start (responses : κ → Bytes) : Waitless (timedStart responses) where
  unguarded _ :=
    { setup := fun h => absurd rfl h
      snd := rfl
      rcv := rfl
      fresh := fun _ => rfl }
  quiet _ := rfl

theorem waitless_next [DecidableEq κ] {jobs : κ → TimedJob t} (s : TimedCalls κ) (k : κ)
    (h : Waitless s) (hcon : Unconnected jobs s k) : Waitless ((timed jobs).next s k) where
  unguarded := Interleaving.next_locals (fun _ => Unguarded)
    (unguarded_next (jobs k) s.shared (h.unguarded k)) fun j _ => h.unguarded j
  quiet := Interleaving.next_locals (fun _ (c : TimedCall) => waitsForPeer c.call.pc = false)
    (waits_next (h.quiet k) hcon) fun j _ => h.quiet j

/-- Nobody waits without a timeout exactly as long as nobody gets a connection. -/
theorem wedgeless_iff_unconnected [DecidableEq κ] (jobs : κ → TimedJob t)
    (responses : κ → Bytes) (ks : List κ) :
    (timed jobs).Throughout (Wedgeless jobs) (timedStart responses) ks ↔
      (timed jobs).Along (Unconnected jobs) (timedStart responses) ks := by
  apply Transducer.throughout_iff_along waitless_next (fun s h => h.wedgeless jobs)
  · intro s k h hcon hwedgeless
    simp only [Unconnected, not_forall, not_lt] at hcon
    obtain ⟨hsetup, hpc, hcon⟩ := hcon
    have hissued := hwedgeless.issued k
    rw [timed, Interleaving.next_self] at hissued
    exact wedged_next (h.unguarded k) hsetup hpc hcon hissued
  · exact waitless_start responses

def raspberryPi : Target := ⟨32, 8, by decide⟩

def connects : TimedJob raspberryPi where
  job := standbyJob
  connect := waiting [⟨some ⟨0, 0⟩, .ready 0 true⟩]
  returns := by decide

theorem waits_for_greeting :
    ¬ (timed fun _ : Unit => connects).Throughout (Wedgeless fun _ => connects)
      (timedStart fun _ => []) (List.replicate 7 ()) := by
  intro h
  have hbounded := (Transducer.throughout_last h).bounded rfl () (by decide)
  exact hbounded rfl (by decide) rfl

end CecFix.SocketTimeouts
