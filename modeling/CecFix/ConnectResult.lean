import CecFix.ConnectWithTimeout

/-!
# What `sendCommand` makes of the result of `connect_with_timeout`

`sendCommand` takes a result below 1 for a failure and -7 for a timeout. A `connect`
that is done at once comes back as 0, the deadline as -1, and a `getsockopt` that fails
as 1. How a run ends is told apart here from what is returned for it, so that the two
can be compared; whether the socket is connected when the call returns is known only as
far as the last answer of the system says so.
-/

namespace CecFix.Connect
open Lan

inductive Ending where
  | atOnce
  | refused (errno : Int)
  | noClock
  | expired
  | pollFailed (errno : Int)
  | told (pending : Int)
  | untold
  deriving DecidableEq

def PollOutcome.ending : PollOutcome → Ending
  | .timedOut => .expired
  | .failed errno => .pollFailed errno
  | .ready pending true => .told pending
  | .ready _ false => .untold

def waitEnding (w : ℕ) (deadline : Timespec) : List Round → Option Ending
  | [] => none
  | r :: rs =>
    match r.clock with
    | none => some .noClock
    | some now =>
      if msUntilDeadline w deadline now < 0 then some .expired
      else if Interrupted r.poll then waitEnding w deadline rs
      else some r.poll.ending

def ConnectScript.ending (w timeoutMs : ℕ) (s : ConnectScript) : Option Ending :=
  match s.connect with
  | .atOnce => some .atOnce
  | .failed errno =>
    if errno ≠ eWouldBlock ∧ errno ≠ eInProgress then some (.refused errno)
    else
      match s.start with
      | none => some .noClock
      | some now => waitEnding w (deadlineAfter w timeoutMs now) s.rounds

def Ending.rc : Ending → Int
  | .atOnce => 0
  | .told pending => if pending = 0 then 1 else -1
  | .untold => 1
  | _ => -1

inductive ConnectError where
  | timedOut
  | notEstablished
  deriving DecidableEq

def connectError (connectRet : Int) : Option ConnectError :=
  if connectRet < 1 then
    if connectRet = -7 then some .timedOut else some .notEstablished
  else none

def SocketScript.withConnect (s : SocketScript) (connectRet : Int) : SocketScript :=
  { s with connectRet := connectRet }

structure Agrees (host code response : Bytes) (s : SocketScript) (connectRet : Int) (e : Ending)
    (connected : Bool) : Prop where
  greets : (∃ r, .read r ∈
    (sendCommand false host code response (SocketScript.withConnect s connectRet)).events) ↔
      connected = true
  timeout : connectError connectRet = some .timedOut ↔ e = .expired

/-- The last answer of the system is true; where there is none, the socket may have been
connected or not by the time of the return. -/
def Ending.Shows (connected : Bool) : Ending → Prop
  | .atOnce => connected = true
  | .refused _ => connected = false
  | .told pending => connected = true ↔ pending = 0
  | _ => True

/-- The answer was not given at once, it came before the deadline, and where it did not
come at all the socket is as the code takes it to be. -/
def Ending.WellReported (connected : Bool) : Ending → Prop
  | .atOnce | .expired => False
  | .refused _ | .told _ => True
  | .untold => connected = true
  | .noClock | .pollFailed _ => connected = false

theorem polled_ending (p : PollOutcome) :
    (if (polled p).1 = 0 then -1 else (polled p).1) = p.ending.rc := by
  cases p with
  | timedOut => rfl
  | failed errno => rfl
  | ready pending getsockopt =>
    cases getsockopt with
    | false => rfl
    | true =>
      by_cases hp : pending = 0
      · simp [polled, PollOutcome.ending, Ending.rc, hp]
      · simp [polled, PollOutcome.ending, Ending.rc, hp]

theorem pollLoop_rc (w : ℕ) (deadline : Timespec) (rs : List Round) :
    ((pollLoop w deadline rs).rc.map fun rc => if rc = 0 then -1 else rc) =
      (waitEnding w deadline rs).map Ending.rc := by
  induction rs with
  | nil => rfl
  | cons r rs ih =>
    rw [waitEnding]
    rcases pollLoop_cases w deadline r rs with
      ⟨hr, h⟩ | ⟨now, hr, ⟨hms, h⟩ | ⟨hms, hint, h⟩ | ⟨hms, hint, h⟩⟩
    · rw [h, hr]
      rfl
    · rw [h, hr]
      dsimp only
      rw [if_pos hms]
      rfl
    · rw [h, hr]
      dsimp only
      rw [if_neg (not_lt.mpr hms), if_pos hint]
      exact ih
    · rw [h, hr]
      dsimp only
      rw [if_neg (not_lt.mpr hms), if_neg hint]
      exact congrArg some (polled_ending r.poll)

theorem establish_rc (w timeoutMs : ℕ) (s : ConnectScript) :
    (establish w timeoutMs s).rc = (s.ending w timeoutMs).map Ending.rc := by
  unfold establish ConnectScript.ending
  cases s.connect with
  | atOnce => rfl
  | failed errno =>
    dsimp only
    split_ifs
    · rfl
    · cases s.start with
      | none => rfl
      | some now => exact pollLoop_rc w _ s.rounds

theorem greetingStage_reads (code response : Bytes) (s : SocketScript) :
    .read s.greeting ∈ (greetingStage code response s).events := by
  unfold greetingStage
  cases s.greeting with
  | failed => exact List.mem_singleton.mpr rfl
  | got c =>
    dsimp only
    split_ifs
    · exact List.mem_singleton.mpr rfl
    · exact List.mem_cons_self

theorem greets_iff {s : SocketScript} (hsock : 0 ≤ s.sock) (hres : 1 ≤ s.inetPton)
    {connectRet : Int} {host code response : Bytes} :
    (∃ r, .read r ∈
      (sendCommand false host code response (SocketScript.withConnect s connectRet)).events) ↔
        1 ≤ connectRet := by
  have hsock' : ¬ (SocketScript.withConnect s connectRet).sock < 0 := not_lt.mpr hsock
  have hres' : ¬ (SocketScript.withConnect s connectRet).inetPton < 1 := not_lt.mpr hres
  simp only [sendCommand, Bool.false_eq_true, if_false, exchange, if_neg hsock', if_neg hres']
  by_cases hcon : (SocketScript.withConnect s connectRet).connectRet < 1
  · rw [if_pos hcon]
    refine iff_of_false ?_ (not_le.mpr hcon)
    simp
  · rw [if_neg hcon]
    refine iff_of_true ⟨s.greeting, ?_⟩ (not_lt.mp hcon)
    have hread := greetingStage_reads code response (SocketScript.withConnect s connectRet)
    exact List.mem_append_left _ (List.mem_append_right _ hread)

/-- -7 is never returned, so that no run is logged as a timeout. -/
theorem connectError_rc (e : Ending) : connectError e.rc ≠ some .timedOut := by
  cases e with
  | told pending =>
    rw [Ending.rc]
    split_ifs
    · decide
    · decide
  | _ => exact by simp [connectError, Ending.rc]

theorem agrees_iff {s : SocketScript} (hsock : 0 ≤ s.sock) (hres : 1 ≤ s.inetPton)
    {host code response : Bytes} {e : Ending} {connected : Bool} (h : e.Shows connected) :
    Agrees host code response s e.rc e connected ↔ e.WellReported connected := by
  have hagrees : Agrees host code response s e.rc e connected ↔
      (1 ≤ e.rc ↔ connected = true) ∧ e ≠ .expired := by
    have htimeout := connectError_rc e
    refine ⟨fun ha => ⟨(greets_iff hsock hres).symm.trans ha.greets, fun he => ?_⟩, fun ha => ?_⟩
    · exact htimeout (ha.timeout.mpr he)
    · exact ⟨(greets_iff hsock hres).trans ha.1, iff_of_false htimeout ha.2⟩
  rw [hagrees]
  cases e with
  | told pending =>
    have hrc : 1 ≤ (Ending.told pending).rc ↔ pending = 0 := by
      rw [Ending.rc]
      split_ifs with hp <;> simp [hp]
    exact iff_of_true ⟨hrc.trans (Iff.symm h), nofun⟩ trivial
  | _ => simp_all [Ending.Shows, Ending.rc, Ending.WellReported]

/-- `sendCommand` and `connect_with_timeout` agree on the runs whose ending is well
reported, and on no others. -/
theorem connect_agrees_iff (w timeoutMs : ℕ) (c : ConnectScript) (flags : Flags)
    (hfcntl : c.FcntlWorks) {e : Ending} (he : c.ending w timeoutMs = some e)
    {connected : Bool} (hshows : e.Shows connected) {s : SocketScript} (hsock : 0 ≤ s.sock)
    (hres : 1 ≤ s.inetPton) (host code response : Bytes) :
    ∃ connectRet, (connectWithTimeout w timeoutMs c flags).rc = some connectRet ∧
      (Agrees host code response s connectRet e connected ↔ e.WellReported connected) := by
  refine ⟨e.rc, ?_, agrees_iff hsock hres hshows⟩
  rw [connect_rc hfcntl, establish_rc, he]
  rfl

theorem agrees_after_interruption :
    ∃ connectRet, (connectWithTimeout 64 sockTimeoutMs (waiting
        [⟨some ⟨0, 0⟩, .failed eIntr⟩, ⟨some ⟨1, 0⟩, .ready 0 true⟩]) freshFlags).rc =
          some connectRet ∧
      Agrees [] onCommand [] (greetingScript .failed) connectRet (.told 0) true := by
  obtain ⟨connectRet, hrc, hagrees⟩ := connect_agrees_iff 64 sockTimeoutMs (waiting
    [⟨some ⟨0, 0⟩, .failed eIntr⟩, ⟨some ⟨1, 0⟩, .ready 0 true⟩]) freshFlags ⟨rfl, le_rfl, le_rfl⟩
    (e := .told 0) (by decide) (iff_of_true rfl rfl : Ending.Shows true (.told 0))
    (s := greetingScript .failed) (by decide) (by decide) [] onCommand []
  exact ⟨connectRet, hrc, hagrees.mpr trivial⟩

theorem at_once_and_expired :
    let done : ConnectScript := { waiting [] with connect := .atOnce }
    let late := waiting [⟨some ⟨0, 0⟩, .timedOut⟩]
    (connectWithTimeout 64 sockTimeoutMs done freshFlags).rc = some 0 ∧
      ¬ Agrees [] onCommand [] (greetingScript .failed) 0 .atOnce true ∧
      (connectWithTimeout 64 sockTimeoutMs late freshFlags).rc = some (-1) ∧
      ¬ Agrees [] onCommand [] (greetingScript .failed) (-1) .expired false := by
  refine ⟨rfl, fun h => ?_, by decide, fun h => ?_⟩
  · have hgreets := (greets_iff (by decide) (by decide)).mp (h.greets.mpr rfl)
    exact absurd hgreets (by decide)
  · exact absurd (h.timeout.mpr rfl) (by decide)

end CecFix.Connect
