import CecFix.PowerStatus

/-!
# `connect_with_timeout`

The function of `socket_with_timeout.h` over the results of its system calls. It makes
the socket non-blocking, calls `connect`, and waits for the outcome in a loop of
`poll`s, which an interruption sends round again; each round has its own reading of the
clock. A list of rounds that comes to its end before the loop does is a run that is not
over.

`long` and `time_t` have `w` bits, and what does not fit is wrapped. The deadline is
not normalised.
-/

namespace CecFix.Connect
open Lan

def sockTimeoutMs : ℕ := 5000

def eIntr : Int := 4
def eWouldBlock : Int := 11
def eInProgress : Int := 115

abbrev Flags := BitVec 32

def oNonblock : Flags := 0x800

/-- Of a new socket: `O_RDWR`. -/
def freshFlags : Flags := 2

/-- `O_APPEND`, `O_NONBLOCK`, `O_ASYNC`, `O_DIRECT` and `O_NOATIME`, which `F_SETFL` sets;
it leaves all others as they are. -/
def settable : Flags := 0x400 ||| 0x800 ||| 0x2000 ||| 0x10000 ||| 0x40000

def setfl (flags arg : Flags) : Flags := (flags &&& ~~~settable) ||| (arg &&& settable)

theorem setfl_nonblock (flags arg : Flags) :
    setfl flags arg &&& oNonblock = arg &&& oNonblock := by
  have hkept : ~~~settable &&& oNonblock = 0 := by decide
  have hset : settable &&& oNonblock = oNonblock := by decide
  calc setfl flags arg &&& oNonblock
      = (flags &&& (~~~settable &&& oNonblock)) ||| (arg &&& (settable &&& oNonblock)) := by
        rw [setfl, BitVec.and_or_distrib_right, BitVec.and_assoc, BitVec.and_assoc]
    _ = arg &&& oNonblock := by simp [hkept, hset]

inductive ConnectOutcome where
  | atOnce
  | failed (errno : Int)

/-- Of a descriptor that is ready: the error that is pending on it, and whether
`getsockopt` gets to say so. -/
inductive PollOutcome where
  | timedOut
  | failed (errno : Int)
  | ready (pending : Int) (getsockopt : Bool)

structure Round where
  clock : Option Timespec
  poll : PollOutcome

structure ConnectScript where
  getfl : Bool
  setNonblock : Int
  connect : ConnectOutcome
  start : Option Timespec
  rounds : List Round
  restore : Int

def waiting (rounds : List Round) : ConnectScript where
  getfl := true
  setNonblock := 0
  connect := .failed eInProgress
  start := some ⟨0, 0⟩
  rounds := rounds
  restore := 0

def toLong (w : ℕ) (x : Int) : Int := x.bmod (2 ^ w)

def deadlineAfter (w timeoutMs : ℕ) (now : Timespec) : Timespec :=
  ⟨now.tvSec, toLong w (now.tvNsec + timeoutMs * 1000000)⟩

def msUntilDeadline (w : ℕ) (deadline now : Timespec) : Int :=
  toInt32 (toLong w (toLong w (toLong w (deadline.tvSec - now.tvSec) * 1000) +
    (toLong w (deadline.tvNsec - now.tvNsec)).tdiv 1000000))

def polled : PollOutcome → Int × Int
  | .timedOut => (0, 0)
  | .failed errno => (-1, errno)
  | .ready pending getsockopt =>
    let error := if getsockopt then pending else 0
    if error ≠ 0 then (-1, error) else (1, 0)

/-- What `rc` is behind the loop, and what each `poll` was asked to wait, with the
reading it was asked at. -/
structure Waited where
  rc : Option Int
  asked : List (Timespec × Int)

def Waited.after (now : Timespec) (ms : Int) (x : Waited) : Waited :=
  { x with asked := (now, ms) :: x.asked }

def pollLoop (w : ℕ) (deadline : Timespec) : List Round → Waited
  | [] => ⟨none, []⟩
  | r :: rs =>
    match r.clock with
    | none => ⟨some (-1), []⟩
    | some now =>
      let ms := msUntilDeadline w deadline now
      if ms < 0 then ⟨some 0, []⟩
      else
        let (rc, errno) := polled r.poll
        if rc = -1 ∧ errno = eIntr then (pollLoop w deadline rs).after now ms
        else ⟨some rc, [(now, ms)]⟩

/-- The outer `do { ... } while(0)`. -/
def establish (w timeoutMs : ℕ) (s : ConnectScript) : Waited :=
  match s.connect with
  | .atOnce => ⟨some 0, []⟩
  | .failed errno =>
    if errno ≠ eWouldBlock ∧ errno ≠ eInProgress then ⟨some (-1), []⟩
    else
      match s.start with
      | none => ⟨some (-1), []⟩
      | some now =>
        let x := pollLoop w (deadlineAfter w timeoutMs now) s.rounds
        { x with rc := x.rc.map fun rc => if rc = 0 then -1 else rc }

structure Connecting where
  rc : Option Int
  flags : Flags
  asked : List (Timespec × Int)

def finish (restore : Int) (flagsBefore flags : Flags) (x : Waited) : Connecting :=
  match x.rc with
  | none => ⟨none, flags, x.asked⟩
  | some rc =>
    if restore < 0 then ⟨some (-1), flags, x.asked⟩
    else ⟨some rc, setfl flags flagsBefore, x.asked⟩

def connectWithTimeout (w timeoutMs : ℕ) (s : ConnectScript) (flags : Flags) : Connecting :=
  let got : Int := if s.getfl then flags.toNat else -1
  -- the comparison is made first, its result is what is stored
  let flagsBefore : Flags := if got < 0 then 1 else 0
  if flagsBefore ≠ 0 then ⟨some (-9), flags, []⟩
  else if s.setNonblock < 0 then ⟨some (-9), flags, []⟩
  else
    finish s.restore flagsBefore (setfl flags (flagsBefore ||| oNonblock))
      (establish w timeoutMs s)

def Interrupted (p : PollOutcome) : Prop := polled p = (-1, eIntr)

instance (p : PollOutcome) : Decidable (Interrupted p) :=
  inferInstanceAs (Decidable (polled p = (-1, eIntr)))

theorem pollLoop_cases (w : ℕ) (deadline : Timespec) (r : Round) (rs : List Round) :
    (r.clock = none ∧ pollLoop w deadline (r :: rs) = ⟨some (-1), []⟩) ∨
      ∃ now, r.clock = some now ∧
        ((msUntilDeadline w deadline now < 0 ∧ pollLoop w deadline (r :: rs) = ⟨some 0, []⟩) ∨
          (0 ≤ msUntilDeadline w deadline now ∧ Interrupted r.poll ∧
            pollLoop w deadline (r :: rs) =
              (pollLoop w deadline rs).after now (msUntilDeadline w deadline now)) ∨
          (0 ≤ msUntilDeadline w deadline now ∧ ¬ Interrupted r.poll ∧
            pollLoop w deadline (r :: rs) =
              ⟨some (polled r.poll).1, [(now, msUntilDeadline w deadline now)]⟩)) := by
  rw [pollLoop]
  cases r.clock with
  | none => exact Or.inl ⟨rfl, rfl⟩
  | some now =>
    refine Or.inr ⟨now, rfl, ?_⟩
    by_cases hms : msUntilDeadline w deadline now < 0
    · exact Or.inl ⟨hms, if_pos hms⟩
    · have hle := not_lt.mp hms
      dsimp only
      rw [if_neg hms]
      by_cases hint : (polled r.poll).1 = -1 ∧ (polled r.poll).2 = eIntr
      · exact Or.inr (Or.inl ⟨hle, Prod.ext hint.1 hint.2, if_pos hint⟩)
      · refine Or.inr (Or.inr ⟨hle, fun h => hint ?_, if_neg hint⟩)
        exact ⟨congrArg Prod.fst h, congrArg Prod.snd h⟩

theorem pollLoop_asked (w : ℕ) (deadline : Timespec) (rs : List Round) :
    ∀ p ∈ (pollLoop w deadline rs).asked, 0 ≤ p.2 := by
  induction rs with
  | nil => simp [pollLoop]
  | cons r rs ih =>
    rcases pollLoop_cases w deadline r rs with
      ⟨-, h⟩ | ⟨now, -, ⟨-, h⟩ | ⟨hms, -, h⟩ | ⟨hms, -, h⟩⟩
    · simp [h]
    · simp [h]
    · rw [h]
      exact List.forall_mem_cons.mpr ⟨hms, ih⟩
    · simpa [h] using hms

theorem establish_asked (w timeoutMs : ℕ) (s : ConnectScript) :
    ∀ p ∈ (establish w timeoutMs s).asked, 0 ≤ p.2 := by
  unfold establish
  cases s.connect with
  | atOnce => simp
  | failed errno =>
    dsimp only
    split_ifs
    · simp
    · cases s.start with
      | none => simp
      | some now => exact pollLoop_asked w _ s.rounds

theorem finish_asked (restore : Int) (flagsBefore flags : Flags) (x : Waited) :
    (finish restore flagsBefore flags x).asked = x.asked := by
  unfold finish
  cases x.rc with
  | none => rfl
  | some rc =>
    dsimp only
    split_ifs
    · rfl
    · rfl

theorem connect_cases (w timeoutMs : ℕ) (s : ConnectScript) (flags : Flags) :
    ((s.getfl = false ∨ s.setNonblock < 0) ∧
        connectWithTimeout w timeoutMs s flags = ⟨some (-9), flags, []⟩) ∨
      (s.getfl = true ∧ 0 ≤ s.setNonblock ∧ connectWithTimeout w timeoutMs s flags =
        finish s.restore 0 (setfl flags (0 ||| oNonblock)) (establish w timeoutMs s)) := by
  rw [connectWithTimeout]
  cases s.getfl with
  | false => exact Or.inl ⟨Or.inl rfl, rfl⟩
  | true =>
    have hgot : ¬ (flags.toNat : Int) < 0 := not_lt.mpr (Int.natCast_nonneg _)
    rw [if_pos rfl, if_neg hgot, if_neg (not_not.mpr rfl)]
    by_cases hset : s.setNonblock < 0
    · exact Or.inl ⟨Or.inr hset, if_pos hset⟩
    · exact Or.inr ⟨rfl, not_lt.mp hset, if_neg hset⟩

theorem connect_asked (w timeoutMs : ℕ) (s : ConnectScript) (flags : Flags) :
    ∀ p ∈ (connectWithTimeout w timeoutMs s flags).asked, 0 ≤ p.2 := by
  rcases connect_cases w timeoutMs s flags with ⟨-, h⟩ | ⟨-, -, h⟩
  · simp [h]
  · rw [h, finish_asked]
    exact establish_asked w timeoutMs s

theorem connect_blocking {w timeoutMs : ℕ} {s : ConnectScript} {flags : Flags} {rc : Int}
    (h : (connectWithTimeout w timeoutMs s flags).rc = some rc) (hrc : 1 ≤ rc) :
    (connectWithTimeout w timeoutMs s flags).flags &&& oNonblock = 0 := by
  rcases connect_cases w timeoutMs s flags with ⟨-, hc⟩ | ⟨-, -, hc⟩
  · rw [hc] at h
    cases h
    exact absurd hrc (by decide)
  · rw [hc] at h ⊢
    unfold finish at h ⊢
    cases hx : (establish w timeoutMs s).rc with
    | none => simp [hx] at h
    | some x =>
      simp only [hx] at h ⊢
      split_ifs at h ⊢ with hrestore
      · cases h
        exact absurd hrc (by decide)
      · rw [setfl_nonblock]
        decide

structure ConnectScript.FcntlWorks (s : ConnectScript) : Prop where
  getfl : s.getfl = true
  setNonblock : 0 ≤ s.setNonblock
  restore : 0 ≤ s.restore

theorem connect_rc {s : ConnectScript} (h : s.FcntlWorks) (w timeoutMs : ℕ) (flags : Flags) :
    (connectWithTimeout w timeoutMs s flags).rc = (establish w timeoutMs s).rc := by
  rcases connect_cases w timeoutMs s flags with ⟨hfails, -⟩ | ⟨-, -, hc⟩
  · rcases hfails with hget | hset
    · rw [h.getfl] at hget
      cases hget
    · exact absurd h.setNonblock (not_le.mpr hset)
  · rw [hc, finish]
    cases (establish w timeoutMs s).rc with
    | none => rfl
    | some rc =>
      dsimp only
      rw [if_neg (not_lt.mpr h.restore)]

end CecFix.Connect
