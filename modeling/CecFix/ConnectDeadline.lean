import CecFix.CacheClock
import CecFix.ConnectResult

/-!
# The deadline of `connect_with_timeout` where `long` has 32 bits

`timeout_ms * 1000000l` is a product of an `unsigned int` and a `long`. With 32 bits
for each it is computed modulo `2 ^ 32`, and 5000 ms come to 705032704 ns: the deadline
is about 705 ms after the start reading. The time left is right for this deadline to the
millisecond, until it does not fit an `int` either.

A `poll` that times out is taken to have waited as long as it was asked to.
-/

namespace CecFix.ConnectDeadline
open Lan Connect CacheClock

def gaveUpAt (w : ℕ) (deadline : Timespec) : List Round → Option Int
  | [] => none
  | r :: rs =>
    match r.clock with
    | none => none
    | some now =>
      let ms := msUntilDeadline w deadline now
      if ms < 0 then some (nanos now)
      else if Interrupted r.poll then gaveUpAt w deadline rs
      else
        match r.poll with
        | .timedOut => some (nanos now + ms * 1000000)
        | _ => none

structure Waits (s : ConnectScript) (start : Timespec) : Prop where
  getfl : s.getfl = true
  setNonblock : 0 ≤ s.setNonblock
  connect : s.connect = .failed eWouldBlock ∨ s.connect = .failed eInProgress
  start : s.start = some start

structure DeadlineKept (start : Timespec) (asked : List (Timespec × Int)) (gaveUp : Option Int) :
    Prop where
  late : ∀ t, gaveUp = some t → nanos start + (sockTimeoutMs - 1) * 1000000 < t
  bounded : ∀ p ∈ asked,
    nanos p.1 + p.2 * 1000000 ≤ nanos start + (sockTimeoutMs + 1) * 1000000

def NsecValid (t : Timespec) : Prop := 0 ≤ t.tvNsec ∧ t.tvNsec < 1000000000

structure ClockFrom (start : Timespec) (rounds : List Round) : Prop where
  valid : NsecValid start
  later : ∀ r ∈ rounds, ∀ now, r.clock = some now → NsecValid now ∧ nanos start ≤ nanos now

def wrappedTimeout : Int := sockTimeoutMs * 1000000 % 2 ^ 32

def msLeft (start now : Timespec) : Int :=
  msBetween now ⟨start.tvSec, start.tvNsec + wrappedTimeout⟩

/-- At each reading the run comes to, the deadline there is has not passed, and the
`poll` made then does not time out; or the deadline wanted has passed as well, and the
time left, as an `int`, is negative. -/
def InTime (start : Timespec) : List Round → Prop
  | [] => True
  | r :: rs =>
    match r.clock with
    | none => True
    | some now =>
      (0 ≤ msLeft start now ∧ r.poll ≠ .timedOut ∧ (Interrupted r.poll → InTime start rs)) ∨
        (2 ^ 31 ≤ msLeft start now % 2 ^ 32 ∧
          (sockTimeoutMs - 1) * 1000000 < nanos now - nanos start)

theorem wrappedTimeout_eq : wrappedTimeout = 705032704 := rfl

section Left
variable {start now : Timespec} (hstart : NsecValid start) (hnow : NsecValid now)
include hstart hnow

theorem msUntilDeadline_eq :
    msUntilDeadline 32 (deadlineAfter 32 sockTimeoutMs start) now =
      (msLeft start now).bmod (2 ^ 32) := by
  obtain ⟨h0, h1⟩ := hstart
  obtain ⟨h2, h3⟩ := hnow
  have hdeadline : toLong 32 (start.tvNsec + sockTimeoutMs * 1000000) =
      start.tvNsec + wrappedTimeout := by
    rw [wrappedTimeout_eq, toLong, sockTimeoutMs, Int.bmod_def]
    omega
  have hnsec : toLong 32 (start.tvNsec + wrappedTimeout - now.tvNsec) =
      start.tvNsec + wrappedTimeout - now.tvNsec := by
    rw [wrappedTimeout_eq, toLong, Int.bmod_def]
    omega
  rw [msUntilDeadline, deadlineAfter, hdeadline, hnsec, msLeft, msBetween]
  simp only [toLong, toInt32, Int.bmod_mul_bmod, Int.bmod_add_bmod, Int.bmod_bmod]

omit hstart hnow in
variable (start now) in
theorem msLeft_nanos :
    nanos start + wrappedTimeout - 1000000 < nanos now + msLeft start now * 1000000 ∧
      nanos now + msLeft start now * 1000000 < nanos start + wrappedTimeout + 1000000 := by
  have hdiv := Int.mul_tdiv_add_tmod (start.tvNsec + wrappedTimeout - now.tvNsec) 1000000
  have hlow := Int.lt_tmod_of_pos (start.tvNsec + wrappedTimeout - now.tvNsec)
    (show (0 : Int) < 1000000 by decide)
  have hhigh := Int.tmod_lt_of_pos (start.tvNsec + wrappedTimeout - now.tvNsec)
    (show (0 : Int) < 1000000 by decide)
  simp only [msLeft, msBetween, nanos]
  omega

theorem left_neg_iff :
    msUntilDeadline 32 (deadlineAfter 32 sockTimeoutMs start) now < 0 ↔
      2 ^ 31 ≤ msLeft start now % 2 ^ 32 := by
  rw [msUntilDeadline_eq hstart hnow, Int.bmod_def]
  omega

variable (hforward : nanos start ≤ nanos now)
include hforward

theorem left_of_nonneg (hleft : 0 ≤ msLeft start now) :
    msUntilDeadline 32 (deadlineAfter 32 sockTimeoutMs start) now = msLeft start now := by
  obtain ⟨-, hhigh⟩ := msLeft_nanos start now
  rw [wrappedTimeout_eq] at hhigh
  rw [msUntilDeadline_eq hstart hnow, Int.bmod_def]
  omega

theorem asked_iff (hms : 0 ≤ msUntilDeadline 32 (deadlineAfter 32 sockTimeoutMs start) now) :
    nanos now + msUntilDeadline 32 (deadlineAfter 32 sockTimeoutMs start) now * 1000000 ≤
        nanos start + (sockTimeoutMs + 1) * 1000000 ↔ 0 ≤ msLeft start now := by
  obtain ⟨hlow, hhigh⟩ := msLeft_nanos start now
  rw [wrappedTimeout_eq] at hlow hhigh
  constructor
  · intro hbound
    by_contra hneg
    rw [msUntilDeadline_eq hstart hnow, Int.bmod_def] at hms hbound
    rw [sockTimeoutMs] at hbound
    omega
  · intro hleft
    rw [left_of_nonneg hstart hnow hforward hleft, sockTimeoutMs]
    omega

omit hstart hnow hforward in
variable (start now) in
theorem left_early :
    nanos now + msLeft start now * 1000000 ≤ nanos start + (sockTimeoutMs - 1) * 1000000 := by
  obtain ⟨-, hhigh⟩ := msLeft_nanos start now
  rw [wrappedTimeout_eq] at hhigh
  rw [sockTimeoutMs]
  omega

end Left

theorem Interrupted.not_timedOut {p : PollOutcome} (h : Interrupted p) : p ≠ .timedOut := by
  rintro rfl
  exact absurd h (by decide)

theorem gaveUpAt_isSome (w : ℕ) (deadline : Timespec) (rs : List Round) :
    (gaveUpAt w deadline rs).isSome = true ↔ waitEnding w deadline rs = some .expired := by
  induction rs with
  | nil => simp [gaveUpAt, waitEnding]
  | cons r rs ih =>
    rw [gaveUpAt, waitEnding]
    cases r.clock with
    | none => simp
    | some now =>
      dsimp only
      split_ifs
      · simp
      · exact ih
      · cases r.poll with
        | ready pending getsockopt => cases getsockopt <;> simp [PollOutcome.ending]
        | _ => simp [PollOutcome.ending]

theorem kept_cons {start : Timespec} {p : Timespec × Int} {asked : List (Timespec × Int)}
    {gaveUp : Option Int} :
    DeadlineKept start (p :: asked) gaveUp ↔
      nanos p.1 + p.2 * 1000000 ≤ nanos start + (sockTimeoutMs + 1) * 1000000 ∧
        DeadlineKept start asked gaveUp := by
  constructor
  · intro h
    obtain ⟨hfirst, hrest⟩ := List.forall_mem_cons.mp h.bounded
    exact ⟨hfirst, h.late, hrest⟩
  · intro h
    exact ⟨h.2.late, List.forall_mem_cons.mpr ⟨h.1, h.2.bounded⟩⟩

theorem kept_nil {start : Timespec} {gaveUp : Option Int} :
    DeadlineKept start [] gaveUp ↔
      ∀ t, gaveUp = some t → nanos start + (sockTimeoutMs - 1) * 1000000 < t :=
  ⟨fun h => h.late, fun h => ⟨h, by simp⟩⟩

def Kept (start : Timespec) (rs : List Round) : Prop :=
  DeadlineKept start (pollLoop 32 (deadlineAfter 32 sockTimeoutMs start) rs).asked
    (gaveUpAt 32 (deadlineAfter 32 sockTimeoutMs start) rs)

section Round
variable {start now : Timespec} {r : Round} {rs : List Round} (hr : r.clock = some now)
include hr

theorem inTime_past (hleft : msLeft start now < 0) (hpast : 2 ^ 31 ≤ msLeft start now % 2 ^ 32) :
    InTime start (r :: rs) ↔ (sockTimeoutMs - 1) * 1000000 < nanos now - nanos start := by
  rw [InTime, hr]
  simp only [not_le.mpr hleft, hpast, false_and, true_and, false_or]

theorem inTime_left (hpast : ¬ 2 ^ 31 ≤ msLeft start now % 2 ^ 32) :
    InTime start (r :: rs) ↔
      0 ≤ msLeft start now ∧ r.poll ≠ .timedOut ∧ (Interrupted r.poll → InTime start rs) := by
  rw [InTime, hr]
  simp only [hpast, false_and, or_false]

end Round

theorem kept_round {start : Timespec} {r : Round} {rs : List Round}
    (h : ClockFrom start (r :: rs)) (ih : Kept start rs ↔ InTime start rs) :
    Kept start (r :: rs) ↔ InTime start (r :: rs) := by
  unfold Kept
  rcases pollLoop_cases 32 (deadlineAfter 32 sockTimeoutMs start) r rs with
    ⟨hr, hloop⟩ | ⟨now, hr, hround⟩
  · rw [gaveUpAt, InTime, hloop, hr]
    exact iff_of_true (kept_nil.mpr (by simp)) trivial
  · obtain ⟨hnow, hforward⟩ := h.later r List.mem_cons_self now hr
    have hneg := left_neg_iff h.valid hnow
    rw [gaveUpAt, hr]
    dsimp only
    rcases hround with ⟨hms, hloop⟩ | ⟨hms, hint, hloop⟩ | ⟨hms, hint, hloop⟩
    · -- The loop ends at a reading past the deadline there is.
      have hleft : msLeft start now < 0 := by
        by_contra hnonneg
        rw [left_of_nonneg h.valid hnow hforward (not_lt.mp hnonneg)] at hms
        exact hnonneg hms
      rw [hloop, if_pos hms, kept_nil, inTime_past hr hleft (hneg.mp hms)]
      simp only [Option.some.injEq, forall_eq']
      exact lt_sub_iff_add_lt'.symm
    · have hasked := asked_iff h.valid hnow hforward hms
      have hpoll := Interrupted.not_timedOut hint
      rw [hloop, if_neg (not_lt.mpr hms), if_pos hint, Waited.after, kept_cons, hasked,
        inTime_left hr (mt hneg.mpr (not_lt.mpr hms))]
      simp only [hpoll, hint, ne_eq, not_false_eq_true, true_and, forall_const]
      exact and_congr_right fun _ => ih
    · have hasked := asked_iff h.valid hnow hforward hms
      rw [hloop, if_neg (not_lt.mpr hms), if_neg hint, kept_cons, hasked, kept_nil,
        inTime_left hr (mt hneg.mpr (not_lt.mpr hms))]
      simp only [hint, IsEmpty.forall_iff, and_true]
      refine and_congr_right fun hleft => ?_
      cases hpoll : r.poll with
      | timedOut =>
        have hearly := left_early start now
        rw [left_of_nonneg h.valid hnow hforward hleft]
        simpa using hearly
      | _ => simp

theorem kept_iff {start : Timespec} {rs : List Round} (h : ClockFrom start rs) :
    Kept start rs ↔ InTime start rs := by
  induction rs with
  | nil => exact iff_of_true (kept_nil.mpr (by simp [gaveUpAt])) trivial
  | cons r rs ih =>
    have hrest : ClockFrom start rs := ⟨h.valid, fun r hr => h.later r (List.mem_cons_of_mem _ hr)⟩
    exact kept_round h (ih hrest)

section Call
variable {s : ConnectScript} {start : Timespec} (h : Waits s start) (w timeoutMs : ℕ)
include h

theorem in_progress : ∃ errno, s.connect = .failed errno ∧
    ¬ (errno ≠ eWouldBlock ∧ errno ≠ eInProgress) := by
  rcases h.connect with hc | hc
  · exact ⟨_, hc, by simp⟩
  · exact ⟨_, hc, by simp⟩

theorem waits_ending :
    s.ending w timeoutMs = waitEnding w (deadlineAfter w timeoutMs start) s.rounds := by
  obtain ⟨errno, hc, hwait⟩ := in_progress h
  rw [ConnectScript.ending, hc, h.start]
  exact if_neg hwait

theorem waits_asked (flags : Flags) :
    (connectWithTimeout w timeoutMs s flags).asked =
      (pollLoop w (deadlineAfter w timeoutMs start) s.rounds).asked := by
  obtain ⟨errno, hc, hwait⟩ := in_progress h
  rcases connect_cases w timeoutMs s flags with ⟨hfails, -⟩ | ⟨-, -, hcall⟩
  · simp [h.getfl, not_lt.mpr h.setNonblock] at hfails
  · rw [hcall, finish_asked, establish, hc, h.start]
    dsimp only
    rw [if_neg hwait]

theorem waits_gaveUp :
    (gaveUpAt w (deadlineAfter w timeoutMs start) s.rounds).isSome = true ↔
      s.ending w timeoutMs = some .expired := by
  rw [waits_ending h, gaveUpAt_isSome]

/-- On the Raspberry Pi the deadline is the one that was asked for exactly in the runs
that do not come to depend on it. -/
theorem deadline_kept_iff (hclock : ClockFrom start s.rounds) (flags : Flags) :
    DeadlineKept start (connectWithTimeout 32 sockTimeoutMs s flags).asked
        (gaveUpAt 32 (deadlineAfter 32 sockTimeoutMs start) s.rounds) ↔
      InTime start s.rounds := by
  rw [waits_asked h]
  exact kept_iff hclock

end Call

theorem deadline_kept_answered :
    let s := waiting [⟨some ⟨0, 400000000⟩, .failed eIntr⟩, ⟨some ⟨0, 600000000⟩, .ready 0 true⟩]
    DeadlineKept ⟨0, 0⟩ (connectWithTimeout 32 sockTimeoutMs s freshFlags).asked
      (gaveUpAt 32 (deadlineAfter 32 sockTimeoutMs ⟨0, 0⟩) s.rounds) := by
  intro s
  have hclock : ClockFrom ⟨0, 0⟩ s.rounds :=
    ⟨by simp [NsecValid], by simp [s, waiting, NsecValid, nanos]⟩
  have hintime : InTime ⟨0, 0⟩ s.rounds := by
    simp [s, waiting, InTime, msLeft, msBetween, wrappedTimeout_eq]
  exact (deadline_kept_iff ⟨rfl, le_rfl, Or.inr rfl, rfl⟩ hclock freshFlags).mpr hintime

/-- A projector that does not answer is given up after 705 ms. -/
theorem gives_up_early :
    let s := waiting [⟨some ⟨0, 0⟩, .timedOut⟩]
    ClockFrom ⟨0, 0⟩ s.rounds ∧ Waits s ⟨0, 0⟩ ∧
      gaveUpAt 32 (deadlineAfter 32 sockTimeoutMs ⟨0, 0⟩) s.rounds = some 705000000 ∧
      ¬ DeadlineKept ⟨0, 0⟩ (connectWithTimeout 32 sockTimeoutMs s freshFlags).asked
        (gaveUpAt 32 (deadlineAfter 32 sockTimeoutMs ⟨0, 0⟩) s.rounds) := by
  intro s
  have hclock : ClockFrom ⟨0, 0⟩ s.rounds :=
    ⟨by simp [NsecValid], by simp [s, waiting, NsecValid, nanos]⟩
  refine ⟨hclock, ⟨rfl, le_rfl, Or.inr rfl, rfl⟩, by decide, fun h => ?_⟩
  have hlate := h.late 705000000 (by decide)
  exact absurd hlate (by decide)

end CecFix.ConnectDeadline
