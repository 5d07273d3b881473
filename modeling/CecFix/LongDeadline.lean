import CecFix.ConnectDeadline

/-!
# The deadline where `long` is long enough

34 bits hold every number of nanoseconds that `connect_with_timeout` comes to compute, so
that there, as on the usual 64-bit systems, the deadline is the one that was asked for. The
cast of the time left to `int` is right for 24 days.
-/

namespace CecFix.LongDeadline
open Lan Connect CacheClock ConnectDeadline

def timeoutNs : Int := sockTimeoutMs * 1000000

def msWanted (start now : Timespec) : Int := msBetween now ⟨start.tvSec, start.tvNsec + timeoutNs⟩

theorem timeoutNs_eq : timeoutNs = 5000000000 := rfl

theorem toLong_of_small {w : ℕ} (hw : 34 ≤ w) {x : Int} (hlow : -2 ^ 33 ≤ x) (hhigh : x < 2 ^ 33) :
    toLong w x = x := by
  have hpow : (2 : Int) ^ 34 ≤ 2 ^ w := pow_le_pow_right₀ (by decide) hw
  rw [toLong]
  refine Int.bmod_eq_of_le ?_ ?_
  · push_cast
    omega
  · push_cast
    omega

theorem msWanted_nanos (start now : Timespec) :
    nanos start + timeoutNs - 1000000 < nanos now + msWanted start now * 1000000 ∧
      nanos now + msWanted start now * 1000000 < nanos start + timeoutNs + 1000000 := by
  have hdiv := Int.mul_tdiv_add_tmod (start.tvNsec + timeoutNs - now.tvNsec) 1000000
  have hlow := Int.lt_tmod_of_pos (start.tvNsec + timeoutNs - now.tvNsec)
    (show (0 : Int) < 1000000 by decide)
  have hhigh := Int.tmod_lt_of_pos (start.tvNsec + timeoutNs - now.tvNsec)
    (show (0 : Int) < 1000000 by decide)
  simp only [msWanted, msBetween, nanos]
  omega

section Left
variable {w : ℕ} (hw : 34 ≤ w) {start now : Timespec} (hstart : NsecValid start)
  (hnow : NsecValid now) (hforward : nanos start ≤ nanos now)
  (hshort : nanos now - nanos start < (2 ^ 31 - 1) * 1000000)
include hw hstart hnow hforward hshort

theorem msUntilDeadline_wanted :
    msUntilDeadline w (deadlineAfter w sockTimeoutMs start) now = msWanted start now := by
  obtain ⟨hlow, hhigh⟩ := msWanted_nanos start now
  obtain ⟨h0, h1⟩ := hstart
  obtain ⟨h2, h3⟩ := hnow
  have hdiv := Int.mul_tdiv_add_tmod (start.tvNsec + timeoutNs - now.tvNsec) 1000000
  have hrem := Int.lt_tmod_of_pos (start.tvNsec + timeoutNs - now.tvNsec)
    (show (0 : Int) < 1000000 by decide)
  have hrem' := Int.tmod_lt_of_pos (start.tvNsec + timeoutNs - now.tvNsec)
    (show (0 : Int) < 1000000 by decide)
  have hms : msWanted start now = (start.tvSec - now.tvSec) * 1000 +
    (start.tvNsec + timeoutNs - now.tvNsec).tdiv 1000000 := rfl
  rw [timeoutNs_eq] at *
  simp only [nanos] at hforward hshort hlow hhigh
  have hdeadline : toLong w (start.tvNsec + sockTimeoutMs * 1000000) =
      start.tvNsec + 5000000000 :=
    toLong_of_small hw (by rw [sockTimeoutMs]; omega) (by rw [sockTimeoutMs]; omega)
  rw [msUntilDeadline, deadlineAfter, hdeadline]
  dsimp only
  rw [toLong_of_small hw (x := start.tvSec - now.tvSec) (by omega) (by omega),
    toLong_of_small hw (x := (start.tvSec - now.tvSec) * 1000) (by omega) (by omega),
    toLong_of_small hw (x := start.tvNsec + 5000000000 - now.tvNsec) (by omega) (by omega),
    ← hms, toLong_of_small hw (by omega) (by omega), toInt32]
  exact Int.bmod_eq_of_le (by omega) (by omega)

end Left

/-- The clock does not go back, and the call does not take 24 days. -/
structure ClockWithin (start : Timespec) (rounds : List Round) : Prop where
  clock : ClockFrom start rounds
  short : ∀ r ∈ rounds, ∀ now, r.clock = some now →
    nanos now - nanos start < (2 ^ 31 - 1) * 1000000

theorem ClockWithin.tail {start : Timespec} {r : Round} {rs : List Round}
    (h : ClockWithin start (r :: rs)) : ClockWithin start rs where
  clock := ⟨h.clock.valid, fun r' hr' => h.clock.later r' (List.mem_cons_of_mem _ hr')⟩
  short r' hr' := h.short r' (List.mem_cons_of_mem _ hr')

theorem loop_kept {w : ℕ} (hw : 34 ≤ w) {start : Timespec} {rs : List Round}
    (h : ClockWithin start rs) :
    DeadlineKept start (pollLoop w (deadlineAfter w sockTimeoutMs start) rs).asked
      (gaveUpAt w (deadlineAfter w sockTimeoutMs start) rs) := by
  induction rs with
  | nil => exact kept_nil.mpr (by simp [gaveUpAt])
  | cons r rs ih =>
    have hrest := ih h.tail
    rcases pollLoop_cases w (deadlineAfter w sockTimeoutMs start) r rs with
      ⟨hr, hloop⟩ | ⟨now, hr, hround⟩
    · rw [gaveUpAt, hloop, hr]
      exact kept_nil.mpr (by simp)
    · obtain ⟨hnow, hforward⟩ := h.clock.later r List.mem_cons_self now hr
      have hms := msUntilDeadline_wanted hw h.clock.valid hnow hforward
        (h.short r List.mem_cons_self now hr)
      obtain ⟨hlow, hhigh⟩ := msWanted_nanos start now
      have hasked : nanos now + msWanted start now * 1000000 ≤
          nanos start + (sockTimeoutMs + 1) * 1000000 := by
        rw [timeoutNs_eq] at hhigh
        rw [sockTimeoutMs]
        omega
      have hgiven : nanos start + (sockTimeoutMs - 1) * 1000000 <
          nanos now + msWanted start now * 1000000 := by
        rw [timeoutNs_eq] at hlow
        rw [sockTimeoutMs]
        omega
      rw [gaveUpAt, hr]
      dsimp only
      rw [hms] at hround ⊢
      rcases hround with ⟨hneg, hloop⟩ | ⟨hleft, hint, hloop⟩ | ⟨hleft, hint, hloop⟩
      · -- a reading past the deadline
        rw [hloop, if_pos hneg, kept_nil]
        intro t ht
        cases ht
        omega
      · rw [hloop, if_neg (not_lt.mpr hleft), if_pos hint, Waited.after, kept_cons]
        exact ⟨hasked, hrest⟩
      · rw [hloop, if_neg (not_lt.mpr hleft), if_neg hint, kept_cons, kept_nil]
        refine ⟨hasked, fun t ht => ?_⟩
        cases hpoll : r.poll with
        | timedOut =>
          rw [hpoll] at ht
          cases ht
          exact hgiven
        | failed errno | ready pending getsockopt =>
          rw [hpoll] at ht
          cases ht

/-- Where `long` has 34 bits or more: however often `poll` is interrupted, no `poll` is asked to
wait beyond the deadline that is wanted, and the call does not give up before it, to the
millisecond. -/
theorem deadline_kept_long {w : ℕ} (hw : 34 ≤ w) {s : ConnectScript} {start : Timespec}
    (h : Waits s start) (hclock : ClockWithin start s.rounds) (flags : Flags) :
    DeadlineKept start (connectWithTimeout w sockTimeoutMs s flags).asked
      (gaveUpAt w (deadlineAfter w sockTimeoutMs start) s.rounds) := by
  rw [waits_asked h]
  exact loop_kept hw hclock

theorem deadline_kept_unanswered :
    let s := waiting [⟨some ⟨0, 0⟩, .timedOut⟩]
    DeadlineKept ⟨0, 0⟩ (connectWithTimeout 64 sockTimeoutMs s freshFlags).asked
      (gaveUpAt 64 (deadlineAfter 64 sockTimeoutMs ⟨0, 0⟩) s.rounds) := by
  intro s
  have hclock : ClockWithin ⟨0, 0⟩ s.rounds :=
    ⟨⟨by simp [NsecValid], by simp [s, waiting, NsecValid, nanos]⟩, by simp [s, waiting, nanos]⟩
  exact deadline_kept_long (by decide) ⟨rfl, le_rfl, Or.inr rfl, rfl⟩ hclock freshFlags

end CecFix.LongDeadline
