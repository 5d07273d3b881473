import Mathlib.Data.Nat.Find
import Mathlib.Tactic.Common

/-!
# Bounded retry loops

`retry attempt bound` is the loop that starts from a negative return code and
calls `attempt` while the code is negative and fewer than `bound` calls were
made. An attempt sees its own number and the state the earlier attempts left.
-/

namespace Retry
variable {σ : Type*}

def loop (attempt : ℕ → σ → Int × σ) : ℕ → ℕ → Int → σ → Int × σ
  | 0, _, code, s => (code, s)
  | fuel + 1, k, code, s =>
    if code < 0 then loop attempt fuel (k + 1) (attempt k s).1 (attempt k s).2 else (code, s)

def retry (attempt : ℕ → σ → Int × σ) (bound : ℕ) (s : σ) : Int × σ :=
  loop attempt bound 0 (-1) s

/-- The state in which attempt `k + i` starts when attempts `k, k + 1, ...` are made in a row. -/
def before (attempt : ℕ → σ → Int × σ) : ℕ → σ → ℕ → σ
  | _, s, 0 => s
  | k, s, i + 1 => before attempt (k + 1) (attempt k s).2 i

variable {attempt : ℕ → σ → Int × σ}

theorem before_succ (k : ℕ) (s : σ) (i : ℕ) :
    before attempt k s (i + 1) = (attempt (k + i) (before attempt k s i)).2 := by
  induction i generalizing k s with
  | zero => rfl
  | succ i ih =>
    rw [before, ih, before, show k + 1 + i = k + (i + 1) by omega]

theorem loop_of_nonneg {fuel k : ℕ} {code : Int} {s : σ} (h : 0 ≤ code) :
    loop attempt fuel k code s = (code, s) := by
  cases fuel with
  | zero => rfl
  | succ fuel => rw [loop, if_neg (by omega)]

theorem loop_code {fuel k : ℕ} {code : Int} {s : σ} (h : code < 0) :
    loop attempt (fuel + 1) k code s = loop attempt (fuel + 1) k (-1) s := by
  rw [loop, loop, if_pos h, if_pos (by omega)]

theorem loop_first {i fuel k : ℕ} {code : Int} {s : σ} (hcode : code < 0) (hi : i < fuel)
    (hfail : ∀ j < i, (attempt (k + j) (before attempt k s j)).1 < 0)
    (hok : 0 ≤ (attempt (k + i) (before attempt k s i)).1) :
    loop attempt fuel k code s = attempt (k + i) (before attempt k s i) := by
  induction i generalizing fuel k code s with
  | zero =>
    obtain ⟨fuel, rfl⟩ : ∃ m, fuel = m + 1 := ⟨fuel - 1, by omega⟩
    rw [loop, if_pos hcode]
    exact loop_of_nonneg hok
  | succ i ih =>
    obtain ⟨fuel, rfl⟩ : ∃ m, fuel = m + 1 := ⟨fuel - 1, by omega⟩
    have hshift : ∀ j, k + (j + 1) = k + 1 + j := by omega
    have hfirst : (attempt k s).1 < 0 := hfail 0 (by omega)
    have hlt : i < fuel := by omega
    rw [before, hshift i] at hok ⊢
    rw [loop, if_pos hcode]
    apply ih hfirst hlt _ hok
    intro j hj
    have hj' := hfail (j + 1) (by omega)
    rwa [before, hshift j] at hj'

theorem loop_fail {fuel k : ℕ} {code : Int} {s : σ} (hcode : code < 0)
    (hfail : ∀ j < fuel, (attempt (k + j) (before attempt k s j)).1 < 0) :
    (loop attempt fuel k code s).1 < 0 ∧
      (loop attempt fuel k code s).2 = before attempt k s fuel := by
  induction fuel generalizing k code s with
  | zero => exact ⟨hcode, rfl⟩
  | succ fuel ih =>
    rw [loop, if_pos hcode]
    apply ih (hfail 0 (by omega))
    intro j hj
    have hj' := hfail (j + 1) (by omega)
    rwa [before, show k + (j + 1) = k + 1 + j by omega] at hj'

variable {bound : ℕ} {s : σ}

theorem retry_first {i : ℕ} (hi : i < bound)
    (hfail : ∀ j < i, (attempt j (before attempt 0 s j)).1 < 0)
    (hok : 0 ≤ (attempt i (before attempt 0 s i)).1) :
    retry attempt bound s = attempt i (before attempt 0 s i) := by
  have h := loop_first (k := 0) (s := s) (show (-1 : Int) < 0 by omega) hi
    (by simpa only [Nat.zero_add] using hfail) (by simpa only [Nat.zero_add] using hok)
  simpa only [retry, Nat.zero_add] using h

theorem retry_fail (hfail : ∀ j < bound, (attempt j (before attempt 0 s j)).1 < 0) :
    (retry attempt bound s).1 < 0 ∧ (retry attempt bound s).2 = before attempt 0 s bound :=
  loop_fail (by omega) (by simpa only [Nat.zero_add] using hfail)

/-- A loop whose attempts do on `f s` what those of another do on `s`. -/
theorem loop_simulates {τ : Type*} {attempt' : ℕ → τ → Int × τ} {f : σ → τ} {I : σ → Prop}
    (step : ∀ k s, I s → attempt' k (f s) = ((attempt k s).1, f (attempt k s).2) ∧
      I (attempt k s).2) (fuel k : ℕ) (code : Int) {s : σ} (h : I s) :
    loop attempt' fuel k code (f s) =
      ((loop attempt fuel k code s).1, f (loop attempt fuel k code s).2) := by
  induction fuel generalizing k code s with
  | zero => rfl
  | succ fuel ih =>
    obtain ⟨hattempt, hnext⟩ := step k s h
    rw [loop, loop, hattempt]
    split_ifs
    · exact ih (k + 1) (attempt k s).1 hnext
    · rfl

theorem retry_simulates {τ : Type*} {attempt' : ℕ → τ → Int × τ} {f : σ → τ} {I : σ → Prop}
    (step : ∀ k s, I s → attempt' k (f s) = ((attempt k s).1, f (attempt k s).2) ∧
      I (attempt k s).2) (bound : ℕ) (h : I s) :
    retry attempt' bound (f s) = ((retry attempt bound s).1, f (retry attempt bound s).2) :=
  loop_simulates step bound 0 (-1) h

def counted (attempt : ℕ → σ → Int × σ) (k : ℕ) (s : σ × ℕ) : Int × (σ × ℕ) :=
  ((attempt k s.1).1, (attempt k s.1).2, s.2 + 1)

theorem retry_invariant {I : σ → Prop} (step : ∀ k s, I s → I (attempt k s).2) (bound : ℕ)
    (h : I s) : I (retry attempt bound s).2 := by
  have hloop : ∀ fuel k code s, I s → I (loop attempt fuel k code s).2 := by
    intro fuel
    induction fuel with
    | zero => exact fun k code s hs => hs
    | succ fuel ih =>
      intro k code s hs
      rw [loop]
      split_ifs
      · exact ih (k + 1) (attempt k s).1 _ (step k s hs)
      · exact hs
  exact hloop bound 0 (-1) s h

theorem before_counted (k : ℕ) (s : σ) (n i : ℕ) :
    before (counted attempt) k (s, n) i = (before attempt k s i, n + i) := by
  induction i generalizing k s n with
  | zero => rfl
  | succ i ih =>
    rw [before, before, counted, ih]
    simp only [Prod.mk.injEq, true_and]
    omega

def calls (attempt : ℕ → σ → Int × σ) (bound : ℕ) (s : σ) : ℕ :=
  (retry (counted attempt) bound (s, 0)).2.2

theorem retry_counted : retry (counted attempt) bound (s, 0) =
    ((retry attempt bound s).1, (retry attempt bound s).2, calls attempt bound s) := by
  have h : retry attempt bound s = ((retry (counted attempt) bound (s, 0)).1,
      (retry (counted attempt) bound (s, 0)).2.1) :=
    retry_simulates (f := Prod.fst) (I := fun _ => True) (s := (s, 0))
      (fun _ _ _ => ⟨rfl, trivial⟩) bound trivial
  rw [h]
  rfl

theorem le_counted (fuel k : ℕ) (code : Int) (s : σ × ℕ) :
    s.2 ≤ (loop (counted attempt) fuel k code s).2.2 := by
  induction fuel generalizing k code s with
  | zero => exact le_rfl
  | succ fuel ih =>
    rw [loop]
    split_ifs
    · have hrest := ih (k + 1) (counted attempt k s).1 (counted attempt k s).2
      exact Nat.le_trans (Nat.le_succ s.2) hrest
    · exact le_rfl

theorem calls_pos (h : 0 < bound) : 0 < calls attempt bound s := by
  cases bound with
  | zero => exact absurd h (Nat.lt_irrefl 0)
  | succ bound =>
    rw [calls, retry, loop, if_pos (by decide)]
    exact le_counted bound 1 _ (counted attempt 0 (s, 0)).2

theorem calls_first {i : ℕ} (hi : i < bound)
    (hfail : ∀ j < i, (attempt j (before attempt 0 s j)).1 < 0)
    (hok : 0 ≤ (attempt i (before attempt 0 s i)).1) : calls attempt bound s = i + 1 := by
  have hfirst : retry (counted attempt) bound (s, 0) = _ := retry_first hi
    (fun j hj => by rw [before_counted]; exact hfail j hj)
    (by rw [before_counted]; exact hok)
  rw [calls, hfirst, before_counted, counted, Nat.zero_add]

theorem calls_fail (hfail : ∀ j < bound, (attempt j (before attempt 0 s j)).1 < 0) :
    calls attempt bound s = bound := by
  have hall : (retry (counted attempt) bound (s, 0)).2 = _ := (retry_fail
    (fun j hj => by rw [before_counted]; exact hfail j hj)).2
  rw [calls, hall, before_counted, Nat.zero_add]

theorem first_or_none (P : ℕ → Prop) [DecidablePred P] (bound : ℕ) :
    (∃ i < bound, P i ∧ ∀ j < i, ¬ P j) ∨ ∀ j < bound, ¬ P j := by
  by_cases h : ∃ i, i < bound ∧ P i
  · left
    obtain ⟨hlt, hp⟩ := Nat.find_spec h
    refine ⟨Nat.find h, hlt, hp, fun j hj hpj => ?_⟩
    exact Nat.find_min h hj ⟨Nat.lt_trans hj hlt, hpj⟩
  · right
    exact fun j hj hp => h ⟨j, hj, hp⟩

end Retry
