import CecFix.Transducer
import Mathlib.Data.List.Count
import Mathlib.Logic.Function.Iterate

/-!
# Interleaved parties over shared data

Any number of parties, each with a local state of its own type, share one global
state. A step of a party reads and writes the global state and its own local
state. A run is given by its schedule, the list of the parties in the order in
which they take their atomic steps, so that a statement about all schedules is
one about all interleavings.

The rules: what one party's turns do to the others, invariants of the local
states whatever the others do, parties that finish after boundedly many turns of
their own, and runs in which one party is alone.
-/

structure Interleaving {κ : Type*} (γ : Type*) (L : κ → Type*) where
  shared : γ
  locals : ∀ k, L k

namespace Interleaving
variable {κ γ : Type*} {L : κ → Type*} [DecidableEq κ]

def machine (step : ∀ k, γ × L k → γ × L k) : Transducer (Interleaving γ L) κ Empty where
  next s k :=
    ⟨(step k (s.shared, s.locals k)).1,
      Function.update s.locals k (step k (s.shared, s.locals k)).2⟩
  emit _ _ := []

variable {step : ∀ k, γ × L k → γ × L k}

@[simp] theorem next_shared (s : Interleaving γ L) (k : κ) :
    ((machine step).next s k).shared = (step k (s.shared, s.locals k)).1 := rfl

@[simp] theorem next_self (s : Interleaving γ L) (k : κ) :
    ((machine step).next s k).locals k = (step k (s.shared, s.locals k)).2 :=
  Function.update_self ..

theorem next_other (s : Interleaving γ L) {j k : κ} (h : j ≠ k) :
    ((machine step).next s k).locals j = s.locals j :=
  Function.update_of_ne h ..

theorem next_locals (P : ∀ k, L k → Prop) {s : Interleaving γ L} {k : κ}
    (hself : P k (step k (s.shared, s.locals k)).2) (hother : ∀ j ≠ k, P j (s.locals j)) (j : κ) :
    P j (((machine step).next s k).locals j) := by
  by_cases h : j = k
  · subst h
    rwa [next_self]
  · rw [next_other s h]
    exact hother j h

/-- A rank that every turn of party `k` lowers, as long as it is not zero, is
lowered by the number of turns that the schedule gives to `k`. -/
theorem run_rank {k : κ} (rank : L k → ℕ) (lower : ∀ g l, rank (step k (g, l)).2 ≤ rank l - 1)
    (s : Interleaving γ L) (ks : List κ) :
    rank (((machine step).run s ks).locals k) ≤ rank (s.locals k) - ks.count k := by
  induction ks generalizing s with
  | nil => simp
  | cons j ks ih =>
    have hrest := ih ((machine step).next s j)
    rw [Transducer.run_cons]
    by_cases h : j = k
    · subst h
      have hfirst := lower s.shared (s.locals j)
      rw [next_self] at hrest
      rw [List.count_cons_self]
      omega
    · rw [next_other s (Ne.symm h)] at hrest
      rwa [List.count_cons_of_ne h]

theorem run_alone (k : κ) (n : ℕ) (s : Interleaving γ L) :
    (((machine step).run s (List.replicate n k)).shared,
      ((machine step).run s (List.replicate n k)).locals k) =
        (step k)^[n] (s.shared, s.locals k) := by
  induction n generalizing s with
  | zero => rfl
  | succ n ih =>
    rw [List.replicate_succ, Transducer.run_cons, ih, Function.iterate_succ_apply, next_shared,
      next_self]

end Interleaving
