import CecFix.Interleaving
import Mathlib.Data.Fintype.Defs

/-!
# Interleavings in time

A schedule that also says when each step is made. The state keeps the time of the last
step, and for each party the time of its own last one; from that to its next step the party
waits. What a party sleeps is a lower bound on a wait, what it takes to go on an upper one.

A party that never waits beyond its limits is through after the sum of them, whatever the
others do. Of a trace whose entries have a time, those that keep a distance to all before
them come at a bounded rate.
-/

structure TimedInterleaving {κ : Type*} (γ : Type*) (L : κ → Type*) extends Interleaving γ L where
  now : ℤ
  since : κ → ℤ

namespace TimedInterleaving
variable {κ γ : Type*} {L : κ → Type*}

def Forward (s : TimedInterleaving γ L) (x : κ × ℤ) : Prop := s.now ≤ x.2

/-- Nobody who is still busy waits beyond his limit. -/
def Prompt (busy : ∀ k, L k → Prop) (limit : ∀ k, L k → ℤ) (s : TimedInterleaving γ L)
    (x : κ × ℤ) : Prop :=
  ∀ k, busy k (s.locals k) → x.2 ≤ s.since k + limit k (s.locals k)

instance [Fintype κ] (busy : ∀ k, L k → Prop) [∀ k l, Decidable (busy k l)] (limit : ∀ k, L k → ℤ)
    (s : TimedInterleaving γ L) (x : κ × ℤ) : Decidable (Prompt busy limit s x) :=
  inferInstanceAs (Decidable (∀ _, _ → _))

variable [DecidableEq κ]

def machine (step : ∀ k, ℤ → γ × L k → γ × L k) :
    Transducer (TimedInterleaving γ L) (κ × ℤ) Empty where
  next s x :=
    { (Interleaving.machine fun k => step k x.2).next s.toInterleaving x.1 with
      now := x.2
      since := Function.update s.since x.1 x.2 }
  emit _ _ := []

variable {step : ∀ k, ℤ → γ × L k → γ × L k}

@[simp] theorem next_now (s : TimedInterleaving γ L) (x : κ × ℤ) :
    ((machine step).next s x).now = x.2 := rfl

@[simp] theorem next_shared (s : TimedInterleaving γ L) (k : κ) (t : ℤ) :
    ((machine step).next s (k, t)).shared = (step k t (s.shared, s.locals k)).1 := rfl

@[simp] theorem next_self (s : TimedInterleaving γ L) (k : κ) (t : ℤ) :
    ((machine step).next s (k, t)).locals k = (step k t (s.shared, s.locals k)).2 :=
  Function.update_self ..

@[simp] theorem since_self (s : TimedInterleaving γ L) (k : κ) (t : ℤ) :
    ((machine step).next s (k, t)).since k = t :=
  Function.update_self ..

theorem next_other (s : TimedInterleaving γ L) {i k : κ} (t : ℤ) (h : i ≠ k) :
    ((machine step).next s (k, t)).locals i = s.locals i :=
  Function.update_of_ne h ..

theorem since_other (s : TimedInterleaving γ L) {i k : κ} (t : ℤ) (h : i ≠ k) :
    ((machine step).next s (k, t)).since i = s.since i :=
  Function.update_of_ne h ..

structure OnTime (busy : ∀ k, L k → Prop) (left : ∀ k, L k → ℤ) (due : κ → ℤ)
    (s : TimedInterleaving γ L) (k : κ) : Prop where
  left_le : busy k (s.locals k) → s.since k + left k (s.locals k) ≤ due k
  now_le : busy k (s.locals k) → s.now ≤ due k

/-- A budget of time that a step lowers at least by the limit of the wait before it: if all
waits are within their limits, everyone is through when his budget is used up. -/
theorem throughout_due (busy : ∀ k, L k → Prop) (limit left : ∀ k, L k → ℤ)
    (nonneg : ∀ k l, 0 ≤ left k l) (limit_le : ∀ k l, busy k l → limit k l ≤ left k l)
    (lower : ∀ k t g l, busy k (step k t (g, l)).2 →
      busy k l ∧ left k (step k t (g, l)).2 + limit k l ≤ left k l)
    {s : TimedInterleaving γ L} (hnow : ∀ k, s.now ≤ s.since k) {xs : List (κ × ℤ)}
    (hxs : (machine step).Along (Prompt busy limit) s xs) :
    (machine step).Throughout
      (fun s' => ∀ k, busy k (s'.locals k) → s'.now ≤ s.since k + left k (s.locals k)) s xs := by
  refine Transducer.throughout_of_invariant
    (I := fun s' => ∀ k, OnTime busy left (fun k => s.since k + left k (s.locals k)) s' k)
    ?_ (fun s' h k => (h k).now_le) ?_ hxs
  · rintro s' ⟨k, t⟩ h hprompt i
    by_cases hik : i = k
    · -- the party that makes the step starts its next wait
      subst hik
      have hstep := lower i t s'.shared (s'.locals i)
      constructor
      · intro hbusy
        rw [next_self] at hbusy ⊢
        obtain ⟨hbefore, hle⟩ := hstep hbusy
        have hleft := (h i).left_le hbefore
        have hwait : t ≤ _ := hprompt i hbefore
        rw [since_self]
        omega
      · intro hbusy
        rw [next_self] at hbusy
        obtain ⟨hbefore, hle⟩ := hstep hbusy
        have hleft := (h i).left_le hbefore
        have hwait : t ≤ _ := hprompt i hbefore
        have hafter := nonneg i (step i t (s'.shared, s'.locals i)).2
        rw [next_now]
        omega
    · constructor
      · rw [next_other s' t hik, since_other s' t hik]
        exact (h i).left_le
      · intro hbusy
        rw [next_other s' t hik] at hbusy
        have hleft := (h i).left_le hbusy
        have hwait : t ≤ _ := hprompt i hbusy
        have hlimit := limit_le i (s'.locals i) hbusy
        rw [next_now]
        omega
  · intro k
    refine ⟨fun _ => le_rfl, fun _ => ?_⟩
    have hpos := nonneg k (s.locals k)
    have hk := hnow k
    omega

end TimedInterleaving

namespace TimedTrace
variable {ο : Type*} {p : ο → Bool} {gap : ℤ} {log : List (ℤ × ο)}

def stamp (t : ℤ) (os : List ο) : List (ℤ × ο) := os.map (Prod.mk t)

/-- An entry that `p` marks is `gap` later than all before it. -/
def Spaced (p : ο → Bool) (gap : ℤ) (log : List (ℤ × ο)) : Prop :=
  log.Pairwise fun a b => p b.2 = true → a.1 + gap ≤ b.1

theorem Spaced.append_stamp (h : Spaced p gap log) {t : ℤ} {os : List ο}
    (hos : ∀ o ∈ os, p o = true → os = [o] ∧ ∀ e ∈ log, e.1 + gap ≤ t) :
    Spaced p gap (log ++ stamp t os) := by
  refine List.pairwise_append.mpr ⟨h, ?_, ?_⟩
  · by_cases hany : ∃ o ∈ os, p o = true
    · obtain ⟨o, ho, hp⟩ := hany
      rw [(hos o ho hp).1]
      exact List.pairwise_singleton ..
    · apply List.pairwise_of_forall_mem_list
      intro a _ b hb hp
      obtain ⟨o, ho, rfl⟩ := List.mem_map.mp hb
      exact absurd ⟨o, ho, hp⟩ hany
  · intro a ha b hb hp
    obtain ⟨o, ho, rfl⟩ := List.mem_map.mp hb
    exact (hos o ho hp).2 a ha

theorem length_mul_le {a b : ℤ} {ts : List ℤ} (h : ts.Pairwise fun s t => s + gap ≤ t)
    (hab : a ≤ b + gap) (hts : ∀ t ∈ ts, a ≤ t ∧ t ≤ b) : gap * ts.length ≤ b - a + gap := by
  induction ts generalizing a with
  | nil =>
    rw [List.length_nil, Int.natCast_zero, Int.mul_zero]
    omega
  | cons t ts ih =>
    obtain ⟨hlater, hrest⟩ := List.pairwise_cons.mp h
    obtain ⟨hat, htb⟩ := hts t List.mem_cons_self
    have hcount := ih hrest (a := t + gap) (by omega)
      fun s hs => ⟨hlater s hs, (hts s (List.mem_cons_of_mem _ hs)).2⟩
    rw [List.length_cons, Int.natCast_succ, Int.mul_add, Int.mul_one]
    omega

def inWindow (p : ο → Bool) (a b : ℤ) (log : List (ℤ × ο)) : ℕ :=
  log.countP fun e => p e.2 && decide (a ≤ e.1 ∧ e.1 ≤ b)

theorem Spaced.inWindow_le (h : Spaced p gap log) {a b : ℤ} (hab : a ≤ b + gap) :
    gap * inWindow p a b log ≤ b - a + gap := by
  rw [inWindow, List.countP_eq_length_filter, ← List.length_map Prod.fst]
  refine length_mul_le ?_ hab ?_
  · rw [List.pairwise_map]
    have hsub := h.sublist (List.filter_sublist (p := fun e => p e.2 && decide (a ≤ e.1 ∧ e.1 ≤ b)))
    refine hsub.imp_of_mem fun _ hmem hspaced => hspaced ?_
    have hmarked := List.of_mem_filter hmem
    rw [Bool.and_eq_true] at hmarked
    exact hmarked.1
  · intro t ht
    obtain ⟨e, he, rfl⟩ := List.mem_map.mp ht
    have hmarked := List.of_mem_filter he
    rw [Bool.and_eq_true, decide_eq_true_iff] at hmarked
    exact hmarked.2

end TimedTrace
