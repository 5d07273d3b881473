import Mathlib.Data.Fintype.Card
import Mathlib.Data.Finset.Option
import Mathlib.Algebra.Order.BigOperators.Group.Finset
import Mathlib.Logic.Function.Basic
import Mathlib.Tactic.Common

/-!
# A ledger of owners

What is made gets a number and one owner, who may pass it on or free it. The ledger is
balanced if what is live is what has an owner, and nothing has two: nothing is then freed
twice, nothing is lost, and there are never more live things than owners.
-/

@[ext] structure Ledger (ω : Type*) where
  holds : ω → Option ℕ
  live : ℕ → Bool
  made : ℕ

namespace Ledger
variable {ω : Type*}

structure Balanced (l : Ledger ω) : Prop where
  owned : ∀ p, l.live p = true ↔ ∃ o, l.holds o = some p
  alone : ∀ o o' p, l.holds o = some p → l.holds o' = some p → o = o'
  unmade : ∀ p, l.made ≤ p → l.live p = false

variable {l : Ledger ω}

theorem Balanced.lt_made (h : l.Balanced) {o : ω} {p : ℕ} (ho : l.holds o = some p) :
    p < l.made := by
  by_contra hge
  have hlive := (h.owned p).mpr ⟨o, ho⟩
  rw [h.unmade p (not_lt.mp hge)] at hlive
  cases hlive

theorem Balanced.bounded [Fintype ω] (h : l.Balanced) :
    ∃ live : Finset ℕ, (∀ p, l.live p = true ↔ p ∈ live) ∧ live.card ≤ Fintype.card ω := by
  classical
  refine ⟨Finset.univ.biUnion fun o => (l.holds o).toFinset, fun p => ?_, ?_⟩
  · rw [h.owned p]
    simp
  · have hcard := Finset.card_biUnion_le_card_mul Finset.univ (fun o => (l.holds o).toFinset) 1
      fun o _ => by cases l.holds o <;> simp
    rwa [Nat.mul_one] at hcard

variable [DecidableEq ω]

def pass (l : Ledger ω) (a b : ω) : Ledger ω :=
  { l with holds := Function.update (Function.update l.holds b (l.holds a)) a none }

def make (l : Ledger ω) (o : ω) : Ledger ω where
  holds := Function.update l.holds o (some l.made)
  live := Function.update l.live l.made true
  made := l.made + 1

def free (l : Ledger ω) (o : ω) (p : ℕ) : Ledger ω :=
  { l with holds := Function.update l.holds o none, live := Function.update l.live p false }

theorem pass_holds {a b : ω} (hb : l.holds b = none) {o : ω} {p : ℕ} :
    (l.pass a b).holds o = some p ↔
      (o = b ∧ o ≠ a ∧ l.holds a = some p) ∨ (o ≠ a ∧ l.holds o = some p) := by
  by_cases hoa : o = a
  · subst hoa
    simp [pass]
  by_cases hob : o = b
  · subst hob
    simp [pass, hoa, hb]
  · simp [pass, hoa, hob]

theorem Balanced.pass (h : l.Balanced) {a b : ω} (hab : a ≠ b) (hb : l.holds b = none) :
    (l.pass a b).Balanced where
  owned p := by
    refine (h.owned p).trans ⟨fun ⟨o, ho⟩ => ?_, fun ⟨o, ho⟩ => ?_⟩
    · by_cases hoa : o = a
      · subst hoa
        exact ⟨b, (pass_holds hb).mpr (Or.inl ⟨rfl, hab.symm, ho⟩)⟩
      · exact ⟨o, (pass_holds hb).mpr (Or.inr ⟨hoa, ho⟩)⟩
    · rcases (pass_holds hb).mp ho with ⟨-, -, ha⟩ | ⟨-, ho⟩
      · exact ⟨a, ha⟩
      · exact ⟨o, ho⟩
  alone o o' p ho ho' := by
    rcases (pass_holds hb).mp ho with ⟨rfl, -, ha⟩ | ⟨hoa, ho⟩
    · rcases (pass_holds hb).mp ho' with ⟨rfl, -⟩ | ⟨hoa', ho'⟩
      · rfl
      · exact absurd (h.alone o' a p ho' ha) hoa'
    · rcases (pass_holds hb).mp ho' with ⟨-, -, ha⟩ | ⟨-, ho'⟩
      · exact absurd (h.alone o a p ho ha) hoa
      · exact h.alone o o' p ho ho'
  unmade := h.unmade

theorem make_holds {o : ω} (ho : l.holds o = none) {o' : ω} {p : ℕ} :
    (l.make o).holds o' = some p ↔ (o' = o ∧ p = l.made) ∨ l.holds o' = some p := by
  by_cases hoo : o' = o
  · subst hoo
    simp [make, ho, eq_comm]
  · simp [make, hoo]

theorem Balanced.make (h : l.Balanced) {o : ω} (ho : l.holds o = none) : (l.make o).Balanced where
  owned p := by
    have howned : (l.make o).live p = true ↔ p = l.made ∨ l.live p = true := by
      by_cases hp : p = l.made
      · subst hp
        simp [Ledger.make]
      · simp [Ledger.make, hp]
    rw [howned, h.owned p]
    refine ⟨fun hp => ?_, fun ⟨o', ho'⟩ => ?_⟩
    · rcases hp with hp | ⟨o', ho'⟩
      · exact ⟨o, (make_holds ho).mpr (Or.inl ⟨rfl, hp⟩)⟩
      · exact ⟨o', (make_holds ho).mpr (Or.inr ho')⟩
    · rcases (make_holds ho).mp ho' with ⟨-, hp⟩ | hp
      · exact Or.inl hp
      · exact Or.inr ⟨o', hp⟩
  alone a b p ha hb := by
    rcases (make_holds ho).mp ha with ⟨rfl, rfl⟩ | ha
    · rcases (make_holds ho).mp hb with ⟨rfl, -⟩ | hb
      · rfl
      · exact absurd (h.lt_made hb) (Nat.lt_irrefl _)
    · rcases (make_holds ho).mp hb with ⟨-, rfl⟩ | hb
      · exact absurd (h.lt_made ha) (Nat.lt_irrefl _)
      · exact h.alone a b p ha hb
  unmade p hp := by
    have hlt : l.made < p := hp
    exact (Function.update_of_ne hlt.ne' ..).trans (h.unmade p hlt.le)

theorem free_holds {o : ω} {p : ℕ} {o' : ω} {r : ℕ} :
    (l.free o p).holds o' = some r ↔ o' ≠ o ∧ l.holds o' = some r := by
  by_cases hoo : o' = o
  · subst hoo
    simp [free]
  · simp [free, hoo]

theorem Balanced.free (h : l.Balanced) {o : ω} {p : ℕ} (ho : l.holds o = some p) :
    (l.free o p).Balanced where
  owned r := by
    by_cases hr : r = p
    · subst hr
      refine iff_of_false (by simp [Ledger.free]) ?_
      rintro ⟨o', ho'⟩
      obtain ⟨hne, ho'⟩ := free_holds.mp ho'
      exact hne (h.alone o' o r ho' ho)
    · have hlive : (l.free o p).live r = l.live r := Function.update_of_ne hr ..
      rw [hlive, h.owned r]
      refine ⟨fun ⟨o', ho'⟩ => ⟨o', free_holds.mpr ⟨?_, ho'⟩⟩, fun ⟨o', ho'⟩ => ⟨o', ?_⟩⟩
      · rintro rfl
        exact hr (Option.some.inj (ho'.symm.trans ho))
      · exact (free_holds.mp ho').2
  alone a b r ha hb := h.alone a b r (free_holds.mp ha).2 (free_holds.mp hb).2
  unmade r hr := by
    by_cases hrp : r = p
    · subst hrp
      exact Function.update_self ..
    · exact (Function.update_of_ne hrp ..).trans (h.unmade r hr)

end Ledger
