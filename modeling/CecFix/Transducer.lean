import Mathlib.Data.List.Basic
import Mathlib.Order.Monotone.Basic
import Mathlib.Tactic.Common

/-!
# Deterministic machines with outputs, and rules for their runs

A `Transducer` reads one input at a time and emits finitely many outputs at
each. A schedule of several parties is the special case in which an input names
the party that takes its next atomic step. `Along C` says that every step of a
run meets a condition on the state it is made from, `Throughout P` that every
state a run visits meets `P`.

The rules below turn a fact about one step into a fact about runs: invariants
under a side condition on the steps, simulation with equal outputs, and the
ratchet rule, by which a potential that only grows, and grows strictly at the
steps that break `C`, shows that a run which ends where it began broke nothing.
-/

structure Transducer (σ ι ο : Type*) where
  next : σ → ι → σ
  emit : σ → ι → List ο

namespace Transducer
variable {σ τ ι κ ο υ : Type*}

def run (M : Transducer σ ι ο) : σ → List ι → σ
  | s, [] => s
  | s, x :: xs => run M (M.next s x) xs

def outputs (M : Transducer σ ι ο) : σ → List ι → List (List ο)
  | _, [] => []
  | s, x :: xs => M.emit s x :: outputs M (M.next s x) xs

def Along (M : Transducer σ ι ο) (C : σ → ι → Prop) : σ → List ι → Prop
  | _, [] => True
  | s, x :: xs => C s x ∧ Along M C (M.next s x) xs

def Throughout (M : Transducer σ ι ο) (P : σ → Prop) : σ → List ι → Prop
  | s, [] => P s
  | s, x :: xs => P s ∧ Throughout M P (M.next s x) xs

instance decidableAlong (M : Transducer σ ι ο) (C : σ → ι → Prop)
    [∀ s x, Decidable (C s x)] : ∀ s xs, Decidable (M.Along C s xs)
  | _, [] => inferInstanceAs (Decidable True)
  | s, x :: xs =>
    have := decidableAlong M C (M.next s x) xs
    inferInstanceAs (Decidable (C s x ∧ M.Along C (M.next s x) xs))

variable (M : Transducer σ ι ο)

@[simp] theorem run_nil (s : σ) : M.run s [] = s := rfl
@[simp] theorem run_cons (s : σ) (x : ι) (xs : List ι) :
    M.run s (x :: xs) = M.run (M.next s x) xs := rfl
@[simp] theorem outputs_nil (s : σ) : M.outputs s [] = [] := rfl
@[simp] theorem outputs_cons (s : σ) (x : ι) (xs : List ι) :
    M.outputs s (x :: xs) = M.emit s x :: M.outputs (M.next s x) xs := rfl
@[simp] theorem along_nil (C : σ → ι → Prop) (s : σ) : M.Along C s [] := trivial
@[simp] theorem along_cons (C : σ → ι → Prop) (s : σ) (x : ι) (xs : List ι) :
    M.Along C s (x :: xs) ↔ C s x ∧ M.Along C (M.next s x) xs := Iff.rfl
@[simp] theorem throughout_nil (P : σ → Prop) (s : σ) : M.Throughout P s [] ↔ P s := Iff.rfl
@[simp] theorem throughout_cons (P : σ → Prop) (s : σ) (x : ι) (xs : List ι) :
    M.Throughout P s (x :: xs) ↔ P s ∧ M.Throughout P (M.next s x) xs := Iff.rfl

theorem run_append (s : σ) (xs ys : List ι) :
    M.run s (xs ++ ys) = M.run (M.run s xs) ys := by
  induction xs generalizing s with
  | nil => rfl
  | cons x xs ih => exact ih (M.next s x)

variable {M}

theorem along_of_forall {C : σ → ι → Prop} {xs : List ι} (h : ∀ s, ∀ x ∈ xs, C s x) (s : σ) :
    M.Along C s xs := by
  induction xs generalizing s with
  | nil => trivial
  | cons x xs ih =>
    exact ⟨h s x (by simp), ih (fun s y hy => h s y (by simp [hy])) _⟩

theorem along_const_iff {p : ι → Prop} (s : σ) (xs : List ι) :
    M.Along (fun _ x => p x) s xs ↔ ∀ x ∈ xs, p x := by
  induction xs generalizing s with
  | nil => simp
  | cons x xs ih => rw [along_cons, ih, List.forall_mem_cons]

theorem along_and {C D : σ → ι → Prop} (s : σ) (xs : List ι) :
    M.Along (fun s x => C s x ∧ D s x) s xs ↔ M.Along C s xs ∧ M.Along D s xs := by
  induction xs generalizing s with
  | nil => simp
  | cons x xs ih => rw [along_cons, along_cons, along_cons, ih, and_and_and_comm]

/-- The invariant rule under a side condition on the steps: while the condition
holds, the invariant is kept and every step has the property `Q`. -/
theorem Along.of_invariant {I : σ → Prop} {C Q : σ → ι → Prop}
    (step : ∀ s x, I s → C s x → Q s x ∧ I (M.next s x)) {s : σ} {xs : List ι}
    (hI : I s) (hC : M.Along C s xs) : M.Along Q s xs := by
  induction xs generalizing s with
  | nil => trivial
  | cons x xs ih =>
    obtain ⟨hq, hn⟩ := step s x hI hC.1
    exact ⟨hq, ih hn hC.2⟩

theorem run_invariant {I : σ → Prop} {C : σ → ι → Prop}
    (step : ∀ s x, I s → C s x → I (M.next s x)) {s : σ} {xs : List ι}
    (hI : I s) (hC : M.Along C s xs) : I (M.run s xs) := by
  induction xs generalizing s with
  | nil => exact hI
  | cons x xs ih => exact ih (step s x hI hC.1) hC.2

theorem run_invariant_of_step {I : σ → Prop} (step : ∀ s x, I s → I (M.next s x))
    {s : σ} (hI : I s) (xs : List ι) : I (M.run s xs) :=
  run_invariant (C := fun _ _ => True) (fun s x h _ => step s x h) hI
    (along_of_forall (fun _ _ _ => trivial) s)

/-- A property that is never lost and is gained exactly at the steps outside `C`. -/
theorem run_iff_not_along {I P : σ → Prop} {C : σ → ι → Prop}
    (keep : ∀ s x, I s → I (M.next s x)) (step : ∀ s x, I s → (P (M.next s x) ↔ P s ∨ ¬ C s x))
    {s : σ} (hI : I s) (xs : List ι) : P (M.run s xs) ↔ P s ∨ ¬ M.Along C s xs := by
  induction xs generalizing s with
  | nil => simp
  | cons x xs ih => rw [run_cons, ih (keep s x hI), step s x hI, along_cons, not_and_or, or_assoc]

/-- Two conditions that agree on every state of the invariant are met along the same
runs. The invariant need survive only the steps that meet them. -/
theorem along_iff_of_kept {I : σ → Prop} {C Q D : σ → ι → Prop}
    (keep : ∀ s x, I s → D s x → C s x → I (M.next s x))
    (step : ∀ s x, I s → D s x → (Q s x ↔ C s x))
    {s : σ} {xs : List ι} (hI : I s) (hD : M.Along D s xs) : M.Along Q s xs ↔ M.Along C s xs := by
  induction xs generalizing s with
  | nil => exact Iff.rfl
  | cons x xs ih =>
    rw [along_cons, along_cons, step s x hI hD.1]
    exact and_congr_right fun hC => ih (keep s x hI hD.1 hC) hD.2

theorem along_iff {I : σ → Prop} {C Q D : σ → ι → Prop}
    (keep : ∀ s x, I s → D s x → I (M.next s x)) (step : ∀ s x, I s → D s x → (Q s x ↔ C s x))
    {s : σ} {xs : List ι} (hI : I s) (hD : M.Along D s xs) : M.Along Q s xs ↔ M.Along C s xs :=
  along_iff_of_kept (fun s x hI hD _ => keep s x hI hD) step hI hD

theorem throughout_of_invariant {I P : σ → Prop} {C : σ → ι → Prop}
    (step : ∀ s x, I s → C s x → I (M.next s x)) (hP : ∀ s, I s → P s) {s : σ} {xs : List ι}
    (hI : I s) (hC : M.Along C s xs) : M.Throughout P s xs := by
  induction xs generalizing s with
  | nil => exact hP s hI
  | cons x xs ih => exact ⟨hP s hI, ih (step s x hI hC.1) hC.2⟩

theorem throughout_first {P : σ → Prop} {s : σ} {xs : List ι} (h : M.Throughout P s xs) : P s := by
  cases xs with
  | nil => exact h
  | cons x xs => exact h.1

/-- If a step outside `C` leads out of `P` at once, the runs that stay in `P` are exactly
those whose steps all meet `C`. -/
theorem throughout_iff_along {I P : σ → Prop} {C : σ → ι → Prop}
    (keep : ∀ s x, I s → C s x → I (M.next s x)) (hP : ∀ s, I s → P s)
    (sharp : ∀ s x, I s → ¬ C s x → ¬ P (M.next s x)) {s : σ} (hI : I s) (xs : List ι) :
    M.Throughout P s xs ↔ M.Along C s xs := by
  refine ⟨fun h => ?_, throughout_of_invariant keep hP hI⟩
  induction xs generalizing s with
  | nil => trivial
  | cons x xs ih =>
    have hC : C s x := by
      by_contra hn
      exact sharp s x hI hn (throughout_first h.2)
    exact ⟨hC, ih (keep s x hI hC) h.2⟩

theorem throughout_append {P : σ → Prop} {s : σ} {xs ys : List ι} :
    M.Throughout P s (xs ++ ys) ↔ M.Throughout P s xs ∧ M.Throughout P (M.run s xs) ys := by
  induction xs generalizing s with
  | nil =>
    have hfirst : M.Throughout P s ys → P s := throughout_first
    exact ⟨fun h => ⟨hfirst h, h⟩, fun h => h.2⟩
  | cons x xs ih =>
    rw [List.cons_append, throughout_cons, throughout_cons, ih, and_assoc]
    rfl

theorem throughout_last {P : σ → Prop} {s : σ} {xs : List ι} (h : M.Throughout P s xs) :
    P (M.run s xs) := by
  induction xs generalizing s with
  | nil => exact h
  | cons x xs ih => exact ih h.2

theorem outputs_of_invariant {I : σ → Prop} {Q : ο → Prop}
    (keep : ∀ s x, I s → I (M.next s x)) (step : ∀ s x, I s → ∀ o ∈ M.emit s x, Q o)
    {s : σ} (hI : I s) (xs : List ι) : ∀ o ∈ (M.outputs s xs).flatten, Q o := by
  induction xs generalizing s with
  | nil => simp
  | cons x xs ih =>
    rw [outputs_cons, List.flatten_cons]
    exact List.forall_mem_append.mpr ⟨step s x hI, ih (keep s x hI)⟩

theorem countP_outputs_le {I : σ → Prop} {C : σ → ι → Prop} (p : ο → Bool) (q : ι → Bool)
    (keep : ∀ s x, I s → C s x → I (M.next s x))
    (step : ∀ s x, I s → C s x → (M.emit s x).countP p ≤ if q x then 1 else 0)
    {s : σ} {xs : List ι} (hI : I s) (hC : M.Along C s xs) :
    (M.outputs s xs).flatten.countP p ≤ xs.countP q := by
  induction xs generalizing s with
  | nil => simp
  | cons x xs ih =>
    have hx := step s x hI hC.1
    have hrest := ih (keep s x hI hC.1) hC.2
    simp only [outputs_cons, List.flatten_cons, List.countP_append, List.countP_cons]
    omega

section Simulation
variable {N : Transducer τ ι ο} {R : σ → τ → Prop} {C : σ → ι → Prop}

theorem outputs_eq_of_along
    (step : ∀ s t x, R s t → C s x → M.emit s x = N.emit t x ∧ R (M.next s x) (N.next t x))
    {s : σ} {t : τ} (hR : R s t) {xs : List ι} (hC : M.Along C s xs) :
    M.outputs s xs = N.outputs t xs := by
  induction xs generalizing s t with
  | nil => rfl
  | cons x xs ih =>
    obtain ⟨he, hn⟩ := step s t x hR hC.1
    simp only [outputs_cons, he, ih hn hC.2]

theorem run_related_of_along
    (step : ∀ s t x, R s t → C s x → M.emit s x = N.emit t x ∧ R (M.next s x) (N.next t x))
    {s : σ} {t : τ} (hR : R s t) {xs : List ι} (hC : M.Along C s xs) :
    R (M.run s xs) (N.run t xs) := by
  induction xs generalizing s t with
  | nil => exact hR
  | cons x xs ih => exact ih (step s t x hR hC.1).2 hC.2

/-- If moreover the first step that breaks `C` shows in the outputs, the runs on
which the machines agree are exactly those whose steps all meet `C`. -/
theorem outputs_eq_iff_along
    (step : ∀ s t x, R s t → C s x → M.emit s x = N.emit t x ∧ R (M.next s x) (N.next t x))
    (sharp : ∀ s t x, R s t → ¬ C s x → M.emit s x ≠ N.emit t x)
    {s : σ} {t : τ} (hR : R s t) (xs : List ι) :
    M.outputs s xs = N.outputs t xs ↔ M.Along C s xs := by
  refine ⟨fun h => ?_, outputs_eq_of_along step hR⟩
  induction xs generalizing s t with
  | nil => trivial
  | cons x xs ih =>
    simp only [outputs_cons, List.cons.injEq] at h
    have hC : C s x := by
      by_contra hn
      exact sharp s t x hR hn h.1
    exact ⟨hC, ih (step s t x hR hC).2 h.2⟩

end Simulation

/-- A potential that no step lowers and that every step outside `C` raises: a run
that ends no higher than it started has no step outside `C`. -/
theorem along_of_ratchet {I : σ → Prop} {C : σ → ι → Prop} (f : σ → ℤ)
    (keep : ∀ s x, I s → I (M.next s x)) (mono : ∀ s x, I s → f s ≤ f (M.next s x))
    (strict : ∀ s x, I s → ¬ C s x → f s < f (M.next s x)) {s : σ} (hI : I s) {xs : List ι}
    (hf : f (M.run s xs) ≤ f s) : M.Along C s xs := by
  have climb : ∀ (xs : List ι) (s : σ), I s → f s ≤ f (M.run s xs) := by
    intro xs
    induction xs with
    | nil => intro s _; exact le_rfl
    | cons x xs ih => intro s hs; exact (mono s x hs).trans (ih _ (keep s x hs))
  induction xs generalizing s with
  | nil => trivial
  | cons x xs ih =>
    have hrest := climb xs (M.next s x) (keep s x hI)
    have hC : C s x := by
      by_contra hn
      exact absurd (hrest.trans hf) (not_le.mpr (strict s x hI hn))
    exact ⟨hC, ih (keep s x hI) (hf.trans (mono s x hI))⟩

def total (M : Transducer σ ι ο) (f : σ → ι → ℤ) : σ → List ι → ℤ
  | _, [] => 0
  | s, x :: xs => f s x + total M f (M.next s x) xs

@[simp] theorem total_nil (f : σ → ι → ℤ) (s : σ) : M.total f s [] = 0 := rfl
@[simp] theorem total_cons (f : σ → ι → ℤ) (s : σ) (x : ι) (xs : List ι) :
    M.total f s (x :: xs) = f s x + M.total f (M.next s x) xs := rfl

theorem total_zero (s : σ) (xs : List ι) : M.total (fun _ _ => 0) s xs = 0 := by
  induction xs generalizing s with
  | nil => rfl
  | cons x xs ih => exact (Int.zero_add _).trans (ih (M.next s x))

theorem total_le {f g : σ → ι → ℤ} (h : ∀ s x, f s x ≤ g s x) (s : σ) (xs : List ι) :
    M.total f s xs ≤ M.total g s xs := by
  induction xs generalizing s with
  | nil => exact le_rfl
  | cons x xs ih => exact Int.add_le_add (h s x) (ih (M.next s x))

theorem total_add (f g : σ → ι → ℤ) (s : σ) (xs : List ι) :
    M.total (fun s x => f s x + g s x) s xs = M.total f s xs + M.total g s xs := by
  induction xs generalizing s with
  | nil => rfl
  | cons x xs ih =>
    rw [total_cons, ih, total_cons, total_cons]
    omega

theorem total_mul (c : ℤ) (f : σ → ι → ℤ) (s : σ) (xs : List ι) :
    M.total (fun s x => c * f s x) s xs = c * M.total f s xs := by
  induction xs generalizing s with
  | nil => exact (Int.mul_zero c).symm
  | cons x xs ih => rw [total_cons, ih, total_cons, Int.mul_add]

theorem total_change (f : σ → ℤ) (s : σ) (xs : List ι) :
    M.total (fun s x => f (M.next s x) - f s) s xs = f (M.run s xs) - f s := by
  induction xs generalizing s with
  | nil => exact (Int.sub_self _).symm
  | cons x xs ih =>
    rw [total_cons, ih, run_cons]
    omega

theorem total_le_of_potential {I : σ → Prop} {C : σ → ι → Prop} (cost credit : σ → ι → ℤ)
    (potential : σ → ℤ) (keep : ∀ s x, I s → C s x → I (M.next s x))
    (step : ∀ s x, I s → C s x → cost s x + potential (M.next s x) ≤ credit s x + potential s)
    {s : σ} {xs : List ι} (hI : I s) (hC : M.Along C s xs) :
    M.total cost s xs + potential (M.run s xs) ≤ M.total credit s xs + potential s := by
  induction xs generalizing s with
  | nil => simp
  | cons x xs ih =>
    have hx := step s x hI hC.1
    have hrest := ih (keep s x hI hC.1) hC.2
    rw [total_cons, total_cons, run_cons]
    omega

theorem countP_outputs_eq_total (p : ο → Bool) (s : σ) (xs : List ι) :
    ((M.outputs s xs).flatten.countP p : ℤ) = M.total (fun s x => ((M.emit s x).countP p : ℤ)) s xs := by
  induction xs generalizing s with
  | nil => rfl
  | cons x xs ih =>
    rw [outputs_cons, List.flatten_cons, List.countP_append, total_cons, ← ih]
    push_cast
    rfl

def observe (M : Transducer σ ι ο) (g : σ → ι → List υ) : Transducer σ ι υ := ⟨M.next, g⟩

/-- What the machine gives away, followed by what it still holds, is what it held and then
took: for `R` equality nothing is lost, for `R` the sublist relation nothing is made up or
reordered. -/
theorem flow {R : List υ → List υ → Prop} (refl : ∀ l, R l l)
    (trans : ∀ {k l m}, R k l → R l m → R k m)
    (append : ∀ {k l m n}, R k l → R m n → R (k ++ m) (l ++ n))
    (gives : σ → ι → List υ) (takes : ι → List υ) (held : σ → List υ) {I : σ → Prop}
    {C : σ → ι → Prop} (keep : ∀ s x, I s → C s x → I (M.next s x))
    (step : ∀ s x, I s → C s x → R (gives s x ++ held (M.next s x)) (held s ++ takes x))
    {s : σ} {xs : List ι} (hI : I s) (hC : M.Along C s xs) :
    R (((M.observe gives).outputs s xs).flatten ++ held (M.run s xs))
      (held s ++ xs.flatMap takes) := by
  induction xs generalizing s with
  | nil =>
    rw [outputs_nil, List.flatten_nil, List.nil_append, List.flatMap_nil, List.append_nil]
    exact refl _
  | cons x xs ih =>
    have hrest := ih (keep s x hI hC.1) hC.2
    have hhead := append (step s x hI hC.1) (refl (xs.flatMap takes))
    rw [outputs_cons, List.flatten_cons, List.flatMap_cons, run_cons, List.append_assoc]
    rw [List.append_assoc, List.append_assoc] at hhead
    exact trans (append (refl (gives s x)) hrest) hhead

/-- The machine driven by other inputs through `f`, of whose outputs `g` keeps some. -/
def adapt (M : Transducer σ ι ο) (f : κ → ι) (g : ο → Option υ) : Transducer σ κ υ where
  next s x := M.next s (f x)
  emit s x := (M.emit s (f x)).filterMap g

@[simp] theorem adapt_next (f : κ → ι) (g : ο → Option υ) (s : σ) (x : κ) :
    (M.adapt f g).next s x = M.next s (f x) := rfl

@[simp] theorem adapt_emit (f : κ → ι) (g : ο → Option υ) (s : σ) (x : κ) :
    (M.adapt f g).emit s x = (M.emit s (f x)).filterMap g := rfl

end Transducer
