import CecFix.Transducer

/-!
# Traces that follow a protocol

A protocol is a relation between a state, what is observed in it, and the state after.
`TracePath R q os p` says that the observations `os` lead from `q` to `p`. Traces are
put together end to end; a machine whose every step makes a loop at `q` makes loops at
`q` only, however long it runs.
-/

variable {Q ο : Type*}

def TracePath (R : Q → ο → Q → Prop) : Q → List ο → Q → Prop
  | q, [], p => q = p
  | q, o :: os, p => ∃ r, R q o r ∧ TracePath R r os p

namespace TracePath
variable {R : Q → ο → Q → Prop} {p q r : Q}

theorem refl (q : Q) : TracePath R q [] q := rfl

theorem single {o : ο} (h : R q o p) : TracePath R q [o] p := ⟨p, h, rfl⟩

theorem append {os os' : List ο} (h : TracePath R q os p) (h' : TracePath R p os' r) :
    TracePath R q (os ++ os') r := by
  induction os generalizing q with
  | nil =>
    obtain rfl : q = p := h
    exact h'
  | cons o os ih =>
    obtain ⟨s, ho, hrest⟩ := h
    exact ⟨s, ho, ih hrest⟩

theorem mono {S : Q → ο → Q → Prop} (hRS : ∀ q o p, R q o p → S q o p) {os : List ο}
    (h : TracePath R q os p) : TracePath S q os p := by
  induction os generalizing q with
  | nil => exact h
  | cons o os ih =>
    obtain ⟨s, ho, hrest⟩ := h
    exact ⟨s, hRS q o s ho, ih hrest⟩

theorem flatMap {α : Type*} {f : α → List ο} {xs : List α}
    (h : ∀ x ∈ xs, TracePath R q (f x) q) : TracePath R q (xs.flatMap f) q := by
  induction xs with
  | nil => rfl
  | cons x xs ih =>
    rw [List.flatMap_cons]
    exact (h x (by simp)).append (ih fun y hy => h y (by simp [hy]))

theorem outputs {σ ι ο' : Type*} {M : Transducer σ ι ο'} {I : σ → Prop} {g : ο' → Option ο}
    (keep : ∀ s x, I s → I (M.next s x))
    (step : ∀ s x, I s → TracePath R q ((M.emit s x).filterMap g) q) {s : σ} (hI : I s)
    (xs : List ι) : TracePath R q ((M.outputs s xs).flatten.filterMap g) q := by
  induction xs generalizing s with
  | nil => rfl
  | cons x xs ih =>
    rw [Transducer.outputs_cons, List.flatten_cons, List.filterMap_append]
    exact (step s x hI).append (ih (keep s x hI))

end TracePath
