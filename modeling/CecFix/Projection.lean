import CecFix.Transducer

/-!
# Machines within a machine

A machine `M` may have in it a machine `N` of its own: a view of the state of `M` that is a
state of `N`, and a reading of the inputs of `M`, some of which mean an input of `N` and the
others nothing to it. What `M` gives out that is to be watched is then what `N` gives out.

Runs of `M` project to runs of `N`, so that all that `N` does is decided by the inputs it
reads: nothing else that `M` is given or has in its state interferes.
-/

structure Projection {σ ι ο τ κ υ : Type*} (M : Transducer σ ι ο) (N : Transducer τ κ υ) where
  view : σ → τ
  read : ι → Option κ
  watch : ο → Option υ
  next_view : ∀ s x, view (M.next s x) = (read x).elim (view s) (N.next (view s))
  emit_watch : ∀ s x, (M.emit s x).filterMap watch = (read x).elim [] (N.emit (view s))

namespace Projection
variable {σ ι ο τ κ υ : Type*} {M : Transducer σ ι ο} {N : Transducer τ κ υ} (P : Projection M N)

def watched (s : σ) (xs : List ι) : List υ := (M.outputs s xs).flatten.filterMap P.watch

theorem watched_cons (s : σ) (x : ι) (xs : List ι) :
    P.watched s (x :: xs) = (M.emit s x).filterMap P.watch ++ P.watched (M.next s x) xs :=
  List.filterMap_append ..

theorem run_view (s : σ) (xs : List ι) :
    P.view (M.run s xs) = N.run (P.view s) (xs.filterMap P.read) := by
  induction xs generalizing s with
  | nil => rfl
  | cons x xs ih =>
    rw [Transducer.run_cons, ih, P.next_view]
    cases hx : P.read x with
    | none => rw [List.filterMap_cons_none hx, Option.elim_none]
    | some k => rw [List.filterMap_cons_some hx, Option.elim_some, Transducer.run_cons]

theorem watched_eq (s : σ) (xs : List ι) :
    P.watched s xs = (N.outputs (P.view s) (xs.filterMap P.read)).flatten := by
  induction xs generalizing s with
  | nil => rfl
  | cons x xs ih =>
    rw [watched_cons, ih, P.emit_watch, P.next_view]
    cases hx : P.read x with
    | none => rw [List.filterMap_cons_none hx, Option.elim_none, Option.elim_none, List.nil_append]
    | some k =>
      rw [List.filterMap_cons_some hx, Option.elim_some, Option.elim_some,
        Transducer.outputs_cons, List.flatten_cons]

/-- Runs that look alike to `N` at their start and in their inputs look alike to it at their
end and in their outputs. -/
theorem unaffected {s t : σ} (hview : P.view s = P.view t) {xs ys : List ι}
    (hread : xs.filterMap P.read = ys.filterMap P.read) :
    P.watched s xs = P.watched t ys ∧ P.view (M.run s xs) = P.view (M.run t ys) := by
  constructor
  · rw [watched_eq, watched_eq, hview, hread]
  · rw [run_view, run_view, hview, hread]

end Projection
