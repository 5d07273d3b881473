import Mathlib.Data.List.TakeWhile
import Mathlib.Tactic.Common

/-!
# Logs and what they say after a mark

A log is a list that grows at its end. `afterFirst p log` is what was logged after
the first entry that `p` picks.
-/

namespace LogMarks
variable {α : Type*}

def afterFirst (p : α → Bool) (log : List α) : List α := (log.dropWhile fun a => !p a).tail

variable {p : α → Bool} {log : List α}

theorem afterFirst_unmarked (h : ∀ a ∈ log, p a = false) (a : α) :
    afterFirst p (log ++ [a]) = [] := by
  have hall : log.dropWhile (fun a => !p a) = [] :=
    List.dropWhile_eq_nil_iff.mpr fun b hb => by simp [h b hb]
  rw [afterFirst, List.dropWhile_append, hall]
  cases ha : p a <;> simp [ha]

theorem afterFirst_marked (h : ∃ a ∈ log, p a = true) (a : α) :
    afterFirst p (log ++ [a]) = afterFirst p log ++ [a] := by
  have hne : log.dropWhile (fun a => !p a) ≠ [] := by
    rw [Ne, List.dropWhile_eq_nil_iff]
    obtain ⟨b, hb, hmark⟩ := h
    exact fun hall => by simpa [hmark] using hall b hb
  rw [afterFirst, List.dropWhile_append, if_neg (by simpa using hne),
    List.tail_append_of_ne_nil hne, afterFirst]

end LogMarks
