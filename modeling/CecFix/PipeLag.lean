import CecFix.PipeToBus

/-!
# Commands that come late

A write that finds a `SIGIO` pending raises none of its own, and one read takes one line. The
command that is not read for stays in the pipe, and from then on each read takes the command
before the one it was raised for. Only a `SIGIO` without a write makes up for it.
-/

namespace CecFix.PipeLag
open Cec PipeToBus
open Fifo hiding Step

def merged (s : System) : Step → ℤ
  | .write _ => if s.pending then 1 else 0
  | _ => 0

def due (s : System) : ℤ := s.pending.toNat + s.handler.toRead

def waiting (s : System) : ℤ := (commands s.pipe).length

def lag (s : System) : ℤ := waiting s - due s

def Resting (s : System) : Prop := s.pending = false ∧ s.handler = .idle

def merges (host : Bytes) (xs : List Step) : ℤ := system.total merged (.start host) xs

theorem commands_lines (cs : List Command) : commands (cs.flatMap echoed) = cs := by
  induction cs with
  | nil => rfl
  | cons c cs ih => rw [List.flatMap_cons, commands_line, ih]

theorem merged_nonneg (s : System) (x : Step) : 0 ≤ merged s x := by
  cases x with
  | write bytes =>
    simp only [merged]
    split_ifs <;> decide
  | signal | handler | callback => exact le_rfl

theorem lag_next (s : System) (x : Step) : lag (system.next s x) = lag (s.moved x) := by
  obtain ⟨hpipe, hhandler⟩ := next_pipe s x
  have hpending : (system.next s x).pending = (s.moved x).pending := by
    simp only [system]
    split
    · rfl
    · rfl
  rw [lag, waiting, due, hpipe, hhandler, hpending]
  rfl

theorem lag_write (s : System) (c : Command) :
    lag (s.moved (.write (echoed c))) = lag s + merged s (.write (echoed c)) := by
  have hline : (commands (echoed c)).length = 1 := congrArg List.length (commands_line c [])
  simp only [lag, waiting, due, merged, System.moved, commands_append, List.length_append, hline]
  cases s.pending with
  | true =>
    rw [if_pos rfl]
    push_cast
    omega
  | false =>
    rw [if_neg Bool.false_ne_true, Bool.toNat_true, Bool.toNat_false]
    push_cast
    omega

theorem lag_signal (s : System) : lag (s.moved .signal) ≤ lag s := by
  have hle : (s.pending.toNat : ℤ) ≤ 1 := Int.ofNat_le.mpr (Bool.toNat_le s.pending)
  simp only [lag, waiting, due, System.moved, Bool.toNat_true]
  omega

theorem lag_handler {s : System} (h : Lined s) (net : TvInputs) :
    lag (s.moved (.handler net)) = lag s ∨ (lag s < 0 ∧ lag (s.moved (.handler net)) ≤ 0) := by
  obtain ⟨cs, hpipe⟩ := h
  simp only [System.moved]
  cases hh : s.handler with
  | idle =>
    cases hp : s.pending with
    | true =>
      refine Or.inl ?_
      simp only [lag, waiting, due, hh, hp, HandlerPc.toRead, Bool.toNat_true, Bool.toNat_false,
        if_true]
      omega
    | false => exact Or.inl rfl
  | entered =>
    have hpending : (0 : ℤ) ≤ s.pending.toNat := Int.natCast_nonneg _
    simp only [lag, waiting, due, hh, hpipe, (read_lines cs).2, commands_lines, HandlerPc.toRead]
    cases cs with
    | nil =>
      refine Or.inr ⟨?_, ?_⟩
      · simp
        omega
      · simp
    | cons c cs =>
      refine Or.inl ?_
      simp
  | read callback =>
    refine Or.inl ?_
    simp only [lag, waiting, due, hh, HandlerPc.toRead]

theorem lag_step {s : System} (h : Lined s) {x : Step} (hx : x.Whole) :
    max (lag (system.next s x)) 0 ≤ merged s x + max (lag s) 0 ∧
      (x ≠ .signal → 0 ≤ lag s → lag (system.next s x) = merged s x + lag s) := by
  rw [lag_next]
  cases x with
  | write bytes =>
    obtain ⟨c, rfl⟩ := hx
    have hmerged := merged_nonneg s (.write (echoed c))
    rw [lag_write]
    omega
  | signal =>
    have hle := lag_signal s
    refine ⟨?_, fun hne => absurd rfl hne⟩
    simp only [merged]
    omega
  | handler net =>
    have hstep := lag_handler h net
    simp only [merged]
    omega
  | callback parsed net =>
    simp only [merged, System.moved]
    omega

/-- When the handler is at rest after writes of whole lines, at most as many commands wait in
the pipe as writes found a signal pending; exactly as many if there was no signal without
a write. -/
theorem waiting_merged (host : Bytes) (xs : List Step) (hwhole : ∀ x ∈ xs, x.Whole)
    (hrest : Resting (system.run (.start host) xs)) :
    waiting (system.run (.start host) xs) ≤ merges host xs ∧
      ((∀ x ∈ xs, x ≠ .signal) → waiting (system.run (.start host) xs) = merges host xs) := by
  have hlag : lag (system.run (.start host) xs) = waiting (system.run (.start host) xs) := by
    rw [lag, due, hrest.1, hrest.2]
    exact Int.sub_zero _
  have hlines : Lined (.start host) := ⟨[], rfl⟩
  have hzero : lag (.start host) = 0 := rfl
  have hle : waiting (system.run (.start host) xs) ≤ merges host xs := by
    have hrun := Transducer.total_le_of_potential (M := system) (I := Lined)
      (C := fun _ x => x.Whole) (fun _ _ => 0) merged
      (fun s => max (lag s) 0) (fun _ _ h hx => lined_next h hx)
      (fun s x h hx => by have hstep := (lag_step h hx).1; omega) hlines
      ((Transducer.along_const_iff _ xs).mpr hwhole)
    rw [Transducer.total_zero, hlag, hzero] at hrun
    change _ ≤ merges host xs + _ at hrun
    omega
  refine ⟨hle, fun hsignal => ?_⟩
  have hstep : ∀ s x, (Lined s ∧ 0 ≤ lag s) → (x.Whole ∧ x ≠ .signal) →
      lag (system.next s x) = merged s x + lag s :=
    fun s x h hx => (lag_step h.1 hx.1).2 hx.2 h.2
  have hkeep : ∀ s x, (Lined s ∧ 0 ≤ lag s) → (x.Whole ∧ x ≠ .signal) →
      Lined (system.next s x) ∧ 0 ≤ lag (system.next s x) := by
    intro s x h hx
    have hmerged := merged_nonneg s x
    refine ⟨lined_next h.1 hx.1, ?_⟩
    rw [hstep s x h hx]
    exact Int.add_nonneg hmerged h.2
  have halong : system.Along (fun _ x => x.Whole ∧ x ≠ .signal) (.start host) xs :=
    (Transducer.along_const_iff _ xs).mpr fun x hx => ⟨hwhole x hx, hsignal x hx⟩
  have hrun := Transducer.total_le_of_potential merged (fun _ _ => 0)
    (fun s => - lag s) hkeep (fun s x h hx => by have heq := hstep s x h hx; omega)
    ⟨hlines, le_of_eq hzero.symm⟩ halong
  rw [Transducer.total_zero, hlag, hzero] at hrun
  change merges host xs + _ ≤ _ at hrun
  omega

theorem waiting_merged_once :
    waiting (system.run (.start []) [.write (echoed .off), .write (echoed .on),
      .handler unreachable, .handler unreachable, .handler unreachable]) =
    merges [] [.write (echoed .off), .write (echoed .on),
      .handler unreachable, .handler unreachable, .handler unreachable] :=
  (waiting_merged [] _ (by simp [Step.Whole]) ⟨rfl, rfl⟩).2 (by simp)

end CecFix.PipeLag
