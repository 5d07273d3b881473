import CecFix.ConnectWithTimeout
import CecFix.Transducer

/-!
# The flags of the descriptor

The calls that `connect_with_timeout` makes with its descriptor, and the file status
flags from one of them to the next. `sockfd_flags_before` holds the outcome of the
comparison with 0 and not the flags: once `F_GETFL` has succeeded it is 0, so that both
`F_SETFL` calls take away every flag they can. A socket that has none of these flags
does not show it.
-/

namespace CecFix.DescriptorFlags
open Lan Connect

inductive FdCall where
  | getfl
  | setfl (arg : Flags) (result : Int)
  | connect
  | poll (now : Timespec) (ms : Int)
  | getsockopt

def askError : PollOutcome → List FdCall
  | .ready _ _ => [.getsockopt]
  | _ => []

def pollCalls (w : ℕ) (deadline : Timespec) : List Round → List FdCall
  | [] => []
  | r :: rs =>
    match r.clock with
    | none => []
    | some now =>
      let ms := msUntilDeadline w deadline now
      if ms < 0 then []
      else
        let (rc, errno) := polled r.poll
        let again := if rc = -1 ∧ errno = eIntr then pollCalls w deadline rs else []
        .poll now ms :: askError r.poll ++ again

def establishCalls (w timeoutMs : ℕ) (s : ConnectScript) : List FdCall :=
  .connect ::
    match s.connect with
    | .atOnce => []
    | .failed errno =>
      if errno ≠ eWouldBlock ∧ errno ≠ eInProgress then []
      else
        match s.start with
        | none => []
        | some now => pollCalls w (deadlineAfter w timeoutMs now) s.rounds

def connectCalls (w timeoutMs : ℕ) (s : ConnectScript) (flags : Flags) : List FdCall :=
  let got : Int := if s.getfl then flags.toNat else -1
  let flagsBefore : Flags := if got < 0 then 1 else 0
  if flagsBefore ≠ 0 then [.getfl]
  else if s.setNonblock < 0 then [.getfl, .setfl (flagsBefore ||| oNonblock) s.setNonblock]
  else
    let restoring : List FdCall :=
      match (establish w timeoutMs s).rc with
      | none => []
      | some _ => [.setfl flagsBefore s.restore]
    [.getfl, .setfl (flagsBefore ||| oNonblock) s.setNonblock] ++ establishCalls w timeoutMs s ++
      restoring

def descriptor : Transducer Flags FdCall Empty where
  next
    | flags, .setfl arg result => if result < 0 then flags else setfl flags arg
    | flags, _ => flags
  emit _ _ := []

/-- The flags are back when the call returns, and nothing but `O_NONBLOCK` came to them. -/
structure Restored (flags : Flags) (calls : List FdCall) : Prop where
  back : descriptor.run flags calls = flags
  between : descriptor.Throughout (fun f => f = flags ∨ f = flags ||| oNonblock) flags calls

def Keeps : FdCall → Prop
  | .setfl _ _ => False
  | _ => True

theorem descriptor_keeps {c : FdCall} (h : Keeps c) (flags : Flags) :
    descriptor.next flags c = flags := by
  cases c with
  | setfl arg result => exact h.elim
  | _ => rfl

theorem pollCalls_keep (w : ℕ) (deadline : Timespec) (rs : List Round) :
    ∀ c ∈ pollCalls w deadline rs, Keeps c := by
  induction rs with
  | nil => simp [pollCalls]
  | cons r rs ih =>
    have hask : ∀ c ∈ askError r.poll, Keeps c := by
      cases r.poll <;> simp [askError, Keeps]
    rw [pollCalls]
    cases r.clock with
    | none => simp
    | some now =>
      dsimp only
      split_ifs
      · simp
      · refine List.forall_mem_cons.mpr ⟨trivial, List.forall_mem_append.mpr ⟨hask, ih⟩⟩
      · refine List.forall_mem_cons.mpr ⟨trivial, List.forall_mem_append.mpr ⟨hask, by simp⟩⟩

theorem establishCalls_keep (w timeoutMs : ℕ) (s : ConnectScript) :
    ∀ c ∈ establishCalls w timeoutMs s, Keeps c := by
  rw [establishCalls]
  refine List.forall_mem_cons.mpr ⟨trivial, ?_⟩
  cases s.connect with
  | atOnce => simp
  | failed errno =>
    dsimp only
    split_ifs
    · simp
    · cases s.start with
      | none => simp
      | some now => exact pollCalls_keep w _ s.rounds

section Keeping
variable {calls : List FdCall} (h : ∀ c ∈ calls, Keeps c)
include h

theorem run_keeps (flags : Flags) : descriptor.run flags calls = flags :=
  Transducer.run_invariant (I := (· = flags)) (C := fun _ c => Keeps c)
    (fun f _ hf hc => (descriptor_keeps hc f).trans hf) rfl
    ((Transducer.along_const_iff flags calls).mpr h)

theorem throughout_keeps {P : Flags → Prop} {flags : Flags} (hP : P flags) :
    descriptor.Throughout P flags calls :=
  Transducer.throughout_of_invariant (I := (· = flags)) (C := fun _ c => Keeps c)
    (fun f _ hf hc => (descriptor_keeps hc f).trans hf) (fun _ hf => hf ▸ hP) rfl
    ((Transducer.along_const_iff flags calls).mpr h)

end Keeping

def FdCall.asked : FdCall → Option (Timespec × Int)
  | .poll now ms => some (now, ms)
  | _ => none

theorem askError_asked (p : PollOutcome) : (askError p).filterMap FdCall.asked = [] := by
  cases p with
  | ready pending getsockopt => rfl
  | _ => rfl

theorem pollCalls_asked (w : ℕ) (deadline : Timespec) (rs : List Round) :
    (pollCalls w deadline rs).filterMap FdCall.asked = (pollLoop w deadline rs).asked := by
  induction rs with
  | nil => rfl
  | cons r rs ih =>
    rw [pollCalls, pollLoop]
    cases r.clock with
    | none => rfl
    | some now =>
      dsimp only
      split_ifs
      · rfl
      · simp [askError_asked, FdCall.asked, ih, Waited.after]
      · simp [askError_asked, FdCall.asked]

theorem establishCalls_asked (w timeoutMs : ℕ) (s : ConnectScript) :
    (establishCalls w timeoutMs s).filterMap FdCall.asked = (establish w timeoutMs s).asked := by
  unfold establishCalls establish
  cases s.connect with
  | atOnce => rfl
  | failed errno =>
    dsimp only
    split_ifs
    · rfl
    · cases s.start with
      | none => rfl
      | some now => exact pollCalls_asked w _ s.rounds

def restoring (s : ConnectScript) (x : Waited) : List FdCall :=
  match x.rc with
  | none => []
  | some _ => [.setfl 0 s.restore]

theorem restoring_asked (s : ConnectScript) (x : Waited) :
    (restoring s x).filterMap FdCall.asked = [] := by
  rw [restoring]
  cases x.rc with
  | none => rfl
  | some rc => rfl

theorem calls_cases (w timeoutMs : ℕ) (s : ConnectScript) (flags : Flags) :
    (s.getfl = false ∧ connectCalls w timeoutMs s flags = [.getfl] ∧
        connectWithTimeout w timeoutMs s flags = ⟨some (-9), flags, []⟩) ∨
      (s.setNonblock < 0 ∧ connectCalls w timeoutMs s flags =
          [.getfl, .setfl (0 ||| oNonblock) s.setNonblock] ∧
        connectWithTimeout w timeoutMs s flags = ⟨some (-9), flags, []⟩) ∨
      (0 ≤ s.setNonblock ∧ connectCalls w timeoutMs s flags =
          [.getfl, .setfl (0 ||| oNonblock) s.setNonblock] ++ establishCalls w timeoutMs s ++
            restoring s (establish w timeoutMs s) ∧
        connectWithTimeout w timeoutMs s flags =
          finish s.restore 0 (setfl flags (0 ||| oNonblock)) (establish w timeoutMs s)) := by
  rw [connectCalls]
  rcases connect_cases w timeoutMs s flags with ⟨hfails, hc⟩ | ⟨hget, hset, hc⟩
  · cases hget : s.getfl with
    | false => exact Or.inl ⟨rfl, rfl, hc⟩
    | true =>
      have hgot : ¬ (flags.toNat : Int) < 0 := not_lt.mpr (Int.natCast_nonneg _)
      have hset : s.setNonblock < 0 := by simpa [hget] using hfails
      rw [if_pos rfl, if_neg hgot, if_neg (not_not.mpr rfl), if_pos hset]
      exact Or.inr (Or.inl ⟨hset, rfl, hc⟩)
  · have hgot : ¬ (flags.toNat : Int) < 0 := not_lt.mpr (Int.natCast_nonneg _)
    rw [if_pos hget, if_neg hgot, if_neg (not_not.mpr rfl), if_neg (not_lt.mpr hset)]
    exact Or.inr (Or.inr ⟨hset, rfl, hc⟩)

theorem connectCalls_asked (w timeoutMs : ℕ) (s : ConnectScript) (flags : Flags) :
    (connectCalls w timeoutMs s flags).filterMap FdCall.asked =
      (connectWithTimeout w timeoutMs s flags).asked := by
  rcases calls_cases w timeoutMs s flags with ⟨-, h, hc⟩ | ⟨-, h, hc⟩ | ⟨-, h, hc⟩
  · rw [h, hc]
    rfl
  · rw [h, hc]
    rfl
  · have hopening : [.getfl, .setfl (0 ||| oNonblock) s.setNonblock].filterMap FdCall.asked = [] :=
      rfl
    rw [h, hc, finish_asked, List.filterMap_append, List.filterMap_append, hopening,
      restoring_asked, establishCalls_asked, List.nil_append, List.append_nil]

theorem connectCalls_flags (w timeoutMs : ℕ) (s : ConnectScript) (flags : Flags) :
    descriptor.run flags (connectCalls w timeoutMs s flags) =
      (connectWithTimeout w timeoutMs s flags).flags := by
  rcases calls_cases w timeoutMs s flags with ⟨-, h, hc⟩ | ⟨hset, h, hc⟩ | ⟨hset, h, hc⟩
  · rw [h, hc]
    rfl
  · rw [h, hc]
    simp [descriptor, hset]
  · rw [h, hc, Transducer.run_append, Transducer.run_append,
      run_keeps (establishCalls_keep w timeoutMs s), restoring, finish]
    cases (establish w timeoutMs s).rc with
    | none => simp [descriptor, not_lt.mpr hset]
    | some rc =>
      by_cases hrestore : s.restore < 0
      · simp [descriptor, not_lt.mpr hset, hrestore]
      · simp [descriptor, not_lt.mpr hset, hrestore]

theorem setfl_setfl (flags a b : Flags) : setfl (setfl flags a) b = setfl flags b := by
  unfold setfl
  generalize settable = m
  ext i
  simp
  cases m[i] <;> simp

theorem setfl_zero (flags : Flags) : setfl flags 0 = flags &&& ~~~settable := by
  simp [setfl]

theorem setfl_zero_eq_iff (flags : Flags) : setfl flags 0 = flags ↔ flags &&& settable = 0 := by
  rw [setfl_zero]
  generalize settable = m
  constructor
  · intro h
    calc flags &&& m = (flags &&& ~~~m) &&& m := by rw [h]
      _ = 0 := by rw [BitVec.and_assoc, BitVec.not_and_self]; exact BitVec.and_zero
  · intro h
    have hsplit : flags &&& ~~~m ||| flags &&& m = flags := by
      ext i
      simp
      cases m[i] <;> simp
    calc flags &&& ~~~m = flags &&& ~~~m ||| 0 := BitVec.or_zero.symm
      _ = flags := by rw [← h, hsplit]

theorem setfl_nonblock_eq {flags : Flags} (h : flags &&& settable = 0) :
    setfl flags (0 ||| oNonblock) = flags ||| oNonblock := by
  have hset : (0 ||| oNonblock) &&& settable = oNonblock := by decide
  rw [setfl, hset, ← setfl_zero, (setfl_zero_eq_iff flags).mpr h]

section Restore
variable {s : ConnectScript} (hfcntl : s.FcntlWorks) (w timeoutMs : ℕ) (flags : Flags)
include hfcntl

theorem connectCalls_of_fcntl {rc : Int}
    (hrc : (connectWithTimeout w timeoutMs s flags).rc = some rc) :
    connectCalls w timeoutMs s flags =
      [.getfl, .setfl (0 ||| oNonblock) s.setNonblock] ++ establishCalls w timeoutMs s ++
        [.setfl 0 s.restore] := by
  rw [connect_rc hfcntl] at hrc
  rcases calls_cases w timeoutMs s flags with ⟨hget, -⟩ | ⟨hset, -⟩ | ⟨-, h, -⟩
  · simp [hfcntl.getfl] at hget
  · exact absurd hfcntl.setNonblock (not_le.mpr hset)
  · rw [h, restoring, hrc]

theorem run_nonblock :
    descriptor.run flags [.getfl, .setfl (0 ||| oNonblock) s.setNonblock] =
      setfl flags (0 ||| oNonblock) := by
  simp [descriptor, not_lt.mpr hfcntl.setNonblock]

theorem run_restore : descriptor.run flags [.setfl 0 s.restore] = setfl flags 0 := by
  simp [descriptor, not_lt.mpr hfcntl.restore]

/-- The flags are restored exactly if there is none that `F_SETFL` could change. -/
theorem restored_iff {rc : Int} (hrc : (connectWithTimeout w timeoutMs s flags).rc = some rc) :
    Restored flags (connectCalls w timeoutMs s flags) ↔ flags &&& settable = 0 := by
  have hback : descriptor.run flags (connectCalls w timeoutMs s flags) = setfl flags 0 := by
    rw [connectCalls_of_fcntl hfcntl w timeoutMs flags hrc, Transducer.run_append,
      Transducer.run_append, run_keeps (establishCalls_keep w timeoutMs s),
      run_nonblock hfcntl, run_restore hfcntl, setfl_setfl]
  constructor
  · intro hr
    exact (setfl_zero_eq_iff flags).mp (hback.symm.trans hr.back)
  · intro hflags
    have hsame := (setfl_zero_eq_iff flags).mpr hflags
    have hnonblock := setfl_nonblock_eq hflags
    have hend : descriptor.run (flags ||| oNonblock) [.setfl 0 s.restore] = flags := by
      rw [run_restore hfcntl, ← hnonblock, setfl_setfl, hsame]
    refine ⟨hback.trans hsame, ?_⟩
    rw [connectCalls_of_fcntl hfcntl w timeoutMs flags hrc, List.append_assoc,
      Transducer.throughout_append, run_nonblock hfcntl, hnonblock,
      Transducer.throughout_append, run_keeps (establishCalls_keep w timeoutMs s)]
    refine ⟨⟨Or.inl rfl, Or.inl rfl, Or.inr ?_⟩,
      throughout_keeps (establishCalls_keep w timeoutMs s) (Or.inr rfl),
      Or.inr rfl, Or.inl hend⟩
    exact (run_nonblock hfcntl flags).trans hnonblock

end Restore

theorem restored_of_fresh :
    Restored freshFlags (connectCalls 32 sockTimeoutMs (waiting [⟨some ⟨0, 0⟩, .timedOut⟩])
      freshFlags) := by
  have hrc : (connectWithTimeout 32 sockTimeoutMs (waiting [⟨some ⟨0, 0⟩, .timedOut⟩])
      freshFlags).rc = some (-1) := by decide
  exact (restored_iff ⟨rfl, le_rfl, le_rfl⟩ 32 sockTimeoutMs freshFlags hrc).mpr (by decide)

theorem flags_lost :
    let flags := freshFlags ||| oNonblock ||| 0x2000
    let script := waiting [⟨some ⟨0, 0⟩, .ready 0 true⟩]
    (connectWithTimeout 32 sockTimeoutMs script flags).rc = some 1 ∧
      (connectWithTimeout 32 sockTimeoutMs script flags).flags = freshFlags ∧
      ¬ Restored flags (connectCalls 32 sockTimeoutMs script flags) := by
  refine ⟨by decide, by decide, fun h => ?_⟩
  have hback := h.back
  rw [connectCalls_flags] at hback
  revert hback
  decide

end CecFix.DescriptorFlags
