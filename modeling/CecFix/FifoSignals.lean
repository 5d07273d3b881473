import CecFix.CString
import CecFix.Transducer

/-!
# Commands on the named pipe

`handleSIGIO` of `fifo.cpp` and its runs under signals. The handler reads once, two
bytes at most, and looks at the first of them. SIGIO is blocked while its handler
runs and is pending at most once, so that several writes may share one handler
call. Both callbacks are registered before the handler is installed; the tests
for a null callback always pass and are left out.
-/

namespace CecFix.Fifo

def fifoCommandSize : ℕ := 2

inductive Command where
  | off
  | on
  deriving DecidableEq

/-- `OFF_COMMAND` and `ON_COMMAND`, "0" and "1" -/
def digit : Command → UInt8
  | .off => 0x30
  | .on => 0x31

structure Handled where
  pipe : List UInt8
  callback : Option Command

/-- `strncmp(buffer, ..., 1)` compares the first byte. -/
def handleSigio (pipe : List UInt8) : Handled :=
  let got := pipe.take fifoCommandSize
  let rest := pipe.drop fifoCommandSize
  if got.length < 1 then ⟨rest, none⟩
  else
    let buffer := CString.load fifoCommandSize got
    if buffer.head? = some (digit .off) then ⟨rest, some .off⟩
    else if buffer.head? = some (digit .on) then ⟨rest, some .on⟩
    else ⟨rest, none⟩

def isDigit (b : UInt8) : Bool := b == digit .off || b == digit .on

def digits (pipe : List UInt8) : ℕ := pipe.countP isDigit

theorem handleSigio_pipe (pipe : List UInt8) : (handleSigio pipe).pipe = pipe.drop 2 := by
  unfold handleSigio
  dsimp only
  split_ifs <;> rfl

theorem handleSigio_digit (c : Command) (rest : List UInt8) :
    (handleSigio (digit c :: rest)).callback = some c := by
  cases c <;> cases rest <;>
    simp [handleSigio, fifoCommandSize, CString.load, CString.memcpy, digit]

theorem handleSigio_callback_le (pipe : List UInt8) :
    (handleSigio pipe).callback.toList.length ≤ digits (pipe.take 2) := by
  cases pipe with
  | nil => simp [handleSigio]
  | cons b rest =>
    by_cases hoff : b = digit .off
    · subst hoff
      rw [handleSigio_digit]
      simp [digits, isDigit]
    · by_cases hon : b = digit .on
      · subst hon
        rw [handleSigio_digit]
        simp [digits, isDigit]
      · simp [handleSigio, fifoCommandSize, CString.load, CString.memcpy, hoff, hon]

structure Write where
  command : Command
  newline : Bool

def Write.bytes (w : Write) : List UInt8 :=
  if w.newline then [digit w.command, 0x0A] else [digit w.command]

inductive HandlerPc where
  | idle
  | entered
  | read (callback : Option Command)
  deriving DecidableEq

structure Line where
  pipe : List UInt8
  pending : Bool
  handler : HandlerPc
  written : List Command
  called : List Command

def Line.initial : Line := ⟨[], false, .idle, [], []⟩

inductive Step where
  | write (w : Write)
  | handler

def Line.next (s : Line) : Step → Line
  | .write w =>
    { s with pipe := s.pipe ++ w.bytes, pending := true, written := s.written ++ [w.command] }
  | .handler =>
    match s.handler with
    | .idle => if s.pending then { s with pending := false, handler := .entered } else s
    | .entered =>
      let h := handleSigio s.pipe
      { s with pipe := h.pipe, handler := .read h.callback }
    | .read callback => { s with handler := .idle, called := s.called ++ callback.toList }

def line : Transducer Line Step Unit where
  next := Line.next
  emit _ _ := []

def Line.Quiescent (s : Line) : Prop := s.pending = false ∧ s.handler = .idle

/-- A write raises a signal of its own, and a read finds no second command in the
two bytes it takes. -/
def Unmerged (s : Line) : Step → Prop
  | .write _ => s.pending = false
  | .handler => s.handler = .entered → digits (s.pipe.take 2) ≤ 1

instance (s : Line) : ∀ x, Decidable (Unmerged s x)
  | .write _ => inferInstanceAs (Decidable (s.pending = false))
  | .handler => inferInstanceAs (Decidable (s.handler = .entered → digits (s.pipe.take 2) ≤ 1))

def HandlerPc.inFlight : HandlerPc → List Command
  | .read callback => callback.toList
  | _ => []

def HandlerPc.toRead : HandlerPc → ℕ
  | .entered => 1
  | _ => 0

def Aligned (s : Line) : Prop :=
  ∃ ws : List Write, s.pipe = ws.flatMap Write.bytes ∧
    s.written = s.called ++ s.handler.inFlight ++ ws.map Write.command ∧
    ws.length = s.pending.toNat + s.handler.toRead

theorem bytes_take (w : Write) (rest : List Write)
    (h : digits ((w.bytes ++ rest.flatMap Write.bytes).take 2) ≤ 1) (hlen : rest.length ≤ 1) :
    (w.bytes ++ rest.flatMap Write.bytes).drop 2 = rest.flatMap Write.bytes := by
  obtain ⟨c, newline⟩ := w
  cases newline with
  | true => simp [Write.bytes]
  | false =>
    cases rest with
    | nil => simp [Write.bytes]
    | cons v vs =>
      obtain ⟨d, nl⟩ := v
      cases c <;> cases d <;> cases nl <;> simp [Write.bytes, digits, isDigit, digit] at h

theorem aligned_step (s : Line) (x : Step) (h : Aligned s) (hx : Unmerged s x) :
    Aligned (line.next s x) := by
  obtain ⟨ws, hpipe, hwritten, hlen⟩ := h
  cases x with
  | write w =>
    have hp : s.pending = false := hx
    refine ⟨ws ++ [w], ?_, ?_, ?_⟩
    · simp [line, Line.next, hpipe]
    · simp [line, Line.next, hwritten]
    · simp only [line, Line.next, List.length_append, List.length_singleton, hlen, hp,
        Bool.toNat_false, Bool.toNat_true]
      omega
  | handler =>
    cases hh : s.handler with
    | idle =>
      cases hp : s.pending with
      | false =>
        refine ⟨ws, ?_, ?_, ?_⟩ <;> simp [line, Line.next, hh, hp, hpipe, hwritten, hlen]
      | true =>
        simp only [hh, hp, HandlerPc.inFlight, HandlerPc.toRead] at hwritten hlen
        refine ⟨ws, ?_, ?_, ?_⟩ <;>
          simp [line, Line.next, hh, hp, hpipe, hwritten, hlen, HandlerPc.inFlight,
            HandlerPc.toRead]
    | entered =>
      have hdig : digits (s.pipe.take 2) ≤ 1 := hx hh
      simp only [hh, HandlerPc.inFlight, HandlerPc.toRead] at hwritten hlen
      obtain ⟨w, rest, rfl⟩ : ∃ w rest, ws = w :: rest := by
        cases ws with
        | nil => simp at hlen
        | cons w rest => exact ⟨w, rest, rfl⟩
      have hrest : rest.length = s.pending.toNat := by simpa using hlen
      have hle : rest.length ≤ 1 := hrest ▸ Bool.toNat_le s.pending
      rw [hpipe, List.flatMap_cons] at hdig
      have hcall : (handleSigio s.pipe).callback = some w.command := by
        rw [hpipe]
        cases hw : w.newline <;> simp [Write.bytes, hw, handleSigio_digit]
      refine ⟨rest, ?_, ?_, ?_⟩
      · simp only [line, Line.next, hh, handleSigio_pipe]
        rw [hpipe, List.flatMap_cons, bytes_take w rest hdig hle]
      · simp [line, Line.next, hh, hwritten, hcall, HandlerPc.inFlight]
      · simp [line, Line.next, hh, hrest, HandlerPc.toRead]
    | read callback =>
      simp only [hh, HandlerPc.inFlight, HandlerPc.toRead] at hwritten hlen
      refine ⟨ws, ?_, ?_, ?_⟩ <;>
        simp [line, Line.next, hh, hpipe, hwritten, hlen, HandlerPc.inFlight, HandlerPc.toRead]

theorem called_eq_written {s : Line} (h : Aligned s) (hq : s.Quiescent) : s.called = s.written := by
  obtain ⟨ws, -, hwritten, hlen⟩ := h
  obtain ⟨hp, hh⟩ := hq
  simp only [hp, hh, HandlerPc.toRead, Bool.toNat_false, Nat.add_zero, List.length_eq_zero_iff] at hlen
  simpa [hh, hlen, HandlerPc.inFlight] using hwritten.symm

def lost (s : Line) : ℤ :=
  let missing : ℤ := s.written.length - s.called.length - s.handler.inFlight.length
  (missing - s.pending.toNat - s.handler.toRead) + (missing - digits s.pipe)

theorem digits_take_drop (pipe : List UInt8) :
    digits pipe = digits (pipe.take 2) + digits (pipe.drop 2) := by
  rw [digits, ← List.take_append_drop 2 pipe, List.countP_append]
  simp [digits]

theorem digits_write (pipe : List UInt8) (w : Write) : digits (pipe ++ w.bytes) = digits pipe + 1 := by
  obtain ⟨c, newline⟩ := w
  cases c <;> cases newline <;> simp [digits, Write.bytes, isDigit, digit]

theorem lost_step (s : Line) (x : Step) :
    lost s ≤ lost (line.next s x) ∧ (¬ Unmerged s x → lost s < lost (line.next s x)) := by
  cases x with
  | write w =>
    have hd := digits_write s.pipe w
    cases hp : s.pending with
    | false =>
      simp only [lost, line, Line.next, hd, hp, Unmerged, List.length_append, List.length_singleton,
        Bool.toNat_false, Bool.toNat_true]
      constructor
      · omega
      · simp
    | true =>
      simp only [lost, line, Line.next, hd, hp, List.length_append, List.length_singleton,
        Bool.toNat_true]
      omega
  | handler =>
    cases hh : s.handler with
    | idle =>
      cases hp : s.pending with
      | false => simp [lost, line, Line.next, hh, hp, Unmerged]
      | true => simp [lost, line, Line.next, hh, hp, Unmerged, HandlerPc.inFlight, HandlerPc.toRead]
    | entered =>
      have hle := handleSigio_callback_le s.pipe
      have hd := digits_take_drop s.pipe
      simp only [lost, line, Line.next, hh, handleSigio_pipe, HandlerPc.inFlight, HandlerPc.toRead,
        List.length_nil, Unmerged]
      have hone : (handleSigio s.pipe).callback.toList.length ≤ 1 := by
        cases (handleSigio s.pipe).callback <;> simp
      constructor
      · omega
      · intro hn
        have : ¬ digits (s.pipe.take 2) ≤ 1 := fun h => hn fun _ => h
        omega
    | read callback =>
      simp only [lost, line, Line.next, hh, HandlerPc.inFlight, HandlerPc.toRead, Unmerged,
        List.length_append, List.length_nil]
      constructor
      · omega
      · simp

/-- In a run that comes to rest, the callbacks run are the commands written exactly
if each write raised a signal of its own and no read took two commands at once. -/
theorem fifo_exact_iff (xs : List Step) (hq : (line.run .initial xs).Quiescent) :
    (line.run .initial xs).called = (line.run .initial xs).written ↔
      line.Along Unmerged .initial xs := by
  constructor
  · intro h
    apply Transducer.along_of_ratchet (I := fun _ => True) lost (fun _ _ _ => trivial)
      (fun s x _ => (lost_step s x).1) (fun s x _ hx => (lost_step s x).2 hx) trivial
    have h0 : lost .initial = 0 := rfl
    rw [h0]
    obtain ⟨hp, hh⟩ := hq
    simp only [lost, hp, hh, h, HandlerPc.inFlight, HandlerPc.toRead, Bool.toNat_false,
      List.length_nil]
    omega
  · intro h
    exact called_eq_written (Transducer.run_invariant aligned_step ⟨[], rfl, rfl, rfl⟩ h) hq

theorem fifo_exact_two :
    let xs : List Step := [.write ⟨.off, false⟩, .handler, .handler, .handler,
      .write ⟨.on, true⟩, .handler, .handler, .handler]
    (line.run .initial xs).called = (line.run .initial xs).written ↔
      line.Along Unmerged .initial xs :=
  fifo_exact_iff _ ⟨rfl, rfl⟩

theorem second_command_lost :
    let xs : List Step := [.write ⟨.off, false⟩, .write ⟨.on, false⟩, .handler, .handler, .handler]
    (line.run .initial xs).Quiescent ∧ (line.run .initial xs).written = [.off, .on] ∧
      (line.run .initial xs).called = [.off] :=
  ⟨⟨rfl, rfl⟩, rfl, rfl⟩

end CecFix.Fifo
