import CecFix.PipeLifetimes

/-!
# The daemon's life under signals

`main` one system call at a time, `initLAN` and `initCEC` as one step each, with signals at
any moment in between. A signal goes to the main thread; its handler runs to the end before
the thread goes on, and a `pause` that it interrupts returns. Until `main` has installed its
handler, `SIGINT` kills the process. `SIGIO` is raised by writes to the pipe and by nothing
else, from the call that sets `O_ASYNC` until the descriptor is closed. A `fatal` signal is
one that ends the process at once: `SIGKILL`, one that nobody handles (`SIGTERM`, `SIGHUP`)
or one that the process brings upon itself (`SIGPIPE` at a `send`, `SIGSEGV`, `SIGABRT`).
The path of the pipe is left alone by everybody else.

`want_run` is tested in one step and the process goes to sleep in a later one. A `SIGINT`
between these two is handled but wakes nobody.
-/

namespace CecFix.ProcessLife
open PipeLifetimes

inductive Pc where
  | initLan
  | initCec
  | sigactionIo
  | mkfifo
  | openFifo
  | setOwn
  | setFl
  | setSig
  | sigactionInt
  | test
  | pause
  | asleep
  | closeFifo
  | removeFifo
  | exited (code : Int)
  | killed
  deriving DecidableEq

structure Process where
  pc : Pc
  pipe : Pipe
  wantRun : Bool
  ioHandler : Bool
  intHandler : Bool
  async : Bool

def Process.start (path : Bool) : Process := ⟨.initLan, .atStart path, true, false, false, false⟩

def Process.goto (s : Process) (pc : Pc) : Process := { s with pc := pc }

def Process.withPipe (s : Process) (p : Pipe) (pc : Pc) : Process := { s with pipe := p, pc := pc }

/-- One step of `main`. `initFIFO` returns -1 wherever one of its calls fails, and `main`
then returns 1. -/
def mainStep (l : Lifetime) (s : Process) : Process :=
  match s.pc with
  | .initLan => s.goto (if initLAN l.argc l.host l.exchanges then .initCec else .exited 1)
  | .initCec => s.goto (if initCEC l.cec then .sigactionIo else .exited 1)
  | .sigactionIo =>
    if l.fifo.sigaction < 0 then s.goto (.exited 1) else { s.goto .mkfifo with ioHandler := true }
  | .mkfifo =>
    let (p, made) := s.pipe.mkfifo l.fifo.mkfifo
    s.withPipe p (if made ≠ 0 then .exited 1 else .openFifo)
  | .openFifo =>
    let p := s.pipe.openFd l.fifo.openFifo
    s.withPipe p (if p.fifoFd < 1 then .exited 1 else .setOwn)
  | .setOwn => s.goto (if l.fifo.setOwn ≠ 0 then .exited 1 else .setFl)
  | .setFl =>
    if l.fifo.setFl ≠ 0 then s.goto (.exited 1) else { s.goto .setSig with async := true }
  | .setSig => s.goto (if l.fifo.setSig ≠ 0 then .exited 1 else .sigactionInt)
  | .sigactionInt => { s.goto .test with intHandler := true }
  | .test => s.goto (if s.wantRun then .pause else .closeFifo)
  | .pause => s.goto .asleep
  | .asleep => s
  | .closeFifo =>
    if l.cleanup.close ≠ 0 then s.goto (.exited (-1))
    else
      { s.withPipe { s.pipe with opened := s.pipe.opened.erase s.pipe.fifoFd } .removeFifo with
        async := false }
  | .removeFifo =>
    if l.cleanup.remove ≠ 0 then s.goto (.exited (-1))
    else s.withPipe { s.pipe with path := false } (.exited 0)
  | .exited _ => s
  | .killed => s

def Pc.Ended : Pc → Prop
  | .exited _ | .killed => True
  | _ => False

instance : ∀ pc : Pc, Decidable pc.Ended
  | .exited _ => isTrue trivial
  | .killed => isTrue trivial
  | .initLan | .initCec | .sigactionIo | .mkfifo | .openFifo | .setOwn | .setFl | .setSig
  | .sigactionInt | .test | .pause | .asleep | .closeFifo | .removeFifo => isFalse id

def Pc.woken : Pc → Pc
  | .asleep => .test
  | pc => pc

def handleSIGINT (s : Process) : Process :=
  if s.pc.Ended then s
  else if s.intHandler then { s.goto s.pc.woken with wantRun := false }
  else s.goto .killed

/-- The callback that the handler runs touches nothing that is looked at here. It runs on the
thread of `main`, which takes its next step when the callback has ended. -/
def raiseSigio (s : Process) : Process :=
  if s.pc.Ended then s
  else if s.async then
    if s.ioHandler then s.goto s.pc.woken else s.goto .killed
  else s

def raiseFatal (s : Process) : Process := if s.pc.Ended then s else s.goto .killed

inductive Step where
  | main
  | sigint
  | sigio
  | fatal
  deriving DecidableEq

def process (l : Lifetime) : Transducer Process Step Empty where
  next
    | s, .main => mainStep l s
    | s, .sigint => handleSIGINT s
    | s, .sigio => raiseSigio s
    | s, .fatal => raiseFatal s
  emit _ _ := []

def Pc.Starting : Pc → Prop
  | .initLan | .initCec | .sigactionIo | .mkfifo | .openFifo | .setOwn | .setFl | .setSig
  | .sigactionInt => True
  | _ => False

instance : ∀ pc : Pc, Decidable pc.Starting
  | .initLan | .initCec | .sigactionIo | .mkfifo | .openFifo | .setOwn | .setFl | .setSig
  | .sigactionInt => isTrue trivial
  | .test | .pause | .asleep | .closeFifo | .removeFifo | .exited _ | .killed => isFalse id

def Pc.awaitsIo : Pc → Bool
  | .initLan | .initCec | .sigactionIo => false
  | _ => true

def Pc.hearsWrites : Pc → Bool
  | .setSig | .sigactionInt | .test | .pause | .asleep | .closeFifo => true
  | _ => false

def Pc.awaitsInt : Pc → Bool
  | .test | .pause | .asleep | .closeFifo | .removeFifo => true
  | _ => false

def Equipped (s : Process) : Prop :=
  ¬ s.pc.Ended → s.ioHandler = s.pc.awaitsIo ∧ s.async = s.pc.hearsWrites ∧
    s.intHandler = s.pc.awaitsInt

theorem starting_iff {pc : Pc} : pc.Starting ↔ ¬ pc.Ended ∧ pc.awaitsInt = false := by
  cases pc <;> simp [Pc.Starting, Pc.Ended, Pc.awaitsInt]

@[simp] theorem goto_pc (s : Process) (pc : Pc) : (s.goto pc).pc = pc := rfl
@[simp] theorem goto_pipe (s : Process) (pc : Pc) : (s.goto pc).pipe = s.pipe := rfl
@[simp] theorem goto_wantRun (s : Process) (pc : Pc) : (s.goto pc).wantRun = s.wantRun := rfl
@[simp] theorem goto_ioHandler (s : Process) (pc : Pc) : (s.goto pc).ioHandler = s.ioHandler := rfl
@[simp] theorem goto_intHandler (s : Process) (pc : Pc) :
    (s.goto pc).intHandler = s.intHandler := rfl
@[simp] theorem goto_async (s : Process) (pc : Pc) : (s.goto pc).async = s.async := rfl
@[simp] theorem withPipe_pc (s : Process) (p : Pipe) (pc : Pc) : (s.withPipe p pc).pc = pc := rfl
@[simp] theorem withPipe_pipe (s : Process) (p : Pipe) (pc : Pc) :
    (s.withPipe p pc).pipe = p := rfl
@[simp] theorem withPipe_wantRun (s : Process) (p : Pipe) (pc : Pc) :
    (s.withPipe p pc).wantRun = s.wantRun := rfl
@[simp] theorem withPipe_ioHandler (s : Process) (p : Pipe) (pc : Pc) :
    (s.withPipe p pc).ioHandler = s.ioHandler := rfl
@[simp] theorem withPipe_intHandler (s : Process) (p : Pipe) (pc : Pc) :
    (s.withPipe p pc).intHandler = s.intHandler := rfl
@[simp] theorem withPipe_async (s : Process) (p : Pipe) (pc : Pc) :
    (s.withPipe p pc).async = s.async := rfl

theorem woken_ended {pc : Pc} : pc.woken.Ended ↔ pc.Ended := by
  cases pc <;> exact Iff.rfl

theorem woken_flags (pc : Pc) : pc.woken.awaitsIo = pc.awaitsIo ∧
    pc.woken.hearsWrites = pc.hearsWrites ∧ pc.woken.awaitsInt = pc.awaitsInt := by
  cases pc <;> exact ⟨rfl, rfl, rfl⟩

theorem sigint_cases (s : Process) :
    (s.pc.Ended ∧ handleSIGINT s = s) ∨
    (¬ s.pc.Ended ∧ s.intHandler = true ∧
      handleSIGINT s = { s.goto s.pc.woken with wantRun := false }) ∨
    (¬ s.pc.Ended ∧ s.intHandler = false ∧ handleSIGINT s = s.goto .killed) := by
  by_cases hended : s.pc.Ended
  · exact Or.inl ⟨hended, if_pos hended⟩
  · rw [handleSIGINT, if_neg hended]
    cases hint : s.intHandler with
    | true => exact Or.inr (Or.inl ⟨hended, rfl, rfl⟩)
    | false => exact Or.inr (Or.inr ⟨hended, rfl, rfl⟩)

theorem sigio_cases {s : Process} (h : s.async = true → s.ioHandler = true) :
    raiseSigio s = s ∨ (¬ s.pc.Ended ∧ s.async = true ∧ raiseSigio s = s.goto s.pc.woken) := by
  by_cases hended : s.pc.Ended
  · exact Or.inl (if_pos hended)
  · rw [raiseSigio, if_neg hended]
    cases hasync : s.async with
    | false => exact Or.inl rfl
    | true =>
      rw [h hasync]
      exact Or.inr ⟨hended, rfl, rfl⟩

theorem Equipped.quiet {s : Process} (h : Equipped s) (hended : ¬ s.pc.Ended) :
    s.async = true → s.ioHandler = true := by
  obtain ⟨hio, hasync, -⟩ := h hended
  rw [hio, hasync]
  cases s.pc <;> simp [Pc.awaitsIo, Pc.hearsWrites]

theorem equipped_start (path : Bool) : Equipped (Process.start path) :=
  fun _ => ⟨rfl, rfl, rfl⟩

theorem equipped_main (l : Lifetime) {s : Process} (h : Equipped s) : Equipped (mainStep l s) := by
  obtain ⟨pc, pipe, wantRun, ioHandler, intHandler, async⟩ := s
  cases pc with
  | exited _ | killed | asleep => exact h
  | _ =>
    obtain ⟨hio, hasync, hint⟩ := h id
    simp only at hio hasync hint
    subst hio hasync hint
    simp only [mainStep, Process.goto, Process.withPipe]
    -- a failing call leads to an exit, where nothing is asked of the flags
    first
    | exact fun _ => ⟨rfl, rfl, rfl⟩
    | split_ifs <;> intro hended <;>
        first | exact absurd trivial hended | exact ⟨rfl, rfl, rfl⟩

theorem Equipped.woken {s : Process} (h : Equipped s) {b : Bool} :
    Equipped { s.goto s.pc.woken with wantRun := b } := by
  intro hended
  obtain ⟨hio, hasync, hint⟩ := woken_flags s.pc
  have hflags := h (fun hs => hended (woken_ended.mpr hs))
  exact ⟨hflags.1.trans hio.symm, hflags.2.1.trans hasync.symm, hflags.2.2.trans hint.symm⟩

theorem equipped_next (l : Lifetime) {s : Process} (h : Equipped s) (x : Step) :
    Equipped ((process l).next s x) := by
  cases x with
  | main => exact equipped_main l h
  | sigint =>
    change Equipped (handleSIGINT s)
    rcases sigint_cases s with ⟨-, heq⟩ | ⟨-, -, heq⟩ | ⟨-, -, heq⟩
    · rwa [heq]
    · rw [heq]
      exact h.woken
    · rw [heq]
      exact fun hended => absurd trivial hended
  | sigio =>
    change Equipped (raiseSigio s)
    by_cases hended : s.pc.Ended
    · rwa [raiseSigio, if_pos hended]
    · rcases sigio_cases (h.quiet hended) with heq | ⟨-, -, heq⟩
      · rwa [heq]
      · rw [heq]
        exact h.woken (b := s.wantRun)
  | fatal =>
    change Equipped (raiseFatal s)
    rw [raiseFatal]
    split_ifs
    · exact h
    · exact fun hended => absurd trivial hended

/-! ### What a process returns -/

def running (l : Lifetime) : Pipe × Int → Pipe × Int
  | (p, ret) => if ret < 0 then (p, 1) else cleanupFIFO l.cleanup p

def flagging (r : FifoCalls) (p : Pipe) : Pipe × Int :=
  if r.setFl ≠ 0 then (p, -1) else if r.setSig ≠ 0 then (p, -1) else (p, 1)

def owning (r : FifoCalls) (p : Pipe) : Pipe × Int :=
  if r.setOwn ≠ 0 then (p, -1) else flagging r p

def opening (r : FifoCalls) (p : Pipe) : Pipe × Int :=
  if (p.openFd r.openFifo).fifoFd < 1 then (p.openFd r.openFifo, -1)
  else owning r (p.openFd r.openFifo)

def making (r : FifoCalls) (p : Pipe) : Pipe × Int :=
  if (p.mkfifo r.mkfifo).2 ≠ 0 then ((p.mkfifo r.mkfifo).1, -1)
  else opening r (p.mkfifo r.mkfifo).1

def rest (l : Lifetime) : Pc → Pipe → Pipe × Int
  | .initLan, p => main l p
  | .initCec, p => if !initCEC l.cec then (p, 1) else running l (initFIFO l.fifo p)
  | .sigactionIo, p => running l (if l.fifo.sigaction < 0 then (p, -1) else making l.fifo p)
  | .mkfifo, p => running l (making l.fifo p)
  | .openFifo, p => running l (opening l.fifo p)
  | .setOwn, p => running l (owning l.fifo p)
  | .setFl, p => running l (flagging l.fifo p)
  | .setSig, p => running l (if l.fifo.setSig ≠ 0 then (p, -1) else (p, 1))
  | .sigactionInt, p | .test, p | .pause, p | .asleep, p | .closeFifo, p =>
    cleanupFIFO l.cleanup p
  | .removeFifo, p => if l.cleanup.remove ≠ 0 then (p, -1) else ({ p with path := false }, 0)
  | .exited code, p => (p, code)
  | .killed, p => (p, 1)

theorem rest_main (l : Lifetime) (s : Process) :
    rest l (mainStep l s).pc (mainStep l s).pipe = rest l s.pc s.pipe := by
  obtain ⟨pc, pipe, wantRun, ioHandler, intHandler, async⟩ := s
  cases pc with
  | initLan =>
    simp only [mainStep, goto_pc, goto_pipe, rest, main]
    cases initLAN l.argc l.host l.exchanges <;> rfl
  | initCec =>
    simp only [mainStep, goto_pc, goto_pipe, rest]
    cases initCEC l.cec <;> rfl
  | sigactionIo =>
    dsimp only [mainStep, rest]
    split_ifs <;> rfl
  | mkfifo =>
    dsimp only [mainStep, rest, making, withPipe_pc, withPipe_pipe]
    split_ifs <;> rfl
  | openFifo =>
    dsimp only [mainStep, rest, opening, withPipe_pc, withPipe_pipe]
    split_ifs <;> rfl
  | setOwn =>
    dsimp only [mainStep, rest, owning, goto_pc, goto_pipe]
    split_ifs <;> rfl
  | setFl =>
    dsimp only [mainStep, rest, flagging]
    split_ifs <;> rfl
  | setSig =>
    dsimp only [mainStep, rest, goto_pc, goto_pipe]
    split_ifs <;> rfl
  | test => cases wantRun <;> rfl
  | closeFifo =>
    dsimp only [mainStep, rest, cleanupFIFO]
    split_ifs <;> rfl
  | removeFifo =>
    dsimp only [mainStep, rest]
    split_ifs <;> rfl
  | sigactionInt | pause | asleep | exited | killed => rfl

theorem rest_next {l : Lifetime} {s : Process} (x : Step)
    (h : ((process l).next s x).pc ≠ .killed) :
    rest l ((process l).next s x).pc ((process l).next s x).pipe = rest l s.pc s.pipe := by
  have hwoken : rest l s.pc.woken s.pipe = rest l s.pc s.pipe := by cases s.pc <;> rfl
  cases x with
  | main => exact rest_main l s
  | sigint =>
    change (handleSIGINT s).pc ≠ .killed at h
    change rest l (handleSIGINT s).pc (handleSIGINT s).pipe = _
    rcases sigint_cases s with ⟨-, heq⟩ | ⟨-, -, heq⟩ | ⟨-, -, heq⟩
    · rw [heq]
    · rw [heq]
      exact hwoken
    · rw [heq] at h
      exact absurd rfl h
  | sigio =>
    change (raiseSigio s).pc ≠ .killed at h
    change rest l (raiseSigio s).pc (raiseSigio s).pipe = _
    rw [raiseSigio] at h ⊢
    split_ifs at h ⊢
    · rfl
    · exact hwoken
    · exact absurd rfl h
    · rfl
  | fatal =>
    change (raiseFatal s).pc ≠ .killed at h
    change rest l (raiseFatal s).pc (raiseFatal s).pipe = _
    rw [raiseFatal] at h ⊢
    split_ifs at h ⊢
    · rfl
    · exact absurd rfl h

theorem main_kills (l : Lifetime) {s : Process} (h : (mainStep l s).pc = .killed) :
    s.pc = .killed := by
  obtain ⟨pc, pipe, wantRun, ioHandler, intHandler, async⟩ := s
  cases pc with
  | killed => rfl
  | sigactionInt | pause | asleep | exited => cases h
  | _ =>
    dsimp only [mainStep, Process.goto, Process.withPipe] at h
    split_ifs at h

theorem killed_stays {l : Lifetime} {s : Process} (h : s.pc = .killed) (x : Step) :
    ((process l).next s x).pc = .killed := by
  have hended : s.pc.Ended := by rw [h]; trivial
  cases x with
  | main =>
    change (mainStep l s).pc = .killed
    rw [mainStep, h]
    exact h
  | sigint => exact (congrArg Process.pc (if_pos hended)).trans h
  | sigio => exact (congrArg Process.pc (if_pos hended)).trans h
  | fatal => exact (congrArg Process.pc (if_pos hended)).trans h

def Pc.Uncalled : Pc → Prop
  | .closeFifo | .removeFifo => False
  | .exited code => code = 1
  | _ => True

def Uncalled (s : Process) : Prop := s.wantRun = true ∧ s.pc.Uncalled

theorem uncalled_main (l : Lifetime) {s : Process} (h : Uncalled s) : Uncalled (mainStep l s) := by
  obtain ⟨pc, pipe, wantRun, ioHandler, intHandler, async⟩ := s
  obtain ⟨rfl, hpc⟩ := h
  cases pc with
  | asleep | killed | exited => exact ⟨rfl, hpc⟩
  | sigactionInt | test | pause => exact ⟨rfl, trivial⟩
  | closeFifo | removeFifo => exact hpc.elim
  | _ =>
    dsimp only [mainStep, Process.goto, Process.withPipe]
    split_ifs
    · first | exact ⟨rfl, rfl⟩ | exact ⟨rfl, trivial⟩
    · first | exact ⟨rfl, trivial⟩ | exact ⟨rfl, rfl⟩

theorem uncalled_next {l : Lifetime} {s : Process} (h : Uncalled s) {x : Step}
    (hx : x ≠ .sigint) : Uncalled ((process l).next s x) := by
  have hwoken : s.pc.woken.Uncalled := by
    have hpc := h.2
    cases hs : s.pc <;> rw [hs] at hpc <;> exact hpc
  cases x with
  | sigint => exact absurd rfl hx
  | main => exact uncalled_main l h
  | sigio =>
    change Uncalled (raiseSigio s)
    rw [raiseSigio]
    split_ifs
    · exact h
    · exact ⟨h.1, hwoken⟩
    · exact ⟨h.1, trivial⟩
    · exact h
  | fatal =>
    change Uncalled (raiseFatal s)
    rw [raiseFatal]
    split_ifs
    · exact h
    · exact ⟨h.1, trivial⟩

def Spared (s : Process) : Step → Prop
  | .sigint => ¬ s.pc.Starting
  | .fatal => s.pc.Ended
  | _ => True

theorem killed_next {l : Lifetime} {s : Process} (h : Equipped s) (x : Step) :
    ((process l).next s x).pc = .killed ↔ s.pc = .killed ∨ ¬ Spared s x := by
  by_cases hkilled : s.pc = .killed
  · exact iff_of_true (killed_stays hkilled x) (Or.inl hkilled)
  have hwoken : s.pc.woken ≠ .killed := by
    cases hs : s.pc <;> rw [hs] at hkilled <;> simp_all [Pc.woken]
  rw [or_iff_right hkilled]
  cases x with
  | main => exact iff_of_false (fun h => hkilled (main_kills l h)) (not_not.mpr trivial)
  | sigint =>
    rw [Spared, not_not, starting_iff]
    change (handleSIGINT s).pc = .killed ↔ _
    rcases sigint_cases s with ⟨hended, heq⟩ | ⟨hended, hint, heq⟩ | ⟨hended, hint, heq⟩
    · rw [heq]
      exact iff_of_false hkilled (fun h => h.1 hended)
    · rw [heq, (h hended).2.2.symm.trans hint]
      exact iff_of_false hwoken (fun h => Bool.noConfusion h.2)
    · rw [heq]
      exact iff_of_true rfl ⟨hended, (h hended).2.2.symm.trans hint⟩
  | sigio =>
    refine iff_of_false (fun hnext => ?_) (not_not.mpr trivial)
    change (raiseSigio s).pc = .killed at hnext
    by_cases hended : s.pc.Ended
    · rw [raiseSigio, if_pos hended] at hnext
      exact hkilled hnext
    · rcases sigio_cases (h.quiet hended) with heq | ⟨-, -, heq⟩
      · rw [heq] at hnext
        exact hkilled hnext
      · rw [heq] at hnext
        exact hwoken hnext
  | fatal =>
    change (raiseFatal s).pc = .killed ↔ ¬ s.pc.Ended
    rw [raiseFatal]
    split_ifs with hended
    · exact iff_of_false hkilled (not_not.mpr hended)
    · exact iff_of_true rfl hended

theorem rest_run (l : Lifetime) (s : Process) (xs : List Step) :
    ((process l).run s xs).pc = .killed ∨
      rest l ((process l).run s xs).pc ((process l).run s xs).pipe = rest l s.pc s.pipe := by
  refine Transducer.run_invariant_of_step (M := process l)
    (I := fun t => t.pc = .killed ∨ rest l t.pc t.pipe = rest l s.pc s.pipe)
    (fun t x h => ?_) (Or.inr rfl) xs
  rcases h with h | h
  · exact Or.inl (killed_stays h x)
  · by_cases hkilled : ((process l).next t x).pc = .killed
    · exact Or.inl hkilled
    · exact Or.inr ((rest_next x hkilled).trans h)

/-- Whatever signals come and when, a process that exits has done to the pipe what an
undisturbed `main` does and returns the same code; without a `SIGINT` that code is 1. A
process is killed exactly if a fatal signal comes, or a `SIGINT` before its handler is there. -/
theorem exits_as_main (l : Lifetime) (path : Bool) (xs : List Step) :
    let s := (process l).run (.start path) xs
    (∀ code, s.pc = .exited code →
      main l (.atStart path) = (s.pipe, code) ∧ (code ≠ 1 → Step.sigint ∈ xs)) ∧
    (s.pc = .killed ↔ ¬ (process l).Along Spared (.start path) xs) := by
  refine ⟨fun code hcode => ⟨?_, fun hne => ?_⟩, ?_⟩
  · rcases rest_run l (.start path) xs with h | h
    · rw [hcode] at h
      cases h
    · rw [hcode] at h
      exact h.symm
  · by_contra hmem
    have hstart : Uncalled (Process.start path) := ⟨rfl, trivial⟩
    have hnone : (process l).Along (fun _ x => x ≠ .sigint) (.start path) xs :=
      (Transducer.along_const_iff _ xs).mpr fun x hx => ne_of_mem_of_not_mem hx hmem
    have huncalled : Uncalled ((process l).run (.start path) xs) :=
      Transducer.run_invariant (I := Uncalled) (fun _ _ h hx => uncalled_next h hx) hstart hnone
    have hone := huncalled.2
    rw [hcode] at hone
    exact hne hone
  · have h := Transducer.run_iff_not_along (M := process l) (I := Equipped)
      (P := fun s => s.pc = .killed) (fun s x h => equipped_next l h x)
      (fun s x h => killed_next h x) (equipped_start path) xs
    rwa [or_iff_right (fun h => Pc.noConfusion h)] at h

/-! ### Who leaves the path behind -/

def Pc.HasPath : Pc → Prop
  | .openFifo | .setOwn | .setFl | .setSig | .sigactionInt | .test | .pause | .asleep
  | .closeFifo | .removeFifo => True
  | _ => False

instance : ∀ pc : Pc, Decidable pc.HasPath
  | .initLan | .initCec | .sigactionIo | .mkfifo | .exited _ | .killed => isFalse id
  | .openFifo | .setOwn | .setFl | .setSig | .sigactionInt | .test | .pause | .asleep
  | .closeFifo | .removeFifo => isTrue trivial

def Fails (r : FifoCalls) : Pc → Prop
  | .openFifo => r.openFifo < 1
  | .setOwn => r.setOwn ≠ 0
  | .setFl => r.setFl ≠ 0
  | .setSig => r.setSig ≠ 0
  | _ => False

instance (r : FifoCalls) : ∀ pc : Pc, Decidable (Fails r pc)
  | .openFifo => inferInstanceAs (Decidable (r.openFifo < 1))
  | .setOwn => inferInstanceAs (Decidable (r.setOwn ≠ 0))
  | .setFl => inferInstanceAs (Decidable (r.setFl ≠ 0))
  | .setSig => inferInstanceAs (Decidable (r.setSig ≠ 0))
  | .initLan | .initCec | .sigactionIo | .mkfifo | .sigactionInt | .test | .pause | .asleep
  | .closeFifo | .removeFifo | .exited _ | .killed => isFalse id

def Undisturbed (l : Lifetime) (s : Process) : Step → Prop
  | .main => ¬ Fails l.fifo s.pc
  | .sigint => ¬ (s.pc.HasPath ∧ s.pc.Starting)
  | .sigio => True
  | .fatal => ¬ s.pc.HasPath

instance (l : Lifetime) (s : Process) : ∀ x, Decidable (Undisturbed l s x)
  | .main => inferInstanceAs (Decidable (¬ _))
  | .sigint => inferInstanceAs (Decidable (¬ (_ ∧ _)))
  | .sigio => isTrue trivial
  | .fatal => inferInstanceAs (Decidable (¬ _))

def LeftBehind (s : Process) : Prop := s.pc.Ended ∧ s.pipe.path = true

structure Lasting (s : Process) : Prop where
  equipped : Equipped s
  path : ¬ s.pc.Ended → (s.pipe.path = true ↔ s.pc.HasPath)

theorem hasPath_not_ended {pc : Pc} (h : pc.HasPath) : ¬ pc.Ended := by
  cases pc with
  | initLan | initCec | sigactionIo | mkfifo | exited | killed => exact h.elim
  | _ => exact id

theorem woken_hasPath {pc : Pc} : pc.woken.HasPath ↔ pc.HasPath := by
  cases pc <;> exact Iff.rfl

theorem lasting_main {l : Lifetime} (hclean : l.CleansUp) {s : Process} (h : Lasting s) :
    Lasting (mainStep l s) ∧ (LeftBehind (mainStep l s) ↔ LeftBehind s ∨ Fails l.fifo s.pc) := by
  suffices hmain : (¬ (mainStep l s).pc.Ended →
        ((mainStep l s).pipe.path = true ↔ (mainStep l s).pc.HasPath)) ∧
      (LeftBehind (mainStep l s) ↔ LeftBehind s ∨ Fails l.fifo s.pc) from
    ⟨⟨equipped_main l h.equipped, hmain.1⟩, hmain.2⟩
  have hpath := h.path
  obtain ⟨pc, ⟨path, refused, opened, fifoFd⟩, wantRun, ioHandler, intHandler, async⟩ := s
  cases pc with
  | exited | killed | asleep => exact ⟨hpath, (or_iff_left id).symm⟩
  | closeFifo =>
    have hheld := (hpath id).mpr trivial
    simp [mainStep, hclean.1, Process.withPipe, LeftBehind, Pc.Ended, Pc.HasPath, Fails]
    exact hheld
  | removeFifo =>
    simp [mainStep, hclean.2, Process.withPipe, LeftBehind, Pc.Ended, Fails]
  | initLan | initCec | sigactionIo =>
    have hheld : path = false := Bool.eq_false_iff.mpr fun hp => (hpath id).mp hp
    subst hheld
    dsimp only [mainStep, Process.goto]
    split_ifs <;> simp [LeftBehind, Pc.Ended, Pc.HasPath, Fails]
  | mkfifo =>
    have hheld : path = false := Bool.eq_false_iff.mpr fun hp => (hpath id).mp hp
    subst hheld
    by_cases hmade : l.fifo.mkfifo = 0 <;>
      simp [mainStep, Pipe.mkfifo, hmade, Process.withPipe, LeftBehind, Pc.Ended, Pc.HasPath, Fails]
  | openFifo =>
    have hheld := (hpath id).mpr trivial
    simp only at hheld
    subst hheld
    by_cases hfails : l.fifo.openFifo < 1 <;>
      simp [mainStep, Pipe.openFd, hfails, Process.withPipe, LeftBehind, Pc.Ended, Pc.HasPath, Fails]
  | _ =>
    have hheld := (hpath id).mpr trivial
    simp only at hheld
    subst hheld
    dsimp only [mainStep, Process.goto]
    first
    | split_ifs <;> simp_all [LeftBehind, Pc.Ended, Pc.HasPath, Fails]
    | simp [LeftBehind, Pc.Ended, Pc.HasPath, Fails]

theorem lasting_woken {s : Process} (h : Lasting s) (hended : ¬ s.pc.Ended) {b : Bool} :
    Lasting { s.goto s.pc.woken with wantRun := b } ∧
      ¬ LeftBehind { s.goto s.pc.woken with wantRun := b } :=
  ⟨⟨h.equipped.woken, fun _ => (h.path hended).trans woken_hasPath.symm⟩,
    fun hleft => hended (woken_ended.mp hleft.1)⟩

theorem lasting_next {l : Lifetime} (hclean : l.CleansUp) {s : Process} (h : Lasting s) (x : Step) :
    Lasting ((process l).next s x) ∧
      (LeftBehind ((process l).next s x) ↔ LeftBehind s ∨ ¬ Undisturbed l s x) := by
  cases x with
  | main =>
    rw [Undisturbed, not_not]
    exact lasting_main hclean h
  | sigint =>
    rw [Undisturbed, not_not]
    change Lasting (handleSIGINT s) ∧ (LeftBehind (handleSIGINT s) ↔ _)
    rcases sigint_cases s with ⟨hended, heq⟩ | ⟨hended, hint, heq⟩ | ⟨hended, hint, heq⟩
    · rw [heq]
      exact ⟨h, (or_iff_left fun hp => (starting_iff.mp hp.2).1 hended).symm⟩
    · obtain ⟨hlasting, hleft⟩ := lasting_woken h hended (b := false)
      rw [heq]
      refine ⟨hlasting, iff_of_false hleft ?_⟩
      rintro (hp | hp)
      · exact hended hp.1
      · have hawaits := (starting_iff.mp hp.2).2
        rw [← (h.equipped hended).2.2, hint] at hawaits
        cases hawaits
    · -- killed by default, with whatever of the pipe there is
      have hstarting : s.pc.Starting :=
        starting_iff.mpr ⟨hended, (h.equipped hended).2.2.symm.trans hint⟩
      rw [heq]
      refine ⟨⟨fun hs => absurd trivial hs, fun hs => absurd trivial hs⟩, ?_⟩
      rw [or_iff_right (fun hp => hended hp.1), and_iff_left hstarting, ← h.path hended]
      exact and_iff_right trivial
  | sigio =>
    rw [Undisturbed, not_true, or_false]
    change Lasting (raiseSigio s) ∧ (LeftBehind (raiseSigio s) ↔ _)
    by_cases hended : s.pc.Ended
    · rw [raiseSigio, if_pos hended]
      exact ⟨h, Iff.rfl⟩
    · rcases sigio_cases (h.equipped.quiet hended) with heq | ⟨-, -, heq⟩
      · rw [heq]
        exact ⟨h, Iff.rfl⟩
      · obtain ⟨hlasting, hleft⟩ := lasting_woken h hended (b := s.wantRun)
        rw [heq]
        exact ⟨hlasting, iff_of_false hleft fun hp => hended hp.1⟩
  | fatal =>
    rw [Undisturbed, not_not]
    change Lasting (raiseFatal s) ∧ (LeftBehind (raiseFatal s) ↔ _)
    by_cases hended : s.pc.Ended
    · rw [raiseFatal, if_pos hended]
      exact ⟨h, (or_iff_left fun hp => hasPath_not_ended hp hended).symm⟩
    · rw [raiseFatal, if_neg hended]
      refine ⟨⟨fun hs => absurd trivial hs, fun hs => absurd trivial hs⟩, ?_⟩
      rw [or_iff_right (fun hp => hended hp.1), ← h.path hended]
      exact and_iff_right trivial

theorem lasting_start : Lasting (.start false) :=
  ⟨equipped_start false, fun _ => iff_of_false Bool.false_ne_true id⟩

theorem lasting_run_iff {l : Lifetime} (hclean : l.CleansUp) {s : Process} (h : Lasting s)
    (xs : List Step) :
    LeftBehind ((process l).run s xs) ↔
      LeftBehind s ∨ ¬ (process l).Along (Undisturbed l) s xs :=
  Transducer.run_iff_not_along (fun _ x h => (lasting_next hclean h x).1)
    (fun _ x h => (lasting_next hclean h x).2) h xs

/-- A process that finds no path and whose cleanup works ends with the path left behind
exactly if, between `mkfifo` and the installation of the `SIGINT` handler, a call fails or a
`SIGINT` comes, or if it gets a fatal signal while the path is there. -/
theorem left_behind_iff (l : Lifetime) (hclean : l.CleansUp) (xs : List Step) :
    LeftBehind ((process l).run (.start false) xs) ↔
      ¬ (process l).Along (Undisturbed l) (.start false) xs := by
  have h := lasting_run_iff hclean lasting_start xs
  rwa [or_iff_right (fun hleft => hleft.1)] at h

theorem left_behind_killed :
    LeftBehind ((process (arrives ⟨0, 0, 3, 0, 0, 0⟩)).run (.start false)
      (List.replicate 8 .main ++ [.sigint])) := by
  rw [left_behind_iff _ ⟨rfl, rfl⟩]
  decide

/-! ### The lost wake-up -/

def Pc.Closing : Pc → Prop
  | .test | .closeFifo | .removeFifo | .exited _ | .killed => True
  | _ => False

def Pc.left : Pc → ℕ
  | .test => 3
  | .closeFifo => 2
  | .removeFifo => 1
  | _ => 0

structure Closing (s : Process) : Prop where
  called : s.wantRun = false
  equipped : Equipped s
  closing : s.pc.Closing

theorem closing_ended {pc : Pc} (h : pc.Closing) : pc.left = 0 ↔ pc.Ended := by
  cases pc with
  | test | closeFifo | removeFifo => exact iff_of_false (Nat.succ_ne_zero _) id
  | exited | killed => exact iff_of_true rfl trivial
  | _ => exact h.elim

theorem closing_woken {pc : Pc} (h : pc.Closing) : pc.woken = pc := by
  cases pc with
  | asleep => exact h.elim
  | _ => rfl

theorem closing_awaits {pc : Pc} (h : pc.Closing) (hended : ¬ pc.Ended) : pc.awaitsInt = true := by
  cases pc with
  | test | closeFifo | removeFifo => rfl
  | exited | killed => exact absurd trivial hended
  | _ => exact h.elim

theorem Closing.main (l : Lifetime) {s : Process} (h : Closing s) :
    Closing (mainStep l s) ∧ (mainStep l s).pc.left ≤ s.pc.left - 1 := by
  have hequipped := equipped_main l h.equipped
  obtain ⟨pc, pipe, wantRun, ioHandler, intHandler, async⟩ := s
  obtain ⟨rfl, hflags, hpc⟩ := h
  cases pc with
  | test => exact ⟨⟨rfl, hequipped, trivial⟩, le_rfl⟩
  | exited | killed => exact ⟨⟨rfl, hflags, hpc⟩, le_rfl⟩
  | closeFifo | removeFifo =>
    revert hequipped
    dsimp only [mainStep, Process.goto, Process.withPipe]
    split_ifs <;>
      exact fun hequipped => ⟨⟨rfl, hequipped, trivial⟩, Nat.le_of_ble_eq_true rfl⟩
  | _ => exact hpc.elim

theorem Closing.signal (l : Lifetime) {s : Process} (h : Closing s) {x : Step} (hx : x ≠ .main) :
    Closing ((process l).next s x) ∧ ((process l).next s x).pc.left ≤ s.pc.left := by
  have hequipped := equipped_next l h.equipped x
  cases x with
  | main => exact absurd rfl hx
  | sigint =>
    change Equipped (handleSIGINT s) at hequipped
    change Closing (handleSIGINT s) ∧ (handleSIGINT s).pc.left ≤ s.pc.left
    rcases sigint_cases s with ⟨-, heq⟩ | ⟨-, -, heq⟩ | ⟨hended, hint, -⟩
    · rw [heq]
      exact ⟨h, le_rfl⟩
    · rw [heq, closing_woken h.closing] at hequipped ⊢
      exact ⟨⟨rfl, hequipped, h.closing⟩, le_rfl⟩
    · rw [(h.equipped hended).2.2, closing_awaits h.closing hended] at hint
      cases hint
  | sigio =>
    change Closing (raiseSigio s) ∧ (raiseSigio s).pc.left ≤ s.pc.left
    by_cases hended : s.pc.Ended
    · rw [raiseSigio, if_pos hended]
      exact ⟨h, le_rfl⟩
    · rcases sigio_cases (h.equipped.quiet hended) with heq | ⟨-, -, heq⟩
      · rw [heq]
        exact ⟨h, le_rfl⟩
      · rw [heq, closing_woken h.closing]
        exact ⟨h, le_rfl⟩
  | fatal =>
    change Equipped (raiseFatal s) at hequipped
    change Closing (raiseFatal s) ∧ (raiseFatal s).pc.left ≤ s.pc.left
    rw [raiseFatal] at hequipped ⊢
    split_ifs at hequipped ⊢
    · exact ⟨h, le_rfl⟩
    · exact ⟨⟨h.called, hequipped, trivial⟩, Nat.zero_le _⟩

theorem Closing.run (l : Lifetime) {s : Process} (h : Closing s) (ys : List Step) :
    Closing ((process l).run s ys) ∧
      ((process l).run s ys).pc.left ≤ s.pc.left - ys.count .main := by
  induction ys generalizing s with
  | nil => exact ⟨h, le_rfl⟩
  | cons y ys ih =>
    by_cases hy : y = .main
    · obtain ⟨hnext, hleft⟩ := h.main l
      obtain ⟨hrun, hle⟩ := ih hnext
      rw [hy, List.count_cons_self]
      refine ⟨hrun, hle.trans ?_⟩
      omega
    · obtain ⟨hnext, hleft⟩ := h.signal l hy
      obtain ⟨hrun, hle⟩ := ih hnext
      rw [List.count_cons_of_ne hy]
      exact ⟨hrun, hle.trans (Nat.sub_le_sub_right hleft _)⟩

theorem ended_next {l : Lifetime} {s : Process} (h : s.pc.Ended) (x : Step) :
    (process l).next s x = s := by
  cases x with
  | main =>
    change mainStep l s = s
    rw [mainStep]
    cases hpc : s.pc with
    | exited | killed => rfl
    | _ => exact absurd h (by rw [hpc]; exact id)
  | sigint => exact if_pos h
  | sigio => exact if_pos h
  | fatal => exact if_pos h

theorem ended_run {l : Lifetime} {s : Process} (h : s.pc.Ended) (xs : List Step) :
    ((process l).run s xs).pc.Ended :=
  Transducer.run_invariant_of_step (M := process l) (I := fun s => s.pc.Ended)
    (fun _ x h => by rwa [ended_next h x]) h xs

theorem left_le (pc : Pc) : pc.left ≤ 3 := by
  cases pc <;> exact Nat.le_of_ble_eq_true rfl

theorem woken_closing {pc : Pc} (h : pc.awaitsInt = true) (hpause : pc ≠ .pause) :
    pc.woken.Closing := by
  cases pc with
  | pause => exact absurd rfl hpause
  | test | asleep | closeFifo | removeFifo => trivial
  | _ => cases h

theorem sigint_closes {s : Process} (h : Equipped s) (hpause : s.pc ≠ .pause) :
    (handleSIGINT s).pc.Ended ∨ Closing (handleSIGINT s) := by
  rcases sigint_cases s with ⟨hended, heq⟩ | ⟨hended, hint, heq⟩ | ⟨-, -, heq⟩
  · rw [heq]
    exact Or.inl hended
  · rw [heq]
    have hawaits := (h hended).2.2.symm.trans hint
    exact Or.inr ⟨rfl, h.woken, woken_closing hawaits hpause⟩
  · rw [heq]
    exact Or.inl trivial

theorem sleeps_on {l : Lifetime} {s : Process} (h : s.pc = .pause ∨ s.pc = .asleep)
    {ys : List Step} (hmain : ∀ y ∈ ys, y = .main) : ¬ ((process l).run s ys).pc.Ended := by
  have hrun : ((process l).run s ys).pc = .pause ∨ ((process l).run s ys).pc = .asleep := by
    refine Transducer.run_invariant (I := fun s : Process => s.pc = .pause ∨ s.pc = .asleep)
      (C := fun _ y => y = .main) ?_ h ((Transducer.along_const_iff s ys).mpr hmain)
    rintro t x ht rfl
    change (mainStep l t).pc = _ ∨ (mainStep l t).pc = _
    rw [mainStep]
    rcases ht with ht | ht <;> rw [ht]
    · exact Or.inr rfl
    · exact Or.inr ht
  rcases hrun with hpc | hpc <;> rw [hpc] <;> exact id

/-- Three steps of `main` after a `SIGINT` the process is gone, whatever signals there are
besides; `main` takes no step while a handler runs. The exception is a `SIGINT` between the
test of `want_run` and the sleep: without another signal the process then never ends. -/
theorem ends_after_sigint (l : Lifetime) (path : Bool) (xs : List Step) :
    let s := (process l).run (.start path) xs
    (s.pc ≠ .pause → ∀ ys, 3 ≤ ys.count .main → ((process l).run s (.sigint :: ys)).pc.Ended) ∧
    (s.pc = .pause → ∀ ys, ((process l).run s (.sigint :: ys)).pc.Ended → ∃ y ∈ ys, y ≠ .main) := by
  intro s
  have hequipped : Equipped s :=
    Transducer.run_invariant_of_step (I := Equipped) (fun _ x h => equipped_next l h x)
      (equipped_start path) xs
  refine ⟨fun hpause ys hys => ?_, fun hpause ys hended => ?_⟩
  · rw [Transducer.run_cons]
    change ((process l).run (handleSIGINT s) ys).pc.Ended
    rcases sigint_closes hequipped hpause with hended | hclosing
    · exact ended_run hended ys
    · obtain ⟨hrun, hle⟩ := hclosing.run l ys
      have hleft := left_le (handleSIGINT s).pc
      exact (closing_ended hrun.closing).mp (by omega)
  · by_contra hnone
    have hmain : ∀ y ∈ ys, y = .main := fun y hy => by_contra fun hne => hnone ⟨y, hy, hne⟩
    have hsigint : (handleSIGINT s).pc = .pause := by
      have hint : s.intHandler = true := by
        rw [(hequipped (by rw [hpause]; exact id)).2.2, hpause]
        rfl
      rw [handleSIGINT, hpause, if_neg (show ¬ Pc.pause.Ended from id), if_pos hint]
      rfl
    exact sleeps_on (Or.inl hsigint) hmain hended

end CecFix.ProcessLife
