import CecFix.PowerStatus
import CecFix.Transducer

/-!
# The named pipe from one process to the next

`initFIFO` makes the pipe's path with its second system call and has four more to make,
each with an early return. `cleanupFIFO` is called by `main` only after `initFIFO` has
succeeded, so that a call that fails after `mkfifo` leaves the path behind for good:
no later process gets past its own `mkfifo`, and none comes to the cleanup.

The results of the system calls and of the CEC library are inputs. That `mkfifo`
refuses a path that exists is not: the path is the state here.
-/

namespace CecFix.PipeLifetimes
open Lan

/-- The path outlives a process; the descriptors that a process has on the pipe and
`fifo_fd` do not. -/
structure Pipe where
  path : Bool
  refused : Bool
  opened : List Int
  fifoFd : Int

def Pipe.mkfifo (p : Pipe) (result : Int) : Pipe × Int :=
  if p.path then ({ p with refused := true }, -1)
  else if result = 0 then ({ p with path := true }, 0)
  else (p, result)

def Pipe.openFd (p : Pipe) (fd : Int) : Pipe :=
  { p with fifoFd := fd, opened := if 0 ≤ fd then fd :: p.opened else p.opened }

-- the flags that F_GETFL gives go into F_SETFL and nowhere else
structure FifoCalls where
  sigaction : Int
  mkfifo : Int
  openFifo : Int
  setOwn : Int
  setFl : Int
  setSig : Int

def initFIFO (r : FifoCalls) (p : Pipe) : Pipe × Int :=
  if r.sigaction < 0 then (p, -1)
  else
    match p.mkfifo r.mkfifo with
    | (p, made) =>
      if made ≠ 0 then (p, -1)
      else
        let p := p.openFd r.openFifo
        if p.fifoFd < 1 then (p, -1)
        else if r.setOwn ≠ 0 then (p, -1)
        else if r.setFl ≠ 0 then (p, -1)
        else if r.setSig ≠ 0 then (p, -1)
        else (p, 1)

structure CleanupCalls where
  close : Int
  remove : Int

def cleanupFIFO (r : CleanupCalls) (p : Pipe) : Pipe × Int :=
  if r.close ≠ 0 then (p, -1)
  else
    let p := { p with opened := p.opened.erase p.fifoFd }
    if r.remove ≠ 0 then (p, -1)
    else ({ p with path := false }, 0)

structure CecCalls where
  vchiInitialise : Int
  vchiConnect : Int
  setPassive : Int
  registerAll : Int
  setLogicalAddress : Int

def initCEC (r : CecCalls) : Bool :=
  if r.vchiInitialise ≠ 0 then false
  else if r.vchiConnect ≠ 0 then false
  else if r.setPassive ≠ 0 then false
  else if r.registerAll ≠ 0 then false
  else if r.setLogicalAddress ≠ 0 then false
  else true

def initLAN (argc : ℕ) (host : Bytes) (scripts : ℕ → SocketScript) : Bool :=
  if argc = 2 then !decide ((sendNull (bootState host) scripts).value < 0) else false

structure Lifetime where
  argc : ℕ
  host : Bytes
  exchanges : ℕ → SocketScript
  cec : CecCalls
  fifo : FifoCalls
  cleanup : CleanupCalls

/-- Once it runs it is SIGINT that ends it, so that `main` goes on to `cleanupFIFO`. -/
def main (l : Lifetime) (p : Pipe) : Pipe × Int :=
  if !initLAN l.argc l.host l.exchanges then (p, 1)
  else if !initCEC l.cec then (p, 1)
  else
    match initFIFO l.fifo p with
    | (p, ret) => if ret < 0 then (p, 1) else cleanupFIFO l.cleanup p

def Pipe.atStart (path : Bool) : Pipe := ⟨path, false, [], 0⟩

def lifetimes : Transducer Bool Lifetime Empty where
  next path l := (main l (.atStart path)).1.path
  emit _ _ := []

def Lifetime.Initialises (l : Lifetime) : Prop :=
  initLAN l.argc l.host l.exchanges = true ∧ initCEC l.cec = true

/-- No path is left, none was found, and an `initFIFO` that failed has undone its work. -/
structure Clean (path : Bool) (l : Lifetime) : Prop where
  gone : (main l (.atStart path)).1.path = false
  unrefused : (main l (.atStart path)).1.refused = false
  undone : l.Initialises → path = false → (initFIFO l.fifo (.atStart path)).2 = -1 →
    (initFIFO l.fifo (.atStart path)).1.path = false ∧
      (initFIFO l.fifo (.atStart path)).1.opened = []

def FifoCalls.Makes (r : FifoCalls) : Prop := 0 ≤ r.sigaction ∧ r.mkfifo = 0

def FifoCalls.SetsUp (r : FifoCalls) : Prop :=
  1 ≤ r.openFifo ∧ r.setOwn = 0 ∧ r.setFl = 0 ∧ r.setSig = 0

instance (r : FifoCalls) : Decidable r.Makes := inferInstanceAs (Decidable (_ ∧ _))
instance (r : FifoCalls) : Decidable r.SetsUp := inferInstanceAs (Decidable (_ ∧ _ ∧ _ ∧ _))

def Lifetime.FailsHalfway (l : Lifetime) : Prop :=
  l.Initialises ∧ l.fifo.Makes ∧ ¬ l.fifo.SetsUp

def Lifetime.CleansUp (l : Lifetime) : Prop := l.cleanup.close = 0 ∧ l.cleanup.remove = 0

def Pipe.made (p : Pipe) (fd : Int) : Pipe := { p with path := true }.openFd fd

theorem mkfifo_absent {p : Pipe} (h : p.path = false) {result : Int} :
    p.mkfifo result = if result = 0 then ({ p with path := true }, 0) else (p, result) := by
  rw [Pipe.mkfifo, h]
  rfl

theorem initFIFO_cases (r : FifoCalls) {p : Pipe} (h : p.path = false) :
    (¬ r.Makes ∧ initFIFO r p = (p, -1)) ∨
      (r.Makes ∧ ¬ r.SetsUp ∧ initFIFO r p = (p.made r.openFifo, -1)) ∨
      (r.Makes ∧ r.SetsUp ∧ initFIFO r p = (p.made r.openFifo, 1)) := by
  by_cases hsig : r.sigaction < 0
  · refine Or.inl ⟨fun hmakes => absurd hmakes.1 (not_le.mpr hsig), ?_⟩
    rw [initFIFO, if_pos hsig]
  by_cases hmk : r.mkfifo = 0
  swap
  · refine Or.inl ⟨fun hmakes => hmk hmakes.2, ?_⟩
    rw [initFIFO, if_neg hsig, mkfifo_absent h, if_neg hmk]
    exact if_pos hmk
  have hmakes : r.Makes := ⟨not_lt.mp hsig, hmk⟩
  have hinit : initFIFO r p =
      if r.openFifo < 1 then (p.made r.openFifo, -1)
      else if r.setOwn ≠ 0 then (p.made r.openFifo, -1)
      else if r.setFl ≠ 0 then (p.made r.openFifo, -1)
      else if r.setSig ≠ 0 then (p.made r.openFifo, -1)
      else (p.made r.openFifo, 1) := by
    rw [initFIFO, if_neg hsig, mkfifo_absent h, if_pos hmk]
    rfl
  by_cases hsets : r.SetsUp
  · obtain ⟨hopen, hown, hfl, hset⟩ := id hsets
    refine Or.inr (Or.inr ⟨hmakes, hsets, ?_⟩)
    rw [hinit, if_neg (not_lt.mpr hopen), if_neg (not_not.mpr hown), if_neg (not_not.mpr hfl),
      if_neg (not_not.mpr hset)]
  · refine Or.inr (Or.inl ⟨hmakes, hsets, ?_⟩)
    rw [hinit]
    split_ifs with hopen hown hfl hset
    · rfl
    · rfl
    · rfl
    · rfl
    · exact absurd ⟨not_lt.mp hopen, not_not.mp hown, not_not.mp hfl, not_not.mp hset⟩ hsets

theorem main_uninitialised {l : Lifetime} (h : ¬ l.Initialises) (p : Pipe) : main l p = (p, 1) := by
  rw [main]
  cases hlan : initLAN l.argc l.host l.exchanges with
  | false => rfl
  | true =>
    cases hcec : initCEC l.cec with
    | false => rfl
    | true => exact absurd ⟨hlan, hcec⟩ h

theorem main_initialised {l : Lifetime} (h : l.Initialises) (p : Pipe) :
    main l p = if (initFIFO l.fifo p).2 < 0 then ((initFIFO l.fifo p).1, 1)
      else cleanupFIFO l.cleanup (initFIFO l.fifo p).1 := by
  rw [main, h.1, h.2]
  rfl

theorem cleanup_cleans {l : Lifetime} (h : l.CleansUp) (p : Pipe) :
    cleanupFIFO l.cleanup p =
      ({ p with opened := p.opened.erase p.fifoFd, path := false }, 0) := by
  rw [cleanupFIFO, if_neg (not_not.mpr h.1), if_neg (not_not.mpr h.2)]

theorem clean_iff {l : Lifetime} (h : l.CleansUp) : Clean false l ↔ ¬ l.FailsHalfway := by
  by_cases hinit : l.Initialises
  swap
  · have hmain := main_uninitialised hinit (.atStart false)
    refine iff_of_true ⟨by rw [hmain]; rfl, by rw [hmain]; rfl, fun hi => absurd hi hinit⟩ ?_
    exact fun hfails => hinit hfails.1
  have hmain := main_initialised hinit (.atStart false)
  rcases initFIFO_cases l.fifo (p := .atStart false) rfl with
    ⟨hmakes, hfifo⟩ | ⟨hmakes, hsets, hfifo⟩ | ⟨-, hsets, hfifo⟩
  · rw [hfifo, if_pos (by decide : (-1 : Int) < 0)] at hmain
    refine iff_of_true ⟨by rw [hmain]; rfl, by rw [hmain]; rfl, fun _ _ _ => ?_⟩ ?_
    · rw [hfifo]
      exact ⟨rfl, rfl⟩
    · exact fun hfails => hmakes hfails.2.1
  · -- the early return of `main` leaves the path
    rw [hfifo, if_pos (by decide : (-1 : Int) < 0)] at hmain
    refine iff_of_false (fun hclean => ?_) (not_not.mpr ⟨hinit, hmakes, hsets⟩)
    have hgone := hclean.gone
    rw [hmain] at hgone
    cases hgone
  · rw [hfifo, if_neg (by decide : ¬ (1 : Int) < 0), cleanup_cleans h] at hmain
    refine iff_of_true ⟨by rw [hmain], by rw [hmain]; rfl, fun _ _ hret => ?_⟩ ?_
    · rw [hfifo] at hret
      cases hret
    · exact fun hfails => hfails.2.2 hsets

theorem initFIFO_refused (r : FifoCalls) {p : Pipe} (h : p.path = true) :
    (initFIFO r p).2 = -1 ∧ (initFIFO r p).1.path = true := by
  by_cases hsig : r.sigaction < 0
  · rw [initFIFO, if_pos hsig]
    exact ⟨rfl, h⟩
  · rw [initFIFO, if_neg hsig, Pipe.mkfifo, if_pos h]
    exact ⟨rfl, h⟩

theorem main_refused (l : Lifetime) {p : Pipe} (h : p.path = true) :
    (main l p).2 = 1 ∧ (main l p).1.path = true := by
  obtain ⟨hret, hpath⟩ := initFIFO_refused l.fifo h
  by_cases hinit : l.Initialises
  · rw [main_initialised hinit, hret, if_pos (by decide)]
    exact ⟨rfl, hpath⟩
  · rw [main_uninitialised hinit]
    exact ⟨rfl, h⟩

theorem leftover_stays (ls : List Lifetime) : lifetimes.run true ls = true :=
  Transducer.run_invariant_of_step (M := lifetimes) (I := fun path => path = true)
    (fun path l h => (main_refused l (p := .atStart path) h).2) rfl ls

/-- From an absent path: every process leaves the path absent, no `mkfifo` finds it and
every failing `initFIFO` undoes its work, exactly if no system call fails between
`mkfifo` and the end of `initFIFO`. -/
theorem pipe_gone_iff (ls : List Lifetime) (h : ∀ l ∈ ls, l.CleansUp) :
    lifetimes.Along Clean false ls ↔ ∀ l ∈ ls, ¬ l.FailsHalfway := by
  rw [← Transducer.along_const_iff (M := lifetimes) false ls]
  refine Transducer.along_iff_of_kept (I := fun path => path = false)
    (D := fun _ l => l.CleansUp) ?_ ?_ rfl ((Transducer.along_const_iff false ls).mpr h)
  · rintro path l rfl hcleans hfails
    exact ((clean_iff hcleans).mpr hfails).gone
  · rintro path l rfl hcleans
    exact clean_iff hcleans

def nullAck : Bytes := [0x06, 0x89, 0x01, 0x00, 0x00, 0x0A]

def arrives (fifo : FifoCalls) : Lifetime where
  argc := 2
  host := [0x31, 0x30, 0x2E, 0x30, 0x2E, 0x30, 0x2E, 0x32]
  exchanges _ := greetingScript (.got ⟨nullAck, by decide⟩)
  cec := ⟨0, 0, 0, 0, 0⟩
  fifo := fifo
  cleanup := ⟨0, 0⟩

theorem pipe_gone_after_two :
    lifetimes.Along Clean false [arrives ⟨0, 0, 3, 0, 0, 0⟩, arrives ⟨0, -1, 3, 0, 0, 0⟩] := by
  rw [pipe_gone_iff _ (by simp [arrives, Lifetime.CleansUp])]
  simp [Lifetime.FailsHalfway, arrives, FifoCalls.Makes, FifoCalls.SetsUp]

theorem leftover_after_open :
    let ls := [arrives ⟨0, 0, -1, 0, 0, 0⟩, arrives ⟨0, 0, 3, 0, 0, 0⟩]
    (∀ l ∈ ls, l.CleansUp) ∧ ¬ lifetimes.Along Clean false ls := by
  refine ⟨by simp [arrives, Lifetime.CleansUp], fun h => ?_⟩
  have hgone := h.1.gone
  exact absurd hgone (by decide)

end CecFix.PipeLifetimes
