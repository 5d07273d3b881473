import CecFix.ProcessLife

/-!
# The daemon as a service

`cecfix.service` starts the daemon again whenever its process has ended, for whatever
reason. What one process hands on to the next is the path of the pipe.
-/

namespace CecFix.Service
open PipeLifetimes ProcessLife

structure Life where
  calls : Lifetime
  steps : List Step

def Life.after (path : Bool) (life : Life) : Process :=
  (process life.calls).run (.start path) life.steps

/-- `Restart=always` -/
def service : Transducer Bool Life Empty where
  next path life := (life.after path).pipe.path
  emit _ _ := []

def Life.Finished (path : Bool) (life : Life) : Prop := (life.after path).pc.Ended

def Life.Undisturbed (life : Life) : Prop :=
  (process life.calls).Along (ProcessLife.Undisturbed life.calls) (.start false) life.steps

instance (path : Bool) (life : Life) : Decidable (life.Finished path) :=
  inferInstanceAs (Decidable (_ : Pc).Ended)

instance (life : Life) : Decidable life.Undisturbed :=
  inferInstanceAs (Decidable (Transducer.Along _ _ _ _))

theorem free_iff {life : Life} (hclean : life.calls.CleansUp) (hfinished : life.Finished false) :
    service.next false life = false ↔ life.Undisturbed := by
  have hleft := lasting_run_iff hclean lasting_start life.steps
  rw [or_iff_right (fun hleft => hleft.1)] at hleft
  have hpath : LeftBehind (life.after false) ↔ (life.after false).pipe.path = true :=
    and_iff_right hfinished
  rw [← Bool.not_eq_true]
  exact (not_congr (hpath.symm.trans hleft)).trans not_not

def Pc.Barred : Pc → Prop
  | .initLan | .initCec | .sigactionIo | .mkfifo | .killed => True
  | .exited code => code = 1
  | _ => False

def Barred (s : Process) : Prop := s.pipe.path = true ∧ Pc.Barred s.pc

theorem barred_main (l : Lifetime) {s : Process} (h : Barred s) : Barred (mainStep l s) := by
  obtain ⟨pc, ⟨path, refused, opened, fifoFd⟩, wantRun, ioHandler, intHandler, async⟩ := s
  obtain ⟨rfl, hpc⟩ := h
  cases pc with
  | initLan | initCec | sigactionIo =>
    dsimp only [mainStep, Process.goto]
    split_ifs
    · first | exact ⟨rfl, rfl⟩ | exact ⟨rfl, trivial⟩
    · first | exact ⟨rfl, trivial⟩ | exact ⟨rfl, rfl⟩
  | mkfifo => exact ⟨rfl, rfl⟩
  | killed | exited => exact ⟨rfl, hpc⟩
  | _ => exact hpc.elim

theorem barred_woken {pc : Pc} (h : Pc.Barred pc) : Pc.Barred pc.woken := by
  cases pc with
  | asleep => exact h.elim
  | _ => exact h

theorem barred_next {l : Lifetime} {s : Process} (h : Barred s) (x : Step) :
    Barred ((process l).next s x) := by
  cases x with
  | main => exact barred_main l h
  | sigint =>
    change Barred (handleSIGINT s)
    rcases sigint_cases s with ⟨-, heq⟩ | ⟨-, -, heq⟩ | ⟨-, -, heq⟩
    · rwa [heq]
    · rw [heq]
      exact ⟨h.1, barred_woken h.2⟩
    · rw [heq]
      exact ⟨h.1, trivial⟩
  | sigio =>
    change Barred (raiseSigio s)
    rw [raiseSigio]
    split_ifs
    · exact h
    · exact ⟨h.1, barred_woken h.2⟩
    · exact ⟨h.1, trivial⟩
    · exact h
  | fatal =>
    change Barred (raiseFatal s)
    rw [raiseFatal]
    split_ifs
    · exact h
    · exact ⟨h.1, trivial⟩

theorem barred_throughout (life : Life) :
    (process life.calls).Throughout Barred (.start true) life.steps :=
  Transducer.throughout_of_invariant (C := fun _ _ => True) (fun _ x h _ => barred_next h x)
    (fun _ h => h) ⟨rfl, trivial⟩ (Transducer.along_of_forall (fun _ _ _ => trivial) _)

theorem service_free_iff (lives : List Life) (hclean : ∀ life ∈ lives, life.calls.CleansUp)
    (hfinished : service.Along (fun path life => life.Finished path) false lives) :
    service.Along (fun path life => service.next path life = false) false lives ↔
      ∀ life ∈ lives, life.Undisturbed := by
  have hboth : service.Along (fun path life => life.calls.CleansUp ∧ life.Finished path) false
      lives :=
    (Transducer.along_and false lives).mpr
      ⟨(Transducer.along_const_iff false lives).mpr hclean, hfinished⟩
  rw [← Transducer.along_const_iff (M := service) false lives]
  refine Transducer.along_iff_of_kept (I := fun path => path = false) ?_ ?_ rfl hboth
  · rintro path life rfl ⟨hcleans, hends⟩ hundisturbed
    exact (free_iff hcleans hends).mpr hundisturbed
  · rintro path life rfl ⟨hcleans, hends⟩
    exact free_iff hcleans hends

def wholeLife : Life where
  calls := arrives ⟨0, 0, 3, 0, 0, 0⟩
  steps := List.replicate 11 .main ++ .sigint :: List.replicate 3 .main

theorem service_free_twice :
    service.Along (fun path life => service.next path life = false) false
      [wholeLife, wholeLife] := by
  rw [service_free_iff _ (by simp [wholeLife, arrives, Lifetime.CleansUp]) (by decide)]
  decide

/-- Once a process has left the path behind, none that is started later gets past its
`mkfifo`: each is killed or exits with 1, and the path is there for the next. -/
theorem service_stays_down (lives : List Life) :
    service.Along (fun path life => path = true ∧
      (process life.calls).Throughout Barred (.start path) life.steps) true lives :=
  Transducer.Along.of_invariant (I := fun path => path = true) (C := fun _ _ => True)
    (by
      rintro path life rfl -
      exact ⟨⟨rfl, barred_throughout life⟩, (Transducer.throughout_last (barred_throughout life)).1⟩)
    rfl (Transducer.along_of_forall (fun _ _ _ => trivial) _)

end CecFix.Service
