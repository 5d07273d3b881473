import CecFix.ExchangeSteps

/-!
# One connection at a time

Any number of `sendCommand` calls share `has_active_connection`; the CEC thread and
the `SIGIO` handler make them, and a call that has not made its test yet stands for
one that is still to come. The flag is tested in one step and set in a later one.
As long as no call makes its test between these two steps of another call, at most
one connection is open and the flag is set while one is. Two calls that do test
between them both get a connection.
-/

namespace CecFix.ConnectionExclusion
open Lan

variable {κ : Type*}

abbrev Calls (κ : Type*) := Interleaving Bool (fun _ : κ => Call)

def sendCommands [DecidableEq κ] (jobs : κ → Job) : Transducer (Calls κ) κ Empty :=
  Interleaving.machine fun k => Call.step (jobs k)

def start (responses : κ → Bytes) : Calls κ := ⟨false, fun k => .start (responses k) []⟩

def betweenOpenAndClose : Pc → Bool
  | .resolve | .connect | .greet | .sendRequest | .readAck | .sendCode | .readAnswer | .close =>
    true
  | _ => false

def Connected (jobs : κ → Job) (s : Calls κ) (k : κ) : Prop :=
  0 ≤ (jobs k).script.sock ∧ betweenOpenAndClose (s.locals k).pc = true

structure OneConnection (jobs : κ → Job) (s : Calls κ) : Prop where
  alone : ∀ j k, Connected jobs s j → Connected jobs s k → j = k
  flagged : ∀ k, Connected jobs s k → s.shared = true

/-- A call that passes its test does so while no other call has passed its own and
not yet set the flag. -/
def TestsApart (s : Calls κ) (k : κ) : Prop :=
  (s.locals k).pc = .test → s.shared = false → ∀ j, j ≠ k → (s.locals j).pc ≠ .mark

instance [Fintype κ] [DecidableEq κ] (s : Calls κ) (k : κ) : Decidable (TestsApart s k) :=
  inferInstanceAs (Decidable (_ → _ → ∀ j, j ≠ k → _))

structure Exclusive (s : Calls κ) : Prop where
  alone : ∀ j k, (s.locals j).pc.Inside → (s.locals k).pc.Inside → j = k
  held : ∀ k, (s.locals k).pc.Holding → s.shared = true

theorem Exclusive.oneConnection {s : Calls κ} (h : Exclusive s) (jobs : κ → Job) :
    OneConnection jobs s := by
  have holding : ∀ k, Connected jobs s k → (s.locals k).pc.Holding := by
    intro k hcon
    have hk := hcon.2
    revert hk
    cases (s.locals k).pc <;> decide
  exact
    { alone := fun j k hj hk => h.alone j k (holding j hj).1 (holding k hk).1
      flagged := fun k hk => h.held k (holding k hk) }

theorem exclusive_of_only {s : Calls κ} (k : κ)
    (honly : ∀ j, j ≠ k → ¬ (s.locals j).pc.Inside)
    (hheld : (s.locals k).pc.Holding → s.shared = true) : Exclusive s where
  alone i j hi hj := by
    have hik : i = k := by_contra fun h => honly i h hi
    have hjk : j = k := by_contra fun h => honly j h hj
    rw [hik, hjk]
  held j hj := by
    have hjk : j = k := by_contra fun h => honly j h hj.1
    subst hjk
    exact hheld hj

theorem Exclusive.none_inside {s : Calls κ} (h : Exclusive s) (hflag : s.shared = false) {k : κ}
    (hmark : (s.locals k).pc ≠ .mark) : ¬ (s.locals k).pc.Inside := by
  intro hk
  have hheld := h.held k ⟨hk, hmark⟩
  rw [hflag] at hheld
  cases hheld

section Step
variable [DecidableEq κ] {jobs : κ → Job} {s : Calls κ} {k : κ}

theorem next_only (hother : ∀ j, j ≠ k → ¬ (s.locals j).pc.Inside)
    (hheld : (((sendCommands jobs).next s k).locals k).pc.Holding →
      ((sendCommands jobs).next s k).shared = true) : Exclusive ((sendCommands jobs).next s k) := by
  apply exclusive_of_only k _ hheld
  intro j hj
  rw [sendCommands, Interleaving.next_other s hj]
  exact hother j hj

theorem next_outside (h : Exclusive s) (hpc : ¬ (((sendCommands jobs).next s k).locals k).pc.Inside)
    (hflag : ((sendCommands jobs).next s k).shared = s.shared) :
    Exclusive ((sendCommands jobs).next s k) := by
  have before : ∀ j, (((sendCommands jobs).next s k).locals j).pc.Inside →
      ((sendCommands jobs).next s k).locals j = s.locals j := by
    intro j hj
    have hjk : j ≠ k := by
      intro hjk
      subst hjk
      exact hpc hj
    exact Interleaving.next_other s hjk
  exact
    { alone := fun i j hi hj => h.alone i j (before i hi ▸ hi) (before j hj ▸ hj)
      held := fun j hj => hflag ▸ h.held j (before j hj.1 ▸ hj) }

theorem exclusive_step (h : Exclusive s) (hx : TestsApart s k) :
    Exclusive ((sendCommands jobs).next s k) := by
  have hself : ((sendCommands jobs).next s k).locals k =
      (s.locals k).next (jobs k) s.shared := Interleaving.next_self s k
  have hshared : ((sendCommands jobs).next s k).shared =
      (s.locals k).pc.activeAfter s.shared := rfl
  have others : (s.locals k).pc.Inside → ∀ j, j ≠ k → ¬ (s.locals j).pc.Inside :=
    fun hk j hj hin => hj (h.alone j k hin hk)
  rcases Call.next_pc (jobs k) s.shared (s.locals k) with
    ⟨hpc, -, hnext⟩ | ⟨hpc, hflag, hnext⟩ | ⟨hpc, hnext⟩ | ⟨hhold, hclear, -⟩ | ⟨hpc, hnext⟩ |
      ⟨hpc, hnext⟩
  · -- The test fails.
    apply next_outside h
    · rw [hself, hnext]
      decide
    · rw [hshared, hpc]
      rfl
  · -- The test is passed: the flag is clear, and by `hx` nobody else is about to set it.
    apply next_only (fun j hj => h.none_inside hflag (hx hpc hflag j hj))
    intro hhold
    rw [hself, hnext] at hhold
    exact absurd rfl hhold.2
  · apply next_only (others (by rw [hpc]; decide))
    intro _
    rw [hshared, hpc]
    rfl
  · apply next_only (others hhold.1)
    intro _
    rw [hshared, Pc.activeAfter_of_ne hhold.2 hclear]
    exact h.held k hhold
  · apply next_only (others (by rw [hpc]; decide))
    intro hhold
    rw [hself, hnext] at hhold
    exact absurd rfl hhold.1.2
  · apply next_outside h
    · rw [hself, hnext, hpc]
      decide
    · rw [hshared, hpc]
      rfl

end Step

theorem exclusive_start (responses : κ → Bytes) : Exclusive (start responses) where
  alone _ _ hj _ := absurd rfl hj.1
  held _ hk := absurd rfl hk.1.1

theorem uninterrupted [DecidableEq κ] (jobs : κ → Job) (s : Calls κ) (k : κ) (response : Bytes)
    (h : s.locals k = .start response []) :
    let s' := (sendCommands jobs).run s (List.replicate 13 k)
    let r := sendCommand s.shared (jobs k).host (jobs k).code response (jobs k).script
    s'.shared = r.active ∧ s'.locals k = ⟨.done, r.retCode, r.response, r.events⟩ := by
  have hrun : (((sendCommands jobs).run s (List.replicate 13 k)).shared,
      ((sendCommands jobs).run s (List.replicate 13 k)).locals k) =
        (Call.step (jobs k))^[13] (s.shared, s.locals k) := Interleaving.run_alone k 13 s
  rw [h, ← Nat.zero_add 13, sendCommand_alone, List.nil_append] at hrun
  obtain ⟨hshared, hlocal⟩ := Prod.mk.inj hrun
  exact ⟨hshared, hlocal⟩

/-- In every run in which tests and settings of the flag do not cross, every state
visited has at most one connection, under the flag. -/
theorem one_connection [DecidableEq κ] (jobs : κ → Job) (responses : κ → Bytes) (ks : List κ)
    (hks : (sendCommands jobs).Along TestsApart (start responses) ks) :
    (sendCommands jobs).Throughout (OneConnection jobs) (start responses) ks :=
  Transducer.throughout_of_invariant (fun _ _ h hx => exclusive_step h hx)
    (fun _ h => h.oneConnection jobs) (exclusive_start responses) hks

inductive Caller where
  | cec
  | fifo
  deriving DecidableEq

instance : Fintype Caller := ⟨{.cec, .fifo}, fun c => by cases c <;> decide⟩

def standbyJob : Job := ⟨[], offCommand, greetingScript (.got ⟨onOffAck, onOffAck_fits⟩)⟩

theorem one_connection_turned_away :
    (sendCommands fun _ : Caller => standbyJob).Throughout (OneConnection fun _ => standbyJob)
      (start fun _ => []) [.cec, .cec, .cec, .fifo, .cec] :=
  one_connection _ _ _ (by decide)

theorem both_connect [DecidableEq κ] {jobs : κ → Job} {s : Calls κ} {j k : κ} (hjk : j ≠ k)
    (hj : (s.locals j).pc = .mark) (hk : (s.locals k).pc = .test) (hflag : s.shared = false)
    (hsock : ∀ i, 0 ≤ (jobs i).script.sock) :
    Connected jobs ((sendCommands jobs).run s [k, j, k, j, k]) j ∧
      Connected jobs ((sendCommands jobs).run s [k, j, k, j, k]) k := by
  have hsock' : ∀ i, ¬ (jobs i).script.sock < 0 := fun i => Int.not_lt.mpr (hsock i)
  constructor
  · refine ⟨hsock j, ?_⟩
    simp [sendCommands, Interleaving.machine, Call.step, Call.next, Call.goto, Pc.activeAfter,
      Function.update, hjk, hjk.symm, hj, hk, hflag, hsock', betweenOpenAndClose]
  · refine ⟨hsock k, ?_⟩
    simp [sendCommands, Interleaving.machine, Call.step, Call.next, Call.goto, Pc.activeAfter,
      Function.update, hjk, hjk.symm, hj, hk, hflag, hsock', betweenOpenAndClose]

theorem tests_together :
    ¬ (sendCommands fun _ : Caller => standbyJob).Throughout (OneConnection fun _ => standbyJob)
      (start fun _ => []) [.fifo, .cec, .fifo, .cec, .fifo, .cec] := by
  intro h
  have hend := (Transducer.throughout_last h).alone .cec .fifo ⟨by decide, by decide⟩
    ⟨by decide, by decide⟩
  exact absurd hend (by decide)

end CecFix.ConnectionExclusion
