import CecFix.ConnectionExclusion

/-!
# Two commands at once

`sendCommandWithRetry` calls that share `has_active_connection`, with a projector
that completes every exchange. The five attempts of a call follow each other
without a pause; one that finds the flag set is turned away. So a call returns
after boundedly many steps of its own, whatever the others do, and either gets
through or, all its attempts being turned away, sends nothing. The first to set
the flag gets through.

The steps are the tests and assignments of the flag and the system calls, and another
call comes in between two of them. Log calls are no steps: the logger holds a lock while it
writes, and a handler that interrupts it there waits for that lock for ever.
-/

namespace CecFix.CommandContention
open Lan
open ConnectionExclusion (Caller)

variable {κ : Type*}

abbrev Calls (κ : Type*) := Interleaving Bool (fun _ : κ => RetryCall)

def sendCommandsWithRetry [DecidableEq κ] (jobs : κ → RetryJob) : Transducer (Calls κ) κ Empty :=
  Interleaving.machine fun k => RetryCall.step (jobs k)

def start (responses : κ → Bytes) : Calls κ := ⟨false, fun k => .start (responses k)⟩

def Healthy (jobs : κ → RetryJob) : Prop :=
  ∀ k, ∀ i < maxRetryCount, ((jobs k).scripts i).Completes

def FifthTestClear (k : κ) (s : Calls κ) (x : κ) : Prop :=
  x = k → (s.locals k).finished = false → (s.locals k).retry + 1 = maxRetryCount →
    (s.locals k).call.pc = .test → s.shared = false

/-- What becomes of call `k`: it returns the length of the answer to the command it
sent, unless its fifth test finds the flag set. Then it returns -9 and made no system call. -/
def ThroughOrTurnedAway [DecidableEq κ] (jobs : κ → RetryJob) (responses : κ → Bytes)
    (ks : List κ) (k : κ) : Prop :=
  let run := sendCommandsWithRetry jobs
  let c := (run.run (start responses) ks).locals k
  c.finished = true ∧
    ((run.Along (FifthTestClear k) (start responses) ks ∧ 0 ≤ c.call.retCode ∧
        .send (jobs k).code ∈ c.call.events) ∨
      (¬ run.Along (FifthTestClear k) (start responses) ks ∧ c.call.retCode = -9 ∧
        c.call.events = []))

def stepsLeft : Pc → ℕ
  | .test => 13
  | .mark => 12
  | .create => 11
  | .resolve => 10
  | .connect => 9
  | .greet => 8
  | .sendRequest => 7
  | .readAck => 6
  | .sendCode => 5
  | .readAnswer => 4
  | .close => 3
  | .sleep => 2
  | .clear => 1
  | .done => 0

/-- The steps of an attempt, and one for the test of the loop. -/
def maxTurns : ℕ := maxRetryCount * 14

def turnsLeft (c : RetryCall) : ℕ :=
  if c.finished then 0 else (maxRetryCount - 1 - c.retry) * 14 + stepsLeft c.call.pc + 1

theorem stepsLeft_next (j : Job) (active : Bool) (c : Call) (h : c.pc ≠ .done) :
    stepsLeft (c.next j active).pc < stepsLeft c.pc := by
  cases hpc : c.pc with
  | done => exact absurd hpc h
  | _ =>
    simp only [Call.next, hpc]
    repeat' split
    all_goals simp [Call.goto, Call.leave, stepsLeft]

theorem turnsLeft_running {c : RetryCall} (h : c.finished = false) :
    turnsLeft c = (maxRetryCount - 1 - c.retry) * 14 + stepsLeft c.call.pc + 1 := by
  simp [turnsLeft, h]

theorem turnsLeft_step (j : RetryJob) (active : Bool) (c : RetryCall) :
    turnsLeft (RetryCall.step j (active, c)).2 ≤ turnsLeft c - 1 := by
  cases hfin : c.finished with
  | true => simp [RetryCall.step_finished hfin, turnsLeft, hfin]
  | false =>
    rw [turnsLeft_running hfin]
    by_cases hdone : c.call.pc = .done
    · rw [RetryCall.step_done hfin hdone]
      by_cases hagain : c.call.retCode < 0 ∧ c.retry + 1 < maxRetryCount
      · rw [RetryCall.again_of_neg hagain.1 hagain.2, turnsLeft_running rfl]
        simp only [Call.start, stepsLeft]
        omega
      · rw [RetryCall.again_of_last (by omega)]
        simp [turnsLeft]
    · rw [RetryCall.step_call hfin hdone]
      have hrun := turnsLeft_running
        (c := { c with call := c.call.next (j.attempt c.retry) active }) hfin
      have hless := stepsLeft_next (j.attempt c.retry) active c.call hdone
      dsimp only at hrun ⊢
      omega

theorem turnsLeft_start (response : Bytes) : turnsLeft (.start response) = maxTurns := by
  simp [turnsLeft, RetryCall.start, Call.start, stepsLeft, maxTurns, maxRetryCount]

theorem run_finished [DecidableEq κ] (jobs : κ → RetryJob) (responses : κ → Bytes) {ks : List κ}
    {k : κ} (hturns : maxTurns ≤ ks.count k) :
    (((sendCommandsWithRetry jobs).run (start responses) ks).locals k).finished = true := by
  have hrank : turnsLeft (((sendCommandsWithRetry jobs).run (start responses) ks).locals k) ≤
      turnsLeft (.start (responses k)) - ks.count k :=
    Interleaving.run_rank turnsLeft (turnsLeft_step (jobs k)) (start responses) ks
  rw [turnsLeft_start] at hrank
  by_contra hfin
  rw [Bool.not_eq_true] at hfin
  have hpos := turnsLeft_running hfin
  omega

def Stage (code : Bytes) (c : Call) : Prop :=
  match c.pc with
  | .test => c.events = []
  | .readAnswer => .send code ∈ c.events
  | .close | .sleep | .clear => 0 ≤ c.retCode ∧ .send code ∈ c.events
  | .done => (0 ≤ c.retCode ∧ .send code ∈ c.events) ∨ (c.retCode = -9 ∧ c.events = [])
  | _ => True

theorem stage_next {j : Job} {active : Bool} {c : Call} (hj : j.script.Completes)
    (h : Stage j.code c) : Stage j.code (c.next j active) := by
  obtain ⟨a, ⟨hsock, hres, hcon, hgreet, hack⟩, hanswer⟩ := hj
  have hsock' := Int.not_lt.mpr hsock
  have hres' := Int.not_lt.mpr hres
  have hcon' := Int.not_lt.mpr hcon
  cases hpc : c.pc with
  | create => simp [Call.next, hpc, hsock', Call.goto, Stage]
  | resolve => simp [Call.next, hpc, hres', Call.goto, Stage]
  | connect => simp [Call.next, hpc, hcon', Call.goto, Stage]
  | greet =>
    cases hg : j.script.greeting with
    | failed => rw [hg] at hgreet; exact hgreet.elim
    | got g =>
      rw [hg] at hgreet
      simp [Call.next, hpc, hg, (greeting_check g).mpr hgreet, Call.goto, Stage]
  | readAck =>
    cases ha : j.script.ackReply with
    | failed => rw [ha] at hack; exact hack.elim
    | got b =>
      rw [ha] at hack
      simp [Call.next, hpc, ha, (ack_check b).mpr hack, Call.goto, Stage]
  | test => cases active <;> simp_all [Call.next, Call.goto, Stage]
  | _ => simp_all [Call.next, Call.goto, Call.leave, Stage]

structure RetryStage (j : RetryJob) (c : RetryCall) : Prop where
  stage : Stage j.code c.call
  running : c.finished = false → c.retry < maxRetryCount
  returned : c.finished = true →
    c.call.pc = .done ∧ (0 ≤ c.call.retCode ∨ maxRetryCount ≤ c.retry)

theorem retryStage_start (j : RetryJob) (response : Bytes) : RetryStage j (.start response) where
  stage := rfl
  running _ := (by decide : 0 < maxRetryCount)
  returned h := nomatch h

def Through (c : RetryCall) : Prop :=
  c.call.pc.Holding ∨ (c.call.pc = .done ∧ 0 ≤ c.call.retCode)

def Lost (c : RetryCall) : Prop :=
  c.call.pc = .done ∧ c.call.retCode = -9 ∧ maxRetryCount ≤ c.retry + 1

instance (c : RetryCall) : Decidable (Lost c) := inferInstanceAs (Decidable (_ ∧ _ ∧ _))

section Step
variable {j : RetryJob} {c : RetryCall}

theorem RetryStage.done (h : RetryStage j c) (hdone : c.call.pc = .done) :
    (0 ≤ c.call.retCode ∧ .send j.code ∈ c.call.events) ∨
      (c.call.retCode = -9 ∧ c.call.events = []) := by
  have hstage := h.stage
  rwa [Stage, hdone] at hstage

variable {active : Bool}

theorem retryStage_step (hj : ∀ i < maxRetryCount, (j.scripts i).Completes)
    (h : RetryStage j c) : RetryStage j (RetryCall.step j (active, c)).2 := by
  cases hfin : c.finished with
  | true => rwa [RetryCall.step_finished hfin]
  | false =>
    by_cases hdone : c.call.pc = .done
    · rw [RetryCall.step_done hfin hdone]
      by_cases hagain : c.call.retCode < 0 ∧ c.retry + 1 < maxRetryCount
      · rw [RetryCall.again_of_neg hagain.1 hagain.2]
        refine ⟨?_, fun _ => hagain.2, fun h => nomatch h⟩
        rcases h.done hdone with ⟨hret, -⟩ | ⟨-, hev⟩
        · omega
        · exact hev
      · rw [RetryCall.again_of_last (by omega)]
        refine ⟨h.stage, fun h => (nomatch h), fun _ => ⟨hdone, ?_⟩⟩
        show 0 ≤ c.call.retCode ∨ maxRetryCount ≤ c.retry + 1
        omega
    · rw [RetryCall.step_call hfin hdone]
      exact
        { stage := stage_next (hj c.retry (h.running hfin)) h.stage
          running := fun _ => h.running hfin
          returned := fun h => by simp only [hfin] at h; cases h }

theorem through_step (hs : RetryStage j c) (h : Through c) :
    Through (RetryCall.step j (active, c)).2 := by
  cases hfin : c.finished with
  | true => rwa [RetryCall.step_finished hfin]
  | false =>
    by_cases hdone : c.call.pc = .done
    · rcases h with h | h
      · exact absurd hdone h.1.2
      · rw [RetryCall.step_done hfin hdone, RetryCall.again_of_last (Or.inl h.2)]
        exact Or.inr h
    · have hhold : c.call.pc.Holding := by
        rcases h with h | h
        · exact h
        · exact absurd h.1 hdone
      rw [RetryCall.step_call hfin hdone]
      rcases Call.next_pc (j.attempt c.retry) active c.call with
        ⟨hpc, -⟩ | ⟨hpc, -⟩ | ⟨hpc, -⟩ | ⟨-, -, hnext⟩ | ⟨hpc, hnext⟩ | ⟨hpc, -⟩
      · exact absurd hpc hhold.1.1
      · exact absurd hpc hhold.1.1
      · exact absurd hpc hhold.2
      · exact Or.inl hnext
      · have hstage := hs.stage
        rw [Stage, hpc] at hstage
        refine Or.inr ⟨hnext, ?_⟩
        rw [Call.next, hpc]
        exact hstage.1
      · exact absurd hpc hdone

theorem lost_step (h : Lost c) : Lost (RetryCall.step j (active, c)).2 := by
  obtain ⟨hdone, hret, hlast⟩ := h
  cases hfin : c.finished with
  | true =>
    rw [RetryCall.step_finished hfin]
    exact ⟨hdone, hret, hlast⟩
  | false =>
    rw [RetryCall.step_done hfin hdone, RetryCall.again_of_last (Or.inr hlast)]
    exact ⟨hdone, hret, Nat.le_succ_of_le hlast⟩

theorem lost_step_iff (hs : RetryStage j c) (h : ¬ Lost c) :
    Lost (RetryCall.step j (active, c)).2 ↔
      c.finished = false ∧ c.retry + 1 = maxRetryCount ∧ c.call.pc = .test ∧ active = true := by
  constructor
  · intro hlost
    cases hfin : c.finished with
    | true => rw [RetryCall.step_finished hfin] at hlost; exact absurd hlost h
    | false =>
      have hretry := hs.running hfin
      by_cases hdone : c.call.pc = .done
      · rw [RetryCall.step_done hfin hdone] at hlost
        by_cases hagain : c.call.retCode < 0 ∧ c.retry + 1 < maxRetryCount
        · rw [RetryCall.again_of_neg hagain.1 hagain.2] at hlost
          cases hlost.1
        · rw [RetryCall.again_of_last (by omega)] at hlost
          have hret : c.call.retCode = -9 := hlost.2.1
          exact absurd ⟨hdone, hret, by omega⟩ h
      · rw [RetryCall.step_call hfin hdone] at hlost
        obtain ⟨hpc', hret', hlast⟩ := hlost
        rcases Call.next_pc (j.attempt c.retry) active c.call with
          ⟨hpc, hact, -⟩ | ⟨-, -, hnext⟩ | ⟨-, hnext⟩ | ⟨-, -, hnext⟩ | ⟨hpc, -⟩ | ⟨hpc, -⟩
        · exact ⟨rfl, Nat.le_antisymm hretry hlast, hpc, hact⟩
        · rw [hnext] at hpc'; cases hpc'
        · rw [hnext] at hpc'; cases hpc'
        · exact absurd hpc' hnext.1.2
        · have hstage := hs.stage
          rw [Stage, hpc] at hstage
          rw [Call.next, hpc] at hret'
          have hret : c.call.retCode = -9 := hret'
          omega
        · exact absurd hpc hdone
  · intro htest
    obtain ⟨hfin, hlast, hpc, rfl⟩ := htest
    rw [RetryCall.step_call hfin (by rw [hpc]; decide)]
    simp [Lost, Call.next, hpc, hlast]

end Step

section Run
variable [DecidableEq κ] {jobs : κ → RetryJob} (hj : Healthy jobs) (responses : κ → Bytes)

def Stages (jobs : κ → RetryJob) (s : Calls κ) : Prop := ∀ k, RetryStage (jobs k) (s.locals k)

omit [DecidableEq κ] in
theorem stages_start : Stages jobs (start responses) := fun k => retryStage_start (jobs k) _

theorem lost_next_iff (k : κ) (s : Calls κ) (x : κ) (h : Stages jobs s) :
    Lost (((sendCommandsWithRetry jobs).next s x).locals k) ↔
      Lost (s.locals k) ∨ ¬ FifthTestClear k s x := by
  by_cases hx : x = k
  · subst hx
    rw [sendCommandsWithRetry, Interleaving.next_self]
    by_cases hlost : Lost (s.locals x)
    · simp [hlost, lost_step hlost]
    · rw [lost_step_iff (h x) hlost]
      simp [hlost, FifthTestClear]
  · rw [sendCommandsWithRetry, Interleaving.next_other s (Ne.symm hx)]
    simp [FifthTestClear, hx]

include hj

theorem stages_next (s : Calls κ) (x : κ) (h : Stages jobs s) :
    Stages jobs ((sendCommandsWithRetry jobs).next s x) :=
  Interleaving.next_locals (fun k c => RetryStage (jobs k) c) (retryStage_step (hj x) (h x))
    fun k _ => h k

theorem stages_run (ks : List κ) :
    Stages jobs ((sendCommandsWithRetry jobs).run (start responses) ks) :=
  Transducer.run_invariant_of_step (stages_next hj) (stages_start responses) ks

theorem lost_run_iff (k : κ) (ks : List κ) :
    Lost (((sendCommandsWithRetry jobs).run (start responses) ks).locals k) ↔
      ¬ (sendCommandsWithRetry jobs).Along (FifthTestClear k) (start responses) ks := by
  have hrun := Transducer.run_iff_not_along (P := fun s : Calls κ => Lost (s.locals k))
    (stages_next hj) (lost_next_iff k) (stages_start responses) ks
  have hzero : ¬ Lost ((start responses).locals k) := fun h => nomatch h.1
  rwa [or_iff_right hzero] at hrun

def Fresh (c : RetryCall) : Prop := c.finished = false ∧ (c.call.pc = .test ∨ c.call.pc = .mark)

def Opening (s : Calls κ) : Prop :=
  (∃ k, Through (s.locals k)) ∨ (s.shared = false ∧ ∀ k, Fresh (s.locals k))

omit [DecidableEq κ] hj in
theorem opening_start : Opening (start responses) := Or.inr ⟨rfl, fun _ => ⟨rfl, Or.inl rfl⟩⟩

omit hj in
theorem opening_next (s : Calls κ) (x : κ) (hs : Stages jobs s) (h : Opening s) :
    Opening ((sendCommandsWithRetry jobs).next s x) := by
  rcases h with ⟨k, hk⟩ | ⟨hflag, hfresh⟩
  · refine Or.inl ⟨k, ?_⟩
    by_cases hx : k = x
    · subst hx
      rw [sendCommandsWithRetry, Interleaving.next_self]
      exact through_step (hs k) hk
    · rwa [sendCommandsWithRetry, Interleaving.next_other s hx]
  · obtain ⟨hfin, hpc⟩ := hfresh x
    rcases hpc with hpc | hpc
    · -- The first test of `x` finds the flag clear.
      have hstep : RetryCall.step (jobs x) (s.shared, s.locals x) =
          (false, { s.locals x with call := (s.locals x).call.goto .mark [] }) := by
        rw [RetryCall.step_call hfin (by rw [hpc]; decide), hflag]
        simp [Call.next, Pc.activeAfter, hpc]
      refine Or.inr ⟨?_, ?_⟩
      · rw [sendCommandsWithRetry, Interleaving.next_shared, hstep]
      · apply Interleaving.next_locals (fun _ c => Fresh c) _ fun k _ => hfresh k
        rw [hstep]
        exact ⟨hfin, Or.inr rfl⟩
    · refine Or.inl ⟨x, ?_⟩
      rw [sendCommandsWithRetry, Interleaving.next_self,
        RetryCall.step_call hfin (by rw [hpc]; decide)]
      left
      simp [Call.next, hpc, Call.goto, Pc.Holding, Pc.Inside]

theorem opening_run (ks : List κ) :
    Opening ((sendCommandsWithRetry jobs).run (start responses) ks) :=
  (Transducer.run_invariant_of_step (I := fun s => Stages jobs s ∧ Opening s)
    (fun s x h => ⟨stages_next hj s x h.1, opening_next s x h.1 h.2⟩)
    ⟨stages_start responses, opening_start responses⟩ ks).2

theorem run_throughOrTurnedAway {ks : List κ} {k : κ} (hturns : maxTurns ≤ ks.count k) :
    ThroughOrTurnedAway jobs responses ks k := by
  have hfin := run_finished jobs responses hturns
  have hstage := stages_run hj responses ks k
  have hlost := lost_run_iff hj responses k ks
  obtain ⟨hdone, hlast⟩ := hstage.returned hfin
  refine ⟨hfin, ?_⟩
  rcases hstage.done hdone with ⟨hret, hsent⟩ | ⟨hret, hnothing⟩
  · refine Or.inl ⟨?_, hret, hsent⟩
    by_contra hcross
    have hret' := (hlost.mpr hcross).2.1
    omega
  · refine Or.inr ⟨hlost.mp ⟨hdone, hret, ?_⟩, hret, hnothing⟩
    omega

theorem run_someone {ks : List κ} (k : κ) (hturns : ∀ k, maxTurns ≤ ks.count k) :
    ∃ k, 0 ≤ (((sendCommandsWithRetry jobs).run (start responses) ks).locals k).call.retCode := by
  have hdone : ∀ k, _ := fun k =>
    ((stages_run hj responses ks k).returned (run_finished jobs responses (hturns k))).1
  rcases opening_run hj responses ks with ⟨k', hk' | hk'⟩ | ⟨-, hfresh⟩
  · exact absurd (hdone k') hk'.1.2
  · exact ⟨k', hk'.2⟩
  · have hfin := run_finished jobs responses (hturns k)
    rw [(hfresh k).1] at hfin
    cases hfin

end Run

/-- Two calls, in every schedule that lets both run to their end: each returns with its
command sent and answered, unless it is turned away five times, and one at least gets
through. -/
theorem through_or_turned_away (jobs : Caller → RetryJob) (hj : Healthy jobs)
    (responses : Caller → Bytes) (ks : List Caller) (hturns : ∀ k, maxTurns ≤ ks.count k) :
    (∀ k, ThroughOrTurnedAway jobs responses ks k) ∧
      ∃ k, 0 ≤ (((sendCommandsWithRetry jobs).run (start responses) ks).locals k).call.retCode :=
  ⟨fun k => run_throughOrTurnedAway hj responses (hturns k),
    run_someone hj responses .cec hturns⟩

def contenders : Caller → RetryJob
  | .cec => ⟨[], offCommand, fun _ => greetingScript (.got ⟨onOffAck, onOffAck_fits⟩)⟩
  | .fifo => ⟨[], onCommand, fun _ => greetingScript (.got ⟨onOffAck, onOffAck_fits⟩)⟩

theorem contenders_healthy : Healthy contenders := by
  intro k i _
  cases k
  · exact ⟨_, greetingScript_greeted _, rfl⟩
  · exact ⟨_, greetingScript_greeted _, rfl⟩

theorem through_one_by_one :
    let ks := List.replicate maxTurns Caller.cec ++ List.replicate maxTurns Caller.fifo
    (∀ k, ThroughOrTurnedAway contenders (fun _ => []) ks k) ∧
      ∃ k, 0 ≤ (((sendCommandsWithRetry contenders).run (start fun _ => []) ks).locals
        k).call.retCode :=
  through_or_turned_away contenders contenders_healthy _ _ (by intro k; cases k <;> simp)

/-- The signal handler runs while the CEC thread holds the flag: its five attempts are
over before the flag is cleared. -/
def nested : List Caller :=
  List.replicate 2 .cec ++ List.replicate 10 .fifo ++ List.replicate 12 .cec

theorem nested_command_lost :
    let s := (sendCommandsWithRetry contenders).run (start fun _ => []) nested
    Healthy contenders ∧ (s.locals .cec).finished = true ∧ (s.locals .fifo).finished = true ∧
      (s.locals .fifo).call.retCode = -9 ∧ (s.locals .fifo).call.events.length = 0 :=
  ⟨contenders_healthy, by decide⟩

end CecFix.CommandContention
