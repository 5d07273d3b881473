import CecFix.CommandContention
import CecFix.ConnectWithTimeout
import CecFix.ConnectionPause
import Mathlib.Algebra.Order.BigOperators.Group.List

/-!
# How long a command takes

The steps of `sendCommandWithRetry` with their times, for any number of callers. The
socket's own timeouts are not set, so how long a `read` takes is up to the projector; to
`connect` belongs the deadline that `connect_with_timeout` keeps. From bounds on the single
steps comes one on the whole call, whatever the other callers do meanwhile.
-/

namespace CecFix.ReturnTime
open Lan Connect CommandContention
open ConnectionPause (sleepMs)
open TimedInterleaving (Prompt)

variable {κ : Type*}

abbrev Calls (κ : Type*) := TimedInterleaving Bool (fun _ : κ => RetryCall)

def timed [DecidableEq κ] (jobs : κ → RetryJob) : Transducer (Calls κ) (κ × ℤ) Empty :=
  TimedInterleaving.machine fun k _ => RetryCall.step (jobs k)

def start (responses : κ → Bytes) (arrive : κ → ℤ) (t : ℤ) : Calls κ where
  shared := false
  locals k := .start (responses k)
  now := t
  since := arrive

/-- How long the projector takes to say something, and how long the caller's own work takes
at each step. -/
structure Pace where
  answer : ℤ
  work : ℤ
  answer_nonneg : 0 ≤ answer
  work_nonneg : 0 ≤ work

def stay (p : Pace) : Pc → ℤ
  | .connect => p.work + (sockTimeoutMs + 1)
  | .greet | .readAck | .readAnswer => p.work + p.answer
  | .sleep => p.work + sleepMs
  | _ => p.work

def Running (_ : κ) (c : RetryCall) : Prop := c.finished = false

instance (k : κ) (c : RetryCall) : Decidable (Running k c) := inferInstanceAs (Decidable (_ = _))

def attemptMs (p : Pace) : ℤ := 14 * p.work + 3 * p.answer + (sockTimeoutMs + 1) + sleepMs

variable {p : Pace}

theorem stay_nonneg (p : Pace) (pc : Pc) : 0 ≤ stay p pc := by
  have hanswer := p.answer_nonneg
  have hwork := p.work_nonneg
  cases pc with
  | connect =>
    rw [stay, sockTimeoutMs]
    omega
  | sleep =>
    rw [stay, sleepMs]
    omega
  | greet | readAck | readAnswer => exact add_nonneg hwork hanswer
  | _ => exact hwork

def course : List Pc :=
  [.test, .mark, .create, .resolve, .connect, .greet, .sendRequest, .readAck, .sendCode,
    .readAnswer, .close, .sleep, .clear, .done]

def ahead (pc : Pc) : List Pc := course.drop (13 - stepsLeft pc)

def remaining (p : Pace) (pc : Pc) : ℤ := ((ahead pc).map (stay p)).sum

theorem times_nonneg (p : Pace) (pcs : List Pc) : 0 ≤ (pcs.map (stay p)).sum := by
  apply List.sum_nonneg
  intro d hd
  obtain ⟨pc, -, rfl⟩ := List.mem_map.mp hd
  exact stay_nonneg p pc

theorem remaining_eq (p : Pace) (pc : Pc) :
    remaining p pc = stay p pc + ((course.drop (14 - stepsLeft pc)).map (stay p)).sum := by
  have hahead : ahead pc = pc :: course.drop (14 - stepsLeft pc) := by
    cases pc <;> rfl
  rw [remaining, hahead, List.map_cons, List.sum_cons]

theorem remaining_test (p : Pace) : remaining p .test = attemptMs p := by
  simp only [remaining, ahead, course, stepsLeft, Nat.sub_self, List.drop_zero, List.map_cons,
    List.map_nil, List.sum_cons, List.sum_nil, stay, attemptMs]
  ring

theorem stay_le_remaining (p : Pace) (pc : Pc) : stay p pc ≤ remaining p pc := by
  rw [remaining_eq]
  exact le_add_of_nonneg_right (times_nonneg p _)

theorem remaining_lower (p : Pace) {pc q : Pc} (h : stepsLeft q < stepsLeft pc) :
    remaining p q + stay p pc ≤ remaining p pc := by
  have hsub : (ahead q).Sublist (course.drop (14 - stepsLeft pc)) := by
    have hdrop : ahead q = (course.drop (14 - stepsLeft pc)).drop
        (13 - stepsLeft q - (14 - stepsLeft pc)) := by
      rw [List.drop_drop, ahead]
      congr 1
      have hpc : stepsLeft pc ≤ 13 := by cases pc <;> decide
      omega
    rw [hdrop]
    exact List.drop_sublist ..
  have hsum : remaining p q ≤ ((course.drop (14 - stepsLeft pc)).map (stay p)).sum := by
    apply (hsub.map (stay p)).sum_le_sum
    intro d hd
    obtain ⟨pc', -, rfl⟩ := List.mem_map.mp hd
    exact stay_nonneg p pc'
  rw [remaining_eq p pc]
  omega

def left (p : Pace) (c : RetryCall) : ℤ :=
  (maxRetryCount - 1 - c.retry : ℕ) * attemptMs p + remaining p c.call.pc

theorem remaining_le_left (p : Pace) (c : RetryCall) : remaining p c.call.pc ≤ left p c := by
  have hattempt : 0 ≤ attemptMs p := remaining_test p ▸ times_nonneg p _
  exact le_add_of_nonneg_left (mul_nonneg (Int.natCast_nonneg _) hattempt)

theorem left_start (p : Pace) (response : Bytes) :
    left p (.start response) = maxRetryCount * attemptMs p := by
  have htest : remaining p (Call.start response []).pc = attemptMs p := remaining_test p
  rw [left, RetryCall.start]
  dsimp only
  rw [htest, maxRetryCount]
  push_cast
  ring

theorem left_lower (j : RetryJob) (active : Bool) (c : RetryCall)
    (h : (RetryCall.step j (active, c)).2.finished = false) :
    c.finished = false ∧ left p (RetryCall.step j (active, c)).2 + stay p c.call.pc ≤ left p c := by
  cases hfin : c.finished with
  | true =>
    rw [RetryCall.step_finished hfin, hfin] at h
    cases h
  | false =>
    refine ⟨rfl, ?_⟩
    by_cases hdone : c.call.pc = .done
    · rw [RetryCall.step_done hfin hdone] at h ⊢
      by_cases hagain : c.call.retCode < 0 ∧ c.retry + 1 < maxRetryCount
      · -- the next attempt takes its time out of what was left for the attempts to come
        have hcount : maxRetryCount - 1 - c.retry = maxRetryCount - 1 - (c.retry + 1) + 1 := by
          omega
        have hdoneMs := stay_le_remaining p .done
        rw [RetryCall.again_of_neg hagain.1 hagain.2, left, left, hcount, hdone, Int.natCast_succ,
          Int.add_mul, Int.one_mul, Call.start, remaining_test]
        dsimp only
        omega
      · rw [RetryCall.again_of_last (by omega)] at h
        cases h
    · rw [RetryCall.step_call hfin hdone]
      have hlower := remaining_lower p (stepsLeft_next (j.attempt c.retry) active c.call hdone)
      rw [left, left]
      dsimp only
      omega

/-- If each step of a call comes in time, `sendCommandWithRetry` returns within five times
what an attempt may take, whatever the other callers do. -/
theorem returns_in_time [DecidableEq κ] (jobs : κ → RetryJob) (responses : κ → Bytes)
    (arrive : κ → ℤ) (t : ℤ) (ht : ∀ k, t ≤ arrive k) (p : Pace) (xs : List (κ × ℤ))
    (hxs : (timed jobs).Along (Prompt Running fun _ c => stay p c.call.pc)
      (start responses arrive t) xs) :
    (timed jobs).Throughout
      (fun s => ∀ k, (s.locals k).finished = false → s.now ≤ arrive k + maxRetryCount * attemptMs p)
      (start responses arrive t) xs := by
  have hdue : (timed jobs).Throughout
      (fun s => ∀ k, (s.locals k).finished = false →
        s.now ≤ arrive k + left p (.start (responses k))) (start responses arrive t) xs :=
    TimedInterleaving.throughout_due Running (fun _ c => stay p c.call.pc) (fun _ => left p)
      (fun _ c => (times_nonneg p _).trans (remaining_le_left p c))
      (fun _ c _ => (stay_le_remaining p _).trans (remaining_le_left p c))
      (fun k _ active c h => left_lower (jobs k) active c h) ht hxs
  simpa only [left_start] using hdue

theorem returns_in_time_turned_away :
    (timed contenders).Throughout
      (fun s => ∀ k, (s.locals k).finished = false →
        s.now ≤ 0 + maxRetryCount * attemptMs ⟨100, 20, by decide, by decide⟩)
      (start (fun _ => []) (fun _ => 0) 0)
      ([0, 1].map (Prod.mk .cec) ++ [2, 3, 4, 5, 6, 7, 8, 9, 10, 11].map (Prod.mk .fifo)) :=
  returns_in_time _ _ (fun _ => 0) 0 (fun _ => le_rfl) ⟨100, 20, by decide, by decide⟩ _ (by decide)

end CecFix.ReturnTime
