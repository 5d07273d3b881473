import CecFix.CommandRetry
import CecFix.Interleaving

/-!
# `sendCommand`, one step at a time

The steps of one `sendCommand` call on which other calls can get in between: the
test of `has_active_connection`, both assignments to it, and every system call. A
comparison of received bytes is made in the step of their `read`; all other
variables are local to the call. Log calls are no steps, and the lock that the
logger holds in them is left out. A call that runs through without another one in
between does what `sendCommand` does (`sendCommand_alone`), and such calls in a
loop do what `sendCommandWithRetry` does (`retry_alone`).
-/

namespace CecFix.Lan

inductive Pc where
  | test
  | mark
  | create
  | resolve
  | connect
  | greet
  | sendRequest
  | readAck
  | sendCode
  | readAnswer
  | close
  | sleep
  | clear
  | done
  deriving DecidableEq

structure Job where
  host : Bytes
  code : Bytes
  script : SocketScript

structure Call where
  pc : Pc
  retCode : Int
  response : Bytes
  events : List SockEvent

def Call.start (response : Bytes) (events : List SockEvent) : Call :=
  ⟨.test, 0, response, events⟩

def Call.goto (c : Call) (pc : Pc) (es : List SockEvent) : Call :=
  { c with pc := pc, events := c.events ++ es }

/-- Leave the `do { ... } while (0)` block. -/
def Call.leave (c : Call) (retCode : Int) (es : List SockEvent) : Call :=
  { c with pc := .close, retCode := retCode, events := c.events ++ es }

def Call.next (j : Job) (active : Bool) (c : Call) : Call :=
  match c.pc with
  | .test => if active then { c with pc := .done, retCode := -9 } else c.goto .mark []
  | .mark => c.goto .create []
  | .create =>
    if j.script.sock < 0 then c.leave (-1) [.socket j.script.sock]
    else c.goto .resolve [.socket j.script.sock]
  | .resolve =>
    if j.script.inetPton < 1 then c.leave (-2) [.inetPton j.host]
    else c.goto .connect [.inetPton j.host]
  | .connect =>
    if j.script.connectRet < 1 then c.leave (-3) [.connect] else c.goto .greet [.connect]
  | .greet =>
    match j.script.greeting with
    | .failed => c.leave (-4) [.read .failed]
    | .got g =>
      if CString.strcmp (CString.literal openGreeting)
          (CString.load maxResponseSize g.bytes) ≠ some 0 then c.leave (-5) [.read (.got g)]
      else c.goto .sendRequest [.read (.got g)]
  | .sendRequest => c.goto .readAck [.send request]
  | .readAck =>
    match j.script.ackReply with
    | .failed => c.leave (-4) [.read .failed]
    | .got a =>
      if CString.strcmp (CString.literal ack) (CString.load maxResponseSize a.bytes) ≠ some 0 then
        c.leave (-5) [.read (.got a)]
      else c.goto .sendCode [.read (.got a)]
  | .sendCode => c.goto .readAnswer [.send j.code]
  | .readAnswer =>
    match j.script.answer with
    | .failed => c.leave (-4) [.read .failed]
    | .got a =>
      { c with response := CString.memcpy c.response a.bytes }.leave a.bytes.length
        [.read (.got a)]
  | .close => c.goto .sleep [.close j.script.sock]
  | .sleep => c.goto .clear []
  | .clear => c.goto .done []
  | .done => c

def Pc.activeAfter (pc : Pc) (active : Bool) : Bool :=
  match pc with
  | .mark => true
  | .clear => false
  | _ => active

def Call.step (j : Job) (s : Bool × Call) : Bool × Call :=
  (s.2.pc.activeAfter s.1, s.2.next j s.1)

def Pc.Inside (pc : Pc) : Prop := pc ≠ .test ∧ pc ≠ .done

def Pc.Holding (pc : Pc) : Prop := pc.Inside ∧ pc ≠ .mark

instance (pc : Pc) : Decidable pc.Inside := inferInstanceAs (Decidable (_ ∧ _))
instance (pc : Pc) : Decidable pc.Holding := inferInstanceAs (Decidable (_ ∧ _))

theorem Call.next_pc (j : Job) (active : Bool) (c : Call) :
    (c.pc = .test ∧ active = true ∧ (c.next j active).pc = .done) ∨
      (c.pc = .test ∧ active = false ∧ (c.next j active).pc = .mark) ∨
      (c.pc = .mark ∧ (c.next j active).pc = .create) ∨
      (c.pc.Holding ∧ c.pc ≠ .clear ∧ (c.next j active).pc.Holding) ∨
      (c.pc = .clear ∧ (c.next j active).pc = .done) ∨
      (c.pc = .done ∧ c.next j active = c) := by
  cases hpc : c.pc with
  | test => cases active <;> simp [Call.next, hpc, Call.goto]
  | mark => simp [Call.next, hpc, Call.goto]
  | clear => simp [Call.next, hpc, Call.goto]
  | done => simp [Call.next, hpc]
  | _ =>
    refine Or.inr (Or.inr (Or.inr (Or.inl ⟨by decide, by decide, ?_⟩)))
    simp only [Call.next, hpc]
    repeat' split
    all_goals exact by simp [Call.goto, Call.leave, Pc.Holding, Pc.Inside]

theorem Pc.activeAfter_of_ne {pc : Pc} {active : Bool} (hmark : pc ≠ .mark) (hclear : pc ≠ .clear) :
    pc.activeAfter active = active := by
  cases pc with
  | mark => exact absurd rfl hmark
  | clear => exact absurd rfl hclear
  | _ => rfl

def Call.closed (c : Call) (j : Job) (x : Exchange) : Call :=
  ⟨.done, x.retCode, x.response, c.events ++ x.events ++ [.close j.script.sock]⟩

section Alone
variable {j : Job} {active : Bool} {c : Call}

theorem done_alone (h : c.pc = .done) (n : ℕ) : (Call.step j)^[n] (active, c) = (active, c) := by
  have hstep : Call.step j (active, c) = (active, c) := by
    simp [Call.step, Call.next, Pc.activeAfter, h]
  exact Function.iterate_fixed hstep n

theorem close_alone (h : c.pc = .close) (n : ℕ) :
    (Call.step j)^[n + 3] (active, c) =
      (false, { c with pc := .done, events := c.events ++ [.close j.script.sock] }) := by
  rw [Function.iterate_add_apply]
  simp [Function.iterate_succ_apply, Call.step, Call.next, Call.goto, Pc.activeAfter, h,
    done_alone]

theorem answer_alone (h : c.pc = .sendCode) (n : ℕ) :
    (Call.step j)^[n + 5] (active, c) =
      (false, c.closed j (answerStage j.code c.response j.script)) := by
  rw [show n + 5 = n + 3 + 2 from rfl, Function.iterate_add_apply]
  cases ha : j.script.answer with
  | failed =>
    have hsteps : (Call.step j)^[2] (active, c) =
        (active, c.leave (-4) [.send j.code, .read .failed]) := by
      simp [Call.step, Call.next, Call.goto, Call.leave, Pc.activeAfter, h, ha]
    rw [hsteps, close_alone rfl]
    simp [Call.closed, Call.leave, answerStage_failed ha]
  | got a =>
    have hsteps : (Call.step j)^[2] (active, c) =
        (active, { c with response := CString.memcpy c.response a.bytes }.leave a.bytes.length
          [.send j.code, .read (.got a)]) := by
      simp [Call.step, Call.next, Call.goto, Call.leave, Pc.activeAfter, h, ha]
    rw [hsteps, close_alone rfl]
    simp [Call.closed, Call.leave, answerStage_got ha]

theorem ack_alone (h : c.pc = .sendRequest) (n : ℕ) :
    (Call.step j)^[n + 7] (active, c) =
      (false, c.closed j (ackStage j.code c.response j.script)) := by
  rw [show n + 7 = n + 5 + 2 from rfl, Function.iterate_add_apply]
  cases ha : j.script.ackReply with
  | failed =>
    have hsteps : (Call.step j)^[2] (active, c) =
        (active, c.leave (-4) [.send request, .read .failed]) := by
      simp [Call.step, Call.next, Call.goto, Call.leave, Pc.activeAfter, h, ha]
    rw [hsteps, close_alone rfl]
    simp [Call.closed, Call.leave, ackStage, ha]
  | got a =>
    by_cases hack : CString.strcmp (CString.literal ack)
        (CString.load maxResponseSize a.bytes) = some 0
    · have hsteps : (Call.step j)^[2] (active, c) =
          (active, c.goto .sendCode [.send request, .read (.got a)]) := by
        simp [Call.step, Call.next, Call.goto, Pc.activeAfter, h, ha, hack]
      rw [hsteps, answer_alone rfl]
      simp [Call.closed, Call.goto, ackStage, ha, hack, Exchange.after]
    · have hsteps : (Call.step j)^[2] (active, c) =
          (active, c.leave (-5) [.send request, .read (.got a)]) := by
        simp [Call.step, Call.next, Call.goto, Call.leave, Pc.activeAfter, h, ha, hack]
      rw [hsteps, close_alone rfl]
      simp [Call.closed, Call.leave, ackStage, ha, hack]

theorem greeting_alone (h : c.pc = .greet) (n : ℕ) :
    (Call.step j)^[n + 8] (active, c) =
      (false, c.closed j (greetingStage j.code c.response j.script)) := by
  rw [show n + 8 = n + 7 + 1 from rfl, Function.iterate_succ_apply]
  cases hg : j.script.greeting with
  | failed =>
    have hstep : Call.step j (active, c) = (active, c.leave (-4) [.read .failed]) := by
      simp [Call.step, Call.next, Pc.activeAfter, h, hg]
    rw [hstep, close_alone rfl]
    simp [Call.closed, Call.leave, greetingStage, hg]
  | got g =>
    by_cases hopen : CString.strcmp (CString.literal openGreeting)
        (CString.load maxResponseSize g.bytes) = some 0
    · have hstep : Call.step j (active, c) =
          (active, c.goto .sendRequest [.read (.got g)]) := by
        simp [Call.step, Call.next, Pc.activeAfter, h, hg, hopen]
      rw [hstep, ack_alone rfl]
      simp [Call.closed, Call.goto, greetingStage, hg, hopen, Exchange.after]
    · have hstep : Call.step j (active, c) = (active, c.leave (-5) [.read (.got g)]) := by
        simp [Call.step, Call.next, Pc.activeAfter, h, hg, hopen]
      rw [hstep, close_alone rfl]
      simp [Call.closed, Call.leave, greetingStage, hg, hopen]

theorem exchange_alone (h : c.pc = .create) (n : ℕ) :
    (Call.step j)^[n + 11] (active, c) =
      (false, c.closed j (exchange j.host j.code c.response j.script)) := by
  by_cases hsock : j.script.sock < 0
  · have hstep : Call.step j (active, c) = (active, c.leave (-1) [.socket j.script.sock]) := by
      simp [Call.step, Call.next, Pc.activeAfter, h, hsock]
    rw [show n + 11 = n + 10 + 1 from rfl, Function.iterate_succ_apply, hstep, close_alone rfl]
    simp [Call.closed, Call.leave, exchange, hsock]
  by_cases hres : j.script.inetPton < 1
  · have hsteps : (Call.step j)^[2] (active, c) =
        (active, c.leave (-2) [.socket j.script.sock, .inetPton j.host]) := by
      simp [Call.step, Call.next, Call.goto, Call.leave, Pc.activeAfter, h, hsock, hres]
    rw [show n + 11 = n + 9 + 2 from rfl, Function.iterate_add_apply, hsteps, close_alone rfl]
    simp [Call.closed, Call.leave, exchange, hsock, hres]
  rw [show n + 11 = n + 8 + 3 from rfl, Function.iterate_add_apply]
  by_cases hcon : j.script.connectRet < 1
  · have hsteps : (Call.step j)^[3] (active, c) =
        (active, c.leave (-3) [.socket j.script.sock, .inetPton j.host, .connect]) := by
      simp [Call.step, Call.next, Call.goto, Call.leave, Pc.activeAfter, h, hsock, hres, hcon]
    rw [hsteps, close_alone rfl]
    simp [Call.closed, Call.leave, exchange, hsock, hres, hcon]
  · have hsteps : (Call.step j)^[3] (active, c) =
        (active, c.goto .greet [.socket j.script.sock, .inetPton j.host, .connect]) := by
      simp [Call.step, Call.next, Call.goto, Pc.activeAfter, h, hsock, hres, hcon]
    rw [hsteps, greeting_alone rfl]
    simp [Call.closed, Call.goto, exchange, hsock, hres, hcon, Exchange.after]

end Alone

/-- Run without another call in between, the steps are `sendCommand`. -/
theorem sendCommand_alone (j : Job) (active : Bool) (response : Bytes) (events : List SockEvent)
    (n : ℕ) :
    let r := sendCommand active j.host j.code response j.script
    (Call.step j)^[n + 13] (active, .start response events) =
      (r.active, ⟨.done, r.retCode, r.response, events ++ r.events⟩) := by
  cases active with
  | true =>
    have hstep : Call.step j (true, .start response events) =
        (true, ⟨.done, -9, response, events⟩) := by
      simp [Call.step, Call.next, Call.start, Pc.activeAfter]
    rw [Function.iterate_succ_apply, hstep, done_alone rfl, sendCommand_active]
    simp
  | false =>
    have hsteps : (Call.step j)^[2] (false, .start response events) =
        (true, (Call.start response events).goto .create []) := by
      simp [Call.step, Call.next, Call.start, Call.goto, Pc.activeAfter]
    rw [show n + 13 = n + 11 + 2 from rfl, Function.iterate_add_apply, hsteps, exchange_alone rfl]
    simp [Call.closed, Call.goto, Call.start, sendCommand]

structure RetryJob where
  host : Bytes
  code : Bytes
  scripts : ℕ → SocketScript

def RetryJob.attempt (j : RetryJob) (retry : ℕ) : Job := ⟨j.host, j.code, j.scripts retry⟩

structure RetryCall where
  retry : ℕ
  call : Call
  finished : Bool

def RetryCall.start (response : Bytes) : RetryCall := ⟨0, .start response [], false⟩

/-- `retry++`, and the test of the loop. -/
def RetryCall.again (c : RetryCall) : RetryCall :=
  if c.call.retCode < 0 ∧ c.retry + 1 < maxRetryCount then
    ⟨c.retry + 1, .start c.call.response c.call.events, false⟩
  else ⟨c.retry + 1, c.call, true⟩

def RetryCall.step (j : RetryJob) (s : Bool × RetryCall) : Bool × RetryCall :=
  if s.2.finished then s
  else if s.2.call.pc = .done then (s.1, s.2.again)
  else
    let r := Call.step (j.attempt s.2.retry) (s.1, s.2.call)
    (r.1, { s.2 with call := r.2 })

theorem RetryCall.step_finished {j : RetryJob} {active : Bool} {c : RetryCall}
    (h : c.finished = true) : RetryCall.step j (active, c) = (active, c) :=
  if_pos h

theorem RetryCall.step_done {j : RetryJob} {active : Bool} {c : RetryCall}
    (hfin : c.finished = false) (hdone : c.call.pc = .done) :
    RetryCall.step j (active, c) = (active, c.again) := by
  simp [RetryCall.step, hfin, hdone]

theorem RetryCall.step_call {j : RetryJob} {active : Bool} {c : RetryCall}
    (hfin : c.finished = false) (hdone : c.call.pc ≠ .done) :
    RetryCall.step j (active, c) = (c.call.pc.activeAfter active,
      { c with call := c.call.next (j.attempt c.retry) active }) := by
  simp [RetryCall.step, Call.step, hfin, hdone]

theorem RetryCall.again_of_neg {c : RetryCall} (hcode : c.call.retCode < 0)
    (hretry : c.retry + 1 < maxRetryCount) :
    c.again = ⟨c.retry + 1, .start c.call.response c.call.events, false⟩ :=
  if_pos ⟨hcode, hretry⟩

theorem RetryCall.again_of_last {c : RetryCall}
    (h : 0 ≤ c.call.retCode ∨ maxRetryCount ≤ c.retry + 1) :
    c.again = ⟨c.retry + 1, c.call, true⟩ :=
  if_neg (by omega)

section RetryAlone
variable (j : RetryJob)

theorem attempt_alone (retry n : ℕ) (active : Bool) (c : Call) :
    let r := (Call.step (j.attempt retry))^[n] (active, c)
    ∃ m, (RetryCall.step j)^[m] (active, ⟨retry, c, false⟩) = (r.1, ⟨retry, r.2, false⟩) := by
  induction n generalizing active c with
  | zero => exact ⟨0, rfl⟩
  | succ n ih =>
    by_cases hdone : c.pc = .done
    · exact ⟨0, by simp [done_alone hdone]⟩
    · obtain ⟨m, hm⟩ := ih (Call.step (j.attempt retry) (active, c)).1
        (Call.step (j.attempt retry) (active, c)).2
      refine ⟨m + 1, ?_⟩
      rw [Function.iterate_succ_apply, Function.iterate_succ_apply,
        RetryCall.step_call rfl hdone]
      exact hm

theorem again_alone (retry : ℕ) (active : Bool) (response : Bytes) (events : List SockEvent) :
    let r := sendCommand active j.host j.code response (j.scripts retry)
    ∃ m, (RetryCall.step j)^[m] (active, ⟨retry, .start response events, false⟩) =
      (r.active,
        RetryCall.again ⟨retry, ⟨.done, r.retCode, r.response, events ++ r.events⟩, false⟩) := by
  obtain ⟨m, hm⟩ := attempt_alone j retry 13 active (.start response events)
  have hcall := sendCommand_alone (j.attempt retry) active response events 0
  rw [Nat.zero_add] at hcall
  rw [hcall] at hm
  refine ⟨m + 1, ?_⟩
  rw [Function.iterate_succ_apply', hm, RetryCall.step_done rfl rfl]
  rfl

theorem loop_alone (fuel retry : ℕ) (hfuel : retry + fuel + 1 = maxRetryCount) (active : Bool)
    (response : Bytes) (events : List SockEvent) :
    let r := Retry.loop (attempt j.host j.code j.scripts) (fuel + 1) retry (-1)
      ⟨response, active, events⟩
    ∃ m k, (RetryCall.step j)^[m] (active, ⟨retry, .start response events, false⟩) =
      (r.2.active, ⟨k, ⟨.done, r.1, r.2.response, r.2.events⟩, true⟩) := by
  induction fuel generalizing retry active response events with
  | zero =>
    obtain ⟨m, hm⟩ := again_alone j retry active response events
    refine ⟨m, retry + 1, ?_⟩
    rw [hm, RetryCall.again_of_last (Or.inr hfuel.ge)]
    rfl
  | succ fuel ih =>
    obtain ⟨m, hm⟩ := again_alone j retry active response events
    rw [Retry.loop, if_pos (by omega)]
    by_cases hneg : (sendCommand active j.host j.code response (j.scripts retry)).retCode < 0
    · obtain ⟨m', k, hm'⟩ := ih (retry + 1) (by omega)
        (sendCommand active j.host j.code response (j.scripts retry)).active
        (sendCommand active j.host j.code response (j.scripts retry)).response
        (events ++ (sendCommand active j.host j.code response (j.scripts retry)).events)
      refine ⟨m' + m, k, ?_⟩
      have hcode : (attempt j.host j.code j.scripts retry ⟨response, active, events⟩).1 < 0 := hneg
      have hretry : retry + 1 < maxRetryCount := by omega
      rw [Function.iterate_add_apply, hm, RetryCall.again_of_neg hneg hretry, hm',
        Retry.loop_code hcode]
      rfl
    · refine ⟨m, retry + 1, ?_⟩
      rw [hm, RetryCall.again_of_last (Or.inl (Int.not_lt.mp hneg))]
      have hcode : 0 ≤ (attempt j.host j.code j.scripts retry ⟨response, active, events⟩).1 :=
        Int.not_lt.mp hneg
      rw [Retry.loop_of_nonneg hcode]
      rfl

theorem retry_alone (active : Bool) (response : Bytes) :
    let r := sendCommandWithRetry active j.host j.code response j.scripts
    ∃ m k, (RetryCall.step j)^[m] (active, .start response) =
      (r.active, ⟨k, ⟨.done, r.retCode, r.response, r.events⟩, true⟩) :=
  loop_alone j 4 0 rfl active response []

end RetryAlone

end CecFix.Lan
