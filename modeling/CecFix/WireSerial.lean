import CecFix.CommandContention
import CecFix.WireProtocol

/-!
# The projector and several callers

What the projector sees of calls that overlap: the system calls of all of them in the
order in which they are made. As long as tests and settings of the flag do not cross,
this merged trace is one conversation, as from a daemon that makes one call after the
other.

With or without that, nothing that the callers do to each other keeps the flag set: each
call of `sendCommandWithRetry` returns after its own turns, its own system calls are whole
exchanges, and when all have returned the flag is clear.
-/

namespace CecFix.WireSerial
open Lan WireProtocol
open ConnectionExclusion (Caller Exclusive TestsApart sendCommands)

variable {κ : Type*}

structure Seen where
  active : Bool
  log : List SockEvent

abbrev Watched (κ : Type*) := Interleaving Seen (fun _ : κ => Call)

def watchedStep (j : Job) (s : Seen × Call) : Seen × Call :=
  let r := Call.step j (s.1.active, s.2)
  (⟨r.1, s.1.log ++ r.2.events.drop s.2.events.length⟩, r.2)

def watched [DecidableEq κ] (jobs : κ → Job) : Transducer (Watched κ) κ Empty :=
  Interleaving.machine fun k => watchedStep (jobs k)

def start (responses : κ → Bytes) : Watched κ := ⟨⟨false, []⟩, fun k => .start (responses k) []⟩

def unwatch (s : Watched κ) : ConnectionExclusion.Calls κ := ⟨s.shared.active, s.locals⟩

theorem unwatch_next [DecidableEq κ] (jobs : κ → Job) (s : Watched κ) (k : κ) :
    unwatch ((watched jobs).next s k) = (sendCommands jobs).next (unwatch s) k := rfl

def codesOf (jobs : κ → Job) : Set Bytes := Set.range fun k => (jobs k).code

/-- The trace is a conversation as far as it has got, and is complete when no call is
between its test and its return. -/
def OneConversation (jobs : κ → Job) (host : Bytes) (s : Watched κ) : Prop :=
  ∃ w, TracePath (Talks host (codesOf jobs)) .closed s.shared.log w ∧
    ((∀ k, ¬ (s.locals k).pc.Inside) → w = .closed)

structure Serial (jobs : κ → Job) (host : Bytes) (s : Watched κ) : Prop where
  exclusive : Exclusive (unwatch s)
  wire : ∃ w, TracePath (Talks host (codesOf jobs)) .closed s.shared.log w ∧
    (∀ k, (s.locals k).pc.Inside → Stands (jobs k).script.sock w (s.locals k).pc) ∧
    ((∀ k, ¬ (s.locals k).pc.Inside) → w = .closed)

theorem serial_start (jobs : κ → Job) (host : Bytes) (responses : κ → Bytes) :
    Serial jobs host (start responses) where
  exclusive := ConnectionExclusion.exclusive_start responses
  wire := ⟨.closed, .refl _, fun _ hk => absurd rfl hk.1, fun _ => rfl⟩

theorem stands_outside {sock : Int} {pc : Pc} (h : ¬ pc.Inside) : Stands sock .closed pc := by
  cases pc with
  | test => rfl
  | done => rfl
  | _ => exact absurd (by decide) h

theorem stands_closed {sock : Int} {w : Wire} {pc : Pc} (hpc : ¬ pc.Inside)
    (h : Stands sock w pc) : w = .closed :=
  h.of_outside fun hhold => hpc hhold.1

section Step
variable [DecidableEq κ] {jobs : κ → Job} {host : Bytes} {s : Watched κ} {k : κ}

theorem serial_next_of_stands (hhost : (jobs k).host = host)
    (hexcl : Exclusive (unwatch ((watched jobs).next s k)))
    (hother : ∀ i, i ≠ k → ¬ (s.locals i).pc.Inside) {w : Wire}
    (htrace : TracePath (Talks host (codesOf jobs)) .closed s.shared.log w)
    (hstands : Stands (jobs k).script.sock w (s.locals k).pc) :
    Serial jobs host ((watched jobs).next s k) := by
  obtain ⟨es, w', hev, htalk, hnext⟩ :=
    next_talks (show (jobs k).code ∈ codesOf jobs from ⟨k, rfl⟩) s.shared.active hstands
  have hself : ((watched jobs).next s k).locals k = (s.locals k).next (jobs k) s.shared.active :=
    Interleaving.next_self s k
  have hlog : ((watched jobs).next s k).shared.log = s.shared.log ++ es := by
    show s.shared.log ++ List.drop _ ((s.locals k).next (jobs k) s.shared.active).events = _
    rw [hev, List.drop_left]
  refine ⟨hexcl, w', ?_, ?_, ?_⟩
  · rw [hlog]
    exact htrace.append (hhost ▸ htalk)
  · intro i hi
    have hik : i = k := by
      by_contra hne
      apply hother i hne
      rwa [watched, Interleaving.next_other s hne] at hi
    subst hik
    rw [hself]
    exact hnext
  · intro hnone
    have hk := hnone k
    rw [hself] at hk
    exact stands_closed hk hnext

theorem serial_step (hhost : (jobs k).host = host) (h : Serial jobs host s)
    (hx : TestsApart (unwatch s) k) : Serial jobs host ((watched jobs).next s k) := by
  have hexcl : Exclusive (unwatch ((watched jobs).next s k)) := by
    rw [unwatch_next]
    exact ConnectionExclusion.exclusive_step h.exclusive hx
  obtain ⟨w, htrace, hinside, hnone⟩ := h.wire
  by_cases hin : (s.locals k).pc.Inside
  · have hother : ∀ i, i ≠ k → ¬ (s.locals i).pc.Inside :=
      fun i hik hi => hik (h.exclusive.alone i k hi hin)
    exact serial_next_of_stands hhost hexcl hother htrace (hinside k hin)
  · -- The call is before its test or has returned: only a test that is passed changes anything.
    by_cases hpass : (s.locals k).pc = .test ∧ s.shared.active = false
    · have hother : ∀ i, i ≠ k → ¬ (s.locals i).pc.Inside :=
        fun i hik => h.exclusive.none_inside hpass.2 (hx hpass.1 hpass.2 i hik)
      have hclosed : w = .closed := by
        apply hnone
        intro i
        by_cases hik : i = k
        · rwa [hik]
        · exact hother i hik
      subst hclosed
      exact serial_next_of_stands hhost hexcl hother htrace (stands_outside hin)
    · have hself : ((watched jobs).next s k).locals k =
          (s.locals k).next (jobs k) s.shared.active := Interleaving.next_self s k
      have hnext : ((s.locals k).next (jobs k) s.shared.active).events = (s.locals k).events ∧
          ¬ ((s.locals k).next (jobs k) s.shared.active).pc.Inside := by
        rcases Call.next_pc (jobs k) s.shared.active (s.locals k) with
          ⟨hpc, hact, -⟩ | ⟨hpc, hact, -⟩ | ⟨hpc, -⟩ | ⟨hpc, -⟩ | ⟨hpc, -⟩ | ⟨hpc, hsame⟩
        · simp [Call.next, hpc, hact, Pc.Inside]
        · exact absurd ⟨hpc, hact⟩ hpass
        · exact absurd (by rw [hpc]; decide) hin
        · exact absurd hpc.1 hin
        · exact absurd (by rw [hpc]; decide) hin
        · rw [hsame]
          exact ⟨rfl, hin⟩
      have hlog : ((watched jobs).next s k).shared.log = s.shared.log := by
        show s.shared.log ++ List.drop _ ((s.locals k).next (jobs k) s.shared.active).events = _
        rw [hnext.1, List.drop_length, List.append_nil]
      have hsame : ∀ i, (((watched jobs).next s k).locals i).pc.Inside →
          ((watched jobs).next s k).locals i = s.locals i := by
        intro i hi
        by_cases hik : i = k
        · subst hik
          rw [hself] at hi
          exact absurd hi hnext.2
        · exact Interleaving.next_other s hik
      refine ⟨hexcl, w, ?_, ?_, ?_⟩
      · rw [hlog]
        exact htrace
      · intro i hi
        have hstay := hsame i hi
        rw [hstay] at hi ⊢
        exact hinside i hi
      · intro hout
        apply hnone
        intro i
        by_cases hik : i = k
        · rwa [hik]
        · have hi := hout i
          rwa [watched, Interleaving.next_other s hik] at hi

end Step

theorem one_conversation [DecidableEq κ] (jobs : κ → Job) (host : Bytes)
    (hhost : ∀ k, (jobs k).host = host) (responses : κ → Bytes) (ks : List κ)
    (hks : (watched jobs).Along (fun s k => TestsApart (unwatch s) k) (start responses) ks) :
    (watched jobs).Throughout (OneConversation jobs host) (start responses) ks := by
  refine Transducer.throughout_of_invariant (I := Serial jobs host) ?_ ?_
    (serial_start jobs host responses) hks
  · exact fun s k h hx => serial_step (hhost k) h hx
  · intro s h
    obtain ⟨w, htrace, -, hnone⟩ := h.wire
    exact ⟨w, htrace, hnone⟩

theorem one_conversation_turned_away :
    (watched fun _ : Caller => ConnectionExclusion.standbyJob).Throughout
      (OneConversation (fun _ => ConnectionExclusion.standbyJob) []) (start fun _ => [])
      [.cec, .cec, .cec, .fifo, .cec] :=
  one_conversation _ [] (fun _ => rfl) _ _ (by decide)

section Callers
open CommandContention (sendCommandsWithRetry maxTurns run_finished)

def opened : Pc → ℕ
  | .test | .mark | .create => 0
  | _ => 1

structure Talking (j : RetryJob) (c : RetryCall) : Prop where
  wire : ∃ w, TracePath (Talks j.host {j.code}) .closed c.call.events w ∧
    Stands (j.scripts c.retry).sock w c.call.pc
  opens : c.call.events.countP isSocket ≤ c.retry + opened c.call.pc
  bound : c.retry < maxRetryCount

structure Returned (j : RetryJob) (c : RetryCall) : Prop where
  done : c.call.pc = .done
  exchanges : Exchanges j.host j.code maxRetryCount c.call.events

def Tracked (j : RetryJob) (c : RetryCall) : Prop :=
  (c.finished = false ∧ Talking j c) ∨ (c.finished = true ∧ Returned j c)

theorem tracked_start (j : RetryJob) (response : Bytes) : Tracked j (.start response) :=
  Or.inl ⟨rfl, ⟨.closed, .refl _, rfl⟩, Nat.zero_le _, Nat.succ_pos _⟩

theorem next_opens (j : Job) (active : Bool) (c : Call) :
    (c.next j active).events.countP isSocket + opened c.pc ≤
      c.events.countP isSocket + opened (c.next j active).pc := by
  cases hpc : c.pc with
  | test => cases active <;> simp [Call.next, hpc, Call.goto, opened]
  | done => simp [Call.next, hpc]
  | _ =>
    simp only [Call.next, hpc]
    repeat' split
    all_goals simp [Call.leave, Call.goto, isSocket, opened]

theorem Talking.next {j : RetryJob} {c : RetryCall} (h : Talking j c) (active : Bool) :
    Talking j { c with call := c.call.next (j.attempt c.retry) active } where
  wire := by
    obtain ⟨w, htrace, hstands⟩ := h.wire
    obtain ⟨es, w', hev, htalk, hnext⟩ :=
      next_talks (j := j.attempt c.retry) (Set.mem_singleton j.code) active hstands
    refine ⟨w', ?_, hnext⟩
    dsimp only
    rw [hev]
    exact htrace.append htalk
  opens := by
    have hstep := next_opens (j.attempt c.retry) active c.call
    have hbefore := h.opens
    dsimp only
    omega
  bound := h.bound

theorem Talking.again {j : RetryJob} {c : RetryCall} (h : Talking j c) (hdone : c.call.pc = .done) :
    Tracked j c.again := by
  obtain ⟨w, htrace, hstands⟩ := h.wire
  obtain rfl : w = .closed := stands_closed (by rw [hdone]; decide) hstands
  have hopens := h.opens
  have hbound := h.bound
  rw [hdone] at hopens
  by_cases hagain : c.call.retCode < 0 ∧ c.retry + 1 < maxRetryCount
  · rw [RetryCall.again_of_neg hagain.1 hagain.2]
    exact Or.inl ⟨rfl, ⟨.closed, htrace, rfl⟩, hopens, hagain.2⟩
  · rw [RetryCall.again_of_last (by omega)]
    exact Or.inr ⟨rfl, hdone, htrace, hopens.trans hbound⟩

theorem tracked_step {j : RetryJob} {c : RetryCall} (h : Tracked j c) (active : Bool) :
    Tracked j (RetryCall.step j (active, c)).2 := by
  rcases h with ⟨hfin, htalk⟩ | ⟨hfin, hret⟩
  · by_cases hdone : c.call.pc = .done
    · rw [RetryCall.step_done hfin hdone]
      exact htalk.again hdone
    · rw [RetryCall.step_call hfin hdone]
      exact Or.inl ⟨hfin, htalk.next active⟩
  · rw [RetryCall.step_finished hfin]
    exact Or.inr ⟨hfin, hret⟩

def Held (s : CommandContention.Calls κ) : Prop :=
  s.shared = true → ∃ k, (s.locals k).call.pc.Holding

variable [DecidableEq κ] {jobs : κ → RetryJob}

theorem held_of_other {s : CommandContention.Calls κ} {k : κ} (h : Held s)
    (hk : ¬ (s.locals k).call.pc.Holding)
    (hshared : ((sendCommandsWithRetry jobs).next s k).shared = true → s.shared = true) :
    Held ((sendCommandsWithRetry jobs).next s k) := by
  intro hset
  obtain ⟨i, hi⟩ := h (hshared hset)
  have hik : i ≠ k := by
    intro hik
    subst hik
    exact hk hi
  refine ⟨i, ?_⟩
  rwa [sendCommandsWithRetry, Interleaving.next_other s hik]

theorem held_step (s : CommandContention.Calls κ) (k : κ) (hk : Tracked (jobs k) (s.locals k))
    (h : Held s) : Held ((sendCommandsWithRetry jobs).next s k) := by
  have hshared : ((sendCommandsWithRetry jobs).next s k).shared =
      (RetryCall.step (jobs k) (s.shared, s.locals k)).1 := rfl
  rcases hk with ⟨hfin, -⟩ | ⟨hfin, hret⟩
  · by_cases hdone : (s.locals k).call.pc = .done
    · apply held_of_other h (by rw [hdone]; decide)
      rw [hshared, RetryCall.step_done hfin hdone]
      exact id
    · have hself : (((sendCommandsWithRetry jobs).next s k).locals k).call =
          (s.locals k).call.next ((jobs k).attempt (s.locals k).retry) s.shared := by
        rw [sendCommandsWithRetry, Interleaving.next_self, RetryCall.step_call hfin hdone]
      rw [RetryCall.step_call hfin hdone] at hshared
      rcases Call.next_pc ((jobs k).attempt (s.locals k).retry) s.shared (s.locals k).call with
        ⟨hpc, hact, -⟩ | ⟨hpc, hact, -⟩ | ⟨-, hnext⟩ | ⟨-, -, hnext⟩ | ⟨hpc, -⟩ | ⟨hpc, -⟩
      · exact held_of_other h (by rw [hpc]; decide) fun _ => hact
      · intro hset
        rw [hshared, hpc] at hset
        exact absurd (hact.symm.trans hset) Bool.false_ne_true
      · intro _
        refine ⟨k, ?_⟩
        rw [hself, hnext]
        decide
      · intro _
        refine ⟨k, ?_⟩
        rw [hself]
        exact hnext
      · intro hset
        rw [hshared, hpc] at hset
        cases hset
      · exact absurd hpc hdone
  · apply held_of_other h (by rw [hret.done]; decide)
    rw [hshared, RetryCall.step_finished hfin]
    exact id

/-- Any number of callers, any results of their system calls, any schedule in which each
gets its turns: all return, each has made whole exchanges and at most five of them, and
the next call finds the flag clear. -/
theorem all_return (jobs : κ → RetryJob) (responses : κ → Bytes) (ks : List κ)
    (hturns : ∀ k, maxTurns ≤ ks.count k) :
    let s := (sendCommandsWithRetry jobs).run (CommandContention.start responses) ks
    s.shared = false ∧ ∀ k, (s.locals k).finished = true ∧
      Exchanges (jobs k).host (jobs k).code maxRetryCount (s.locals k).call.events := by
  intro s
  have hinv : (∀ k, Tracked (jobs k) (s.locals k)) ∧ Held s := by
    refine Transducer.run_invariant_of_step
      (I := fun s : CommandContention.Calls κ => (∀ k, Tracked (jobs k) (s.locals k)) ∧ Held s)
      ?_ ⟨fun k => tracked_start (jobs k) _, fun h => absurd h Bool.false_ne_true⟩ ks
    intro s x h
    refine ⟨?_, held_step s x (h.1 x) h.2⟩
    exact Interleaving.next_locals (fun k c => Tracked (jobs k) c) (tracked_step (h.1 x) s.shared)
      fun k _ => h.1 k
  have hreturned : ∀ k, (s.locals k).finished = true ∧ Returned (jobs k) (s.locals k) := by
    intro k
    have hfin : (s.locals k).finished = true := run_finished jobs responses (hturns k)
    rcases hinv.1 k with ⟨hrun, -⟩ | hret
    · rw [hfin] at hrun
      cases hrun
    · exact hret
  refine ⟨?_, fun k => ⟨(hreturned k).1, (hreturned k).2.exchanges⟩⟩
  by_contra hset
  obtain ⟨k, hk⟩ := hinv.2 (Bool.not_eq_false _ ▸ hset)
  rw [(hreturned k).2.done] at hk
  exact absurd rfl hk.1.2

theorem both_return :
    let jobs : Caller → RetryJob := fun _ => ⟨[], offCommand, Cec.unreachable.command⟩
    let ks : List Caller := [.fifo, .cec, .fifo, .cec] ++ List.replicate maxTurns .fifo ++
      List.replicate maxTurns .cec
    let s := (sendCommandsWithRetry jobs).run (CommandContention.start fun _ => []) ks
    s.shared = false ∧ ∀ k, (s.locals k).finished = true ∧
      Exchanges (jobs k).host (jobs k).code maxRetryCount (s.locals k).call.events :=
  all_return _ _ _ (by
    intro k
    cases k <;> simp only [List.count_append, List.count_replicate] <;> simp)

end Callers

end CecFix.WireSerial
