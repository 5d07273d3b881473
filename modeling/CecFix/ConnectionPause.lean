import CecFix.ConnectionExclusion
import CecFix.TimedInterleaving
import CecFix.WireProtocol

/-!
# The pause between connections

"Wait for host to close other end": `sendCommand` sleeps for a second between `close` and
the clearing of `has_active_connection`. Here every step of every call has its time, and
each system call is entered into a trace with it. As long as tests and settings of the flag
do not cross, the pause is one between any two connections, of the same call or of different
ones, so that no more than one a second are made.
-/

namespace CecFix.ConnectionPause
open Lan TimedTrace
open ConnectionExclusion (Caller Exclusive TestsApart sendCommands)

/-- `chrono::seconds(1)` -/
def sleepMs : ℤ := 1000

structure Shared where
  active : Bool
  log : List (ℤ × SockEvent)

variable {κ : Type*}

abbrev Calls (κ : Type*) := TimedInterleaving Shared (fun _ : κ => Call)

def timedStep (j : Job) (t : ℤ) (s : Shared × Call) : Shared × Call :=
  let r := Call.step j (s.1.active, s.2)
  (⟨r.1, s.1.log ++ stamp t (r.2.events.drop s.2.events.length)⟩, r.2)

def timed [DecidableEq κ] (jobs : κ → Job) : Transducer (Calls κ) (κ × ℤ) Empty :=
  TimedInterleaving.machine fun k => timedStep (jobs k)

def start (responses : κ → Bytes) (t : ℤ) : Calls κ where
  shared := ⟨false, []⟩
  locals k := .start (responses k) []
  now := t
  since _ := t

def untimed (s : Calls κ) : ConnectionExclusion.Calls κ := ⟨s.shared.active, s.locals⟩

theorem untimed_next [DecidableEq κ] (jobs : κ → Job) (s : Calls κ) (k : κ) (t : ℤ) :
    untimed ((timed jobs).next s (k, t)) = (sendCommands jobs).next (untimed s) k := rfl

/-- The clock does not go back, `sleep_for` sleeps at least as long as it says, and tests and
settings of the flag do not cross. -/
structure Sound (s : Calls κ) (x : κ × ℤ) : Prop where
  forward : s.now ≤ x.2
  sleeps : (s.locals x.1).pc = .sleep → s.since x.1 + sleepMs ≤ x.2
  apart : TestsApart (untimed s) x.1

instance [Fintype κ] [DecidableEq κ] (s : Calls κ) (x : κ × ℤ) : Decidable (Sound s x) :=
  decidable_of_iff (s.now ≤ x.2 ∧ ((s.locals x.1).pc = .sleep → s.since x.1 + sleepMs ≤ x.2) ∧
      TestsApart (untimed s) x.1)
    ⟨fun h => ⟨h.1, h.2.1, h.2.2⟩, fun h => ⟨h.forward, h.sleeps, h.apart⟩⟩

/-- `socket` is called a second or more after all that was called before, and in a window of
time at most once and once more for each second. -/
structure Paused (s : Calls κ) : Prop where
  spaced : Spaced isSocket sleepMs s.shared.log
  rate : ∀ a b, a ≤ b → sleepMs * inWindow isSocket a b s.shared.log ≤ b - a + sleepMs

def engaged : Pc → Bool
  | .resolve | .connect | .greet | .sendRequest | .readAck | .sendCode | .readAnswer | .close
  | .sleep => true
  | _ => false

theorem inside_of_engaged {pc : Pc} (h : engaged pc = true) : pc.Inside := by
  revert h
  cases pc <;> decide

structure Speaks (c c' : Call) (es : List SockEvent) : Prop where
  inside : es ≠ [] → c.pc.Inside
  opens : ∀ e ∈ es, isSocket e = true → es = [e] ∧ c.pc = .create
  engages : es ≠ [] → engaged c'.pc = true
  rests : engaged c.pc = true → engaged c'.pc = false → c.pc = .sleep

theorem next_speaks (j : Job) (active : Bool) (c : Call) :
    Speaks c (c.next j active) ((c.next j active).events.drop c.events.length) := by
  cases hpc : c.pc with
  | test => cases active <;> constructor <;> simp [Call.next, hpc, Call.goto, engaged]
  | done => constructor <;> simp [Call.next, hpc, engaged]
  | _ =>
    simp only [Call.next, hpc]
    repeat' split
    all_goals constructor
    all_goals simp [Call.leave, Call.goto, hpc, isSocket, engaged, Pc.Inside]

structure Resting (s : Calls κ) : Prop where
  exclusive : Exclusive (untimed s)
  past : ∀ e ∈ s.shared.log, e.1 ≤ s.now
  asleep : ∀ k, (s.locals k).pc = .sleep → ∀ e ∈ s.shared.log, e.1 ≤ s.since k
  rested : (∀ k, engaged (s.locals k).pc = false) → ∀ e ∈ s.shared.log, e.1 + sleepMs ≤ s.now
  spaced : Spaced isSocket sleepMs s.shared.log

theorem resting_start (responses : κ → Bytes) (t : ℤ) : Resting (start responses t) where
  exclusive := ConnectionExclusion.exclusive_start responses
  past := nofun
  asleep := nofun
  rested _ := nofun
  spaced := .nil

theorem Resting.alone {s : Calls κ} (h : Resting s) {i k : κ} (hik : i ≠ k)
    (hk : (s.locals k).pc.Inside) : engaged (s.locals i).pc = false := by
  by_contra hi
  rw [Bool.not_eq_false] at hi
  exact hik (h.exclusive.alone i k (inside_of_engaged hi) hk)

section Step
variable [DecidableEq κ] {jobs : κ → Job} {s : Calls κ} {k : κ} {t : ℤ}

def said (jobs : κ → Job) (s : Calls κ) (k : κ) : List SockEvent :=
  ((s.locals k).next (jobs k) s.shared.active).events.drop (s.locals k).events.length

theorem log_next : ((timed jobs).next s (k, t)).shared.log = s.shared.log ++ stamp t (said jobs s k) :=
  rfl

theorem locals_next :
    ((timed jobs).next s (k, t)).locals k = (s.locals k).next (jobs k) s.shared.active :=
  TimedInterleaving.next_self s k t

theorem log_of_silent (hsaid : said jobs s k = []) :
    ((timed jobs).next s (k, t)).shared.log = s.shared.log := by
  rw [log_next, hsaid]
  exact List.append_nil _

theorem past_next (h : Resting s) (hx : s.now ≤ t) :
    ∀ e ∈ ((timed jobs).next s (k, t)).shared.log, e.1 ≤ t := by
  intro e he
  rw [log_next, List.mem_append] at he
  rcases he with he | he
  · exact (h.past e he).trans hx
  · obtain ⟨o, -, rfl⟩ := List.mem_map.mp he
    exact le_rfl

theorem asleep_next (h : Resting s) (hx : Sound s (k, t)) {i : κ}
    (hi : (((timed jobs).next s (k, t)).locals i).pc = .sleep) :
    ∀ e ∈ ((timed jobs).next s (k, t)).shared.log,
      e.1 ≤ ((timed jobs).next s (k, t)).since i := by
  by_cases hik : i = k
  · subst hik
    rw [timed, TimedInterleaving.since_self]
    exact past_next h hx.forward
  · rw [timed, TimedInterleaving.next_other s t hik] at hi
    -- the one who sleeps is the only one inside
    have hsaid : said jobs s k = [] := by
      by_contra hne
      have halone := h.alone hik ((next_speaks _ _ _).inside hne)
      rw [hi] at halone
      cases halone
    rw [log_of_silent hsaid, timed, TimedInterleaving.since_other s t hik]
    exact h.asleep i hi

theorem rested_next (h : Resting s) (hx : Sound s (k, t))
    (hall : ∀ i, engaged (((timed jobs).next s (k, t)).locals i).pc = false) :
    ∀ e ∈ ((timed jobs).next s (k, t)).shared.log, e.1 + sleepMs ≤ t := by
  have hk := hall k
  rw [locals_next] at hk
  have hsaid : said jobs s k = [] := by
    by_contra hne
    rw [(next_speaks _ _ _).engages hne] at hk
    cases hk
  rw [log_of_silent hsaid]
  intro e he
  cases hengaged : engaged (s.locals k).pc with
  | true =>
    -- the step is the end of the sleep
    have hpc := (next_speaks _ _ _).rests hengaged hk
    have hsince := h.asleep k hpc e he
    have hslept := hx.sleeps hpc
    dsimp only at hslept
    omega
  | false =>
    have hidle : ∀ i, engaged (s.locals i).pc = false := by
      intro i
      by_cases hik : i = k
      · rw [hik, hengaged]
      · have hi := hall i
        rwa [timed, TimedInterleaving.next_other s t hik] at hi
    have hrested := h.rested hidle e he
    have hforward := hx.forward
    dsimp only at hforward
    omega

theorem spaced_next (h : Resting s) (hx : Sound s (k, t)) :
    Spaced isSocket sleepMs ((timed jobs).next s (k, t)).shared.log := by
  rw [log_next]
  apply h.spaced.append_stamp
  intro o ho hsocket
  obtain ⟨hone, hpc⟩ := (next_speaks _ _ _).opens o ho hsocket
  refine ⟨hone, fun e he => ?_⟩
  -- whoever calls `socket` is inside and has nothing open yet, so that nobody is engaged
  have hidle : ∀ i, engaged (s.locals i).pc = false := by
    intro i
    by_cases hik : i = k
    · rw [hik, hpc]
      rfl
    · exact h.alone hik (by rw [hpc]; decide)
  exact (h.rested hidle e he).trans hx.forward

theorem resting_step (h : Resting s) (hx : Sound s (k, t)) :
    Resting ((timed jobs).next s (k, t)) where
  exclusive := by
    rw [untimed_next]
    exact ConnectionExclusion.exclusive_step h.exclusive hx.apart
  past := past_next h hx.forward
  asleep _ hi := asleep_next h hx hi
  rested := rested_next h hx
  spaced := spaced_next h hx

end Step

theorem connections_paused [DecidableEq κ] (jobs : κ → Job) (responses : κ → Bytes) (t : ℤ)
    (xs : List (κ × ℤ)) (hxs : (timed jobs).Along Sound (start responses t) xs) :
    (timed jobs).Throughout Paused (start responses t) xs := by
  refine Transducer.throughout_of_invariant (I := Resting) (fun s x h hx => resting_step h hx) ?_
    (resting_start responses t) hxs
  intro s h
  refine ⟨h.spaced, fun a b hab => h.spaced.inWindow_le ?_⟩
  rw [sleepMs]
  omega

theorem connections_paused_twice :
    (timed fun _ : Bool × Caller => ConnectionExclusion.standbyJob).Throughout Paused
      (start (fun _ => []) 0)
      ([0, 0, 1, 2, 3, 4, 5, 6, 7, 8, 9].map (Prod.mk (false, .cec)) ++ [((false, .fifo), 10)] ++
        [1009, 1010].map (Prod.mk (false, .cec)) ++
          [1010, 1011, 1012].map (Prod.mk (true, .fifo))) :=
  connections_paused _ _ _ _ (by decide)

end CecFix.ConnectionPause
