import CecFix.PowerStatus

/-!
# The grammar of power status answers

`queryPowerStatus` as a function of what its attempts come to: each of them ends
with a negative code or with the bytes of an answer. The first answer alone
decides, no attempt is made after it, and a status is returned exactly for the
thirteen bytes of its message, with anything behind them.

The outcomes may be any sequence at all. A call that finds the connection flag set
five times is one of them, and so is one that is turned away first and gets its
answer later, when the other exchange is over.
-/

namespace CecFix.Lan

inductive Outcome where
  | code (retCode : Int)
  | received (bytes : Bytes)

def Outcome.Possible : Outcome → Prop
  | .code retCode => retCode < 0
  | .received bytes => bytes.length ≤ maxResponseSize

/-- What is returned, and what becomes of the caller's buffer. -/
def Outcome.leaves : Outcome → Bytes → Int × Bytes
  | .code retCode, response => (retCode, response)
  | .received bytes, response => (bytes.length, CString.memcpy response bytes)

def attemptOutcome (active : Bool) (host code : Bytes) (s : SocketScript) : Outcome :=
  let r := sendCommand active host code (CString.zeros maxResponseSize) s
  if r.retCode < 0 then .code r.retCode else .received (r.response.take r.retCode.toNat)

def queryOutcomes (s : LanState) (scripts : ℕ → SocketScript) (i : ℕ) : Outcome :=
  attemptOutcome s.hasActiveConnection s.host queryPowerCommand (scripts i)

structure FirstReceived (outcomes : ℕ → Outcome) (i : ℕ) (bytes : Bytes) : Prop where
  bound : i < maxRetryCount
  received : outcomes i = .received bytes
  earlier : ∀ j < i, ∃ retCode < 0, outcomes j = .code retCode

structure Queried where
  value : Int
  attempts : ℕ

/-- `queryPowerStatus` on attempts of which only the outcomes are known. -/
def queryOver (outcomes : ℕ → Outcome) : Queried :=
  let r := Retry.retry (Retry.counted fun i => (outcomes i).leaves) maxRetryCount
    (CString.zeros maxResponseSize, 0)
  ⟨if r.1 < 0 then -1 else statusOf r.2.1, r.2.2⟩

def queryCounted (s : LanState) (scripts : ℕ → SocketScript) : Queried :=
  let r := Retry.retry (Retry.counted (attempt s.host queryPowerCommand scripts)) maxRetryCount
    (⟨CString.zeros maxResponseSize, s.hasActiveConnection, []⟩, 0)
  ⟨if r.1 < 0 then -1 else statusOf r.2.1.response, r.2.2⟩

structure Classifies (outcomes : ℕ → Outcome) (q : Queried) : Prop where
  received : ∀ i bytes, FirstReceived outcomes i bytes → q.attempts = i + 1
  unreceived : (∀ i bytes, ¬ FirstReceived outcomes i bytes) → q.attempts = maxRetryCount
  status : ∀ k : Fin 5, q.value = k ↔
    ∃ i bytes, FirstReceived outcomes i bytes ∧ powerAck (statusDigit k) <+: bytes
  other : (¬ ∃ k : Fin 5, q.value = k) → q.value = -1

section Outcomes
variable {outcomes : ℕ → Outcome}

theorem before_codes {n : ℕ} (h : ∀ j < n, ∃ retCode < 0, outcomes j = .code retCode)
    (response : Bytes) :
    Retry.before (fun i => (outcomes i).leaves) 0 response n = response := by
  induction n with
  | zero => rfl
  | succ n ih =>
    obtain ⟨retCode, -, hcode⟩ := h n (Nat.lt_succ_self n)
    rw [Retry.before_succ, ih fun j hj => h j (Nat.lt_succ_of_lt hj), Nat.zero_add, hcode,
      Outcome.leaves]

theorem codes_fail {n : ℕ} (h : ∀ j < n, ∃ retCode < 0, outcomes j = .code retCode)
    (response : Bytes) (j : ℕ) (hj : j < n) :
    ((outcomes j).leaves (Retry.before (fun i => (outcomes i).leaves) 0 response j)).1 < 0 := by
  obtain ⟨retCode, hneg, hcode⟩ := h j hj
  rw [hcode]
  exact hneg

theorem queryOver_received {i : ℕ} {bytes : Bytes} (h : FirstReceived outcomes i bytes) :
    queryOver outcomes = ⟨statusOf bytes, i + 1⟩ := by
  have hfail := codes_fail h.earlier (CString.zeros maxResponseSize)
  have hlast : (outcomes i).leaves (Retry.before (fun i => (outcomes i).leaves) 0
      (CString.zeros maxResponseSize) i) =
      (↑bytes.length, CString.memcpy (CString.zeros maxResponseSize) bytes) := by
    rw [before_codes h.earlier, h.received]
    rfl
  have hok : 0 ≤ ((outcomes i).leaves (Retry.before (fun i => (outcomes i).leaves) 0
      (CString.zeros maxResponseSize) i)).1 := by
    rw [hlast]
    exact Int.natCast_nonneg _
  have hlen : ¬ ((bytes.length : Int) < 0) := by omega
  simp only [queryOver, Retry.retry_counted, Retry.retry_first h.bound hfail hok,
    Retry.calls_first h.bound hfail hok, hlast, if_neg hlen, statusOf_memcpy]

theorem codes_of_unreceived (hposs : ∀ i, (outcomes i).Possible)
    (h : ∀ i bytes, ¬ FirstReceived outcomes i bytes) :
    ∀ j < maxRetryCount, ∃ retCode < 0, outcomes j = .code retCode := by
  intro j
  induction j using Nat.strong_induction_on with
  | _ j ih =>
    intro hj
    have hpossible := hposs j
    cases hout : outcomes j with
    | code retCode =>
      rw [hout] at hpossible
      exact ⟨retCode, hpossible, rfl⟩
    | received bytes => exact absurd ⟨hj, hout, fun i hi => ih i hi (hi.trans hj)⟩ (h j bytes)

theorem queryOver_unreceived (hposs : ∀ i, (outcomes i).Possible)
    (h : ∀ i bytes, ¬ FirstReceived outcomes i bytes) :
    queryOver outcomes = ⟨-1, maxRetryCount⟩ := by
  have hfail := codes_fail (codes_of_unreceived hposs h) (CString.zeros maxResponseSize)
  simp only [queryOver, Retry.retry_counted, Retry.calls_fail hfail,
    if_pos (Retry.retry_fail hfail).1]

theorem queryOver_cases (hposs : ∀ i, (outcomes i).Possible) :
    (∃ i bytes, FirstReceived outcomes i bytes ∧ queryOver outcomes = ⟨statusOf bytes, i + 1⟩) ∨
      ((∀ i bytes, ¬ FirstReceived outcomes i bytes) ∧
        queryOver outcomes = ⟨-1, maxRetryCount⟩) := by
  by_cases hex : ∃ i bytes, FirstReceived outcomes i bytes
  · obtain ⟨i, bytes, h⟩ := hex
    exact Or.inl ⟨i, bytes, h, queryOver_received h⟩
  · have hnone : ∀ i bytes, ¬ FirstReceived outcomes i bytes := fun i bytes h => hex ⟨i, bytes, h⟩
    exact Or.inr ⟨hnone, queryOver_unreceived hposs hnone⟩

theorem classifies (hposs : ∀ i, (outcomes i).Possible) :
    Classifies outcomes (queryOver outcomes) where
  received i bytes h := by rw [queryOver_received h]
  unreceived h := by rw [queryOver_unreceived hposs h]
  status k := by
    constructor
    · intro hk
      rcases queryOver_cases hposs with ⟨i, bytes, h, heq⟩ | ⟨-, heq⟩
      · rw [heq] at hk
        exact ⟨i, bytes, h, (statusOf_eq_iff bytes k).mp hk⟩
      · rw [heq] at hk
        change (-1 : Int) = k at hk
        omega
    · intro hex
      obtain ⟨i, bytes, h, hprefix⟩ := hex
      rw [queryOver_received h]
      exact (statusOf_eq_iff bytes k).mpr hprefix
  other hnone := by
    rcases queryOver_cases hposs with ⟨i, bytes, -, heq⟩ | ⟨-, heq⟩
    · rw [heq] at hnone ⊢
      exact (statusOf_range bytes).resolve_right hnone
    · rw [heq]

end Outcomes

section Attempt
variable (host code response : Bytes) (s : SocketScript)

theorem exchange_retCode (response' : Bytes) :
    (exchange host code response s).retCode = (exchange host code response' s).retCode := by
  unfold exchange greetingStage ackStage answerStage
  split_ifs
  · rfl
  · rfl
  · rfl
  · cases s.greeting with
    | failed => rfl
    | got g =>
      dsimp only
      split_ifs
      · rfl
      · cases s.ackReply with
        | failed => rfl
        | got a =>
          dsimp only
          split_ifs
          · rfl
          · cases s.answer <;> rfl

theorem attemptOutcome_fails (h : ¬ s.Completes) :
    attemptOutcome false host code s =
      .code (sendCommand false host code (CString.zeros maxResponseSize) s).retCode :=
  if_pos (sendCommand_of_not_completes host code (CString.zeros maxResponseSize) h).1

variable {s} in
theorem attemptOutcome_answers {c : Chunk} (h : s.Answers c) :
    attemptOutcome false host code s = .received c.bytes := by
  have hlen : ¬ ((c.bytes.length : Int) < 0) := by omega
  rw [attemptOutcome, sendCommand_answers h]
  simp [hlen, CString.memcpy]

theorem attemptOutcome_possible (active : Bool) :
    (attemptOutcome active host code s).Possible := by
  cases active with
  | true => exact (by decide : (-9 : Int) < 0)
  | false =>
    by_cases hcomp : s.Completes
    · obtain ⟨c, hc⟩ := hcomp
      rw [attemptOutcome_answers host code hc]
      exact c.fits
    · rw [attemptOutcome_fails host code s hcomp]
      exact (sendCommand_of_not_completes host code (CString.zeros maxResponseSize) hcomp).1

/-- All that an attempt does to its caller is its outcome, whoever holds the flag. -/
theorem attemptOutcome_leaves (active : Bool) :
    (attemptOutcome active host code s).leaves response =
      ((sendCommand active host code response s).retCode,
        (sendCommand active host code response s).response) := by
  cases active with
  | true => rfl
  | false =>
    by_cases hcomp : s.Completes
    · obtain ⟨c, hc⟩ := hcomp
      rw [attemptOutcome_answers host code hc, sendCommand_answers hc]
      rfl
    · rw [attemptOutcome_fails host code s hcomp,
        (sendCommand_of_not_completes host code response hcomp).2.1, Outcome.leaves]
      exact Prod.ext (exchange_retCode host code (CString.zeros maxResponseSize) s response) rfl

theorem sendCommand_active_eq (active : Bool) :
    (sendCommand active host code response s).active = active := by
  cases active <;> rfl

end Attempt

section Query
variable (s : LanState) (scripts : ℕ → SocketScript)

theorem query_refines : queryOver (queryOutcomes s scripts) = queryCounted s scripts := by
  have hstep : ∀ k (x : RetryState × ℕ), x.1.active = s.hasActiveConnection →
      Retry.counted (fun i => (queryOutcomes s scripts i).leaves) k (x.1.response, x.2) =
        ((Retry.counted (attempt s.host queryPowerCommand scripts) k x).1,
          (Retry.counted (attempt s.host queryPowerCommand scripts) k x).2.1.response,
          (Retry.counted (attempt s.host queryPowerCommand scripts) k x).2.2) ∧
      (Retry.counted (attempt s.host queryPowerCommand scripts) k x).2.1.active =
        s.hasActiveConnection := by
    intro k x hx
    have hleaves := attemptOutcome_leaves s.host queryPowerCommand x.1.response (scripts k)
      x.1.active
    refine ⟨?_, (sendCommand_active_eq ..).trans hx⟩
    rw [hx] at hleaves
    simp only [Retry.counted, queryOutcomes, hleaves, attempt, hx]
  have hloop := Retry.retry_simulates hstep maxRetryCount
    (s := (⟨CString.zeros maxResponseSize, s.hasActiveConnection, []⟩, 0)) rfl
  simp only [queryOver, queryCounted, hloop]

theorem queryCounted_value :
    (queryCounted s scripts).value = (queryPowerStatus s scripts).value := by
  rw [queryCounted, Retry.retry_counted]
  rfl

theorem queryCounted_events (hs : s.hasActiveConnection = false) :
    (queryCounted s scripts).attempts =
      (queryPowerStatus s scripts).events.countP isSocket := by
  have hstep : ∀ k (x : RetryState × ℕ), x.1.active = false ∧ x.1.events.countP isSocket = x.2 →
      (Retry.counted (attempt s.host queryPowerCommand scripts) k x).2.1.active = false ∧
      (Retry.counted (attempt s.host queryPowerCommand scripts) k x).2.1.events.countP isSocket =
        (Retry.counted (attempt s.host queryPowerCommand scripts) k x).2.2 := by
    rintro k ⟨⟨response, active, events⟩, n⟩ ⟨rfl, hn⟩
    refine ⟨rfl, ?_⟩
    simp only at hn
    simp only [Retry.counted, attempt, List.countP_append, sendCommand_opens, hn]
  have h := Retry.retry_invariant hstep maxRetryCount
    (s := (⟨CString.zeros maxResponseSize, s.hasActiveConnection, []⟩, 0)) ⟨hs, rfl⟩
  rw [Retry.retry_counted] at h
  rw [queryCounted, Retry.retry_counted]
  exact h.2.symm

end Query

end CecFix.Lan
