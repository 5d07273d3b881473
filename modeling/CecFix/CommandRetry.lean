import CecFix.Retry
import CecFix.SendCommand

/-!
# Five attempts at an exchange

`sendCommandWithRetry` of `lan.cpp`. The first attempt that completes decides the
result; what the failed attempts before it received is not seen by the caller.
-/

namespace CecFix.Lan

structure RetryState where
  response : Bytes
  active : Bool
  events : List SockEvent

def attempt (host code : Bytes) (scripts : ℕ → SocketScript) (retry : ℕ) (st : RetryState) :
    Int × RetryState :=
  let r := sendCommand st.active host code st.response (scripts retry)
  (r.retCode, ⟨r.response, r.active, st.events ++ r.events⟩)

def sendCommandWithRetry (active : Bool) (host code response : Bytes)
    (scripts : ℕ → SocketScript) : SendResult :=
  let r := Retry.retry (attempt host code scripts) maxRetryCount ⟨response, active, []⟩
  ⟨r.1, r.2.response, r.2.active, r.2.events⟩

def attemptEvents (host code response : Bytes) (scripts : ℕ → SocketScript) (n : ℕ) :
    List SockEvent :=
  (List.range n).flatMap fun j => (sendCommand false host code response (scripts j)).events

/-- Attempt `i` is the first of the five to complete, and receives `c`. -/
structure FirstAnswer (scripts : ℕ → SocketScript) (i : ℕ) (c : Chunk) : Prop where
  bound : i < maxRetryCount
  answers : (scripts i).Answers c
  earlier : ∀ j < i, ¬ (scripts j).Completes

theorem firstAnswer_or_none (scripts : ℕ → SocketScript) :
    (∃ i c, FirstAnswer scripts i c) ∨ ∀ j < maxRetryCount, ¬ (scripts j).Completes := by
  rcases Retry.first_or_none (fun j => (scripts j).Completes) maxRetryCount with
    ⟨i, hi, ⟨c, hc⟩, hfail⟩ | hnone
  · exact Or.inl ⟨i, c, hi, hc, hfail⟩
  · exact Or.inr hnone

theorem FirstAnswer.unique {scripts : ℕ → SocketScript} {i j : ℕ} {c d : Chunk}
    (hc : FirstAnswer scripts i c) (hd : FirstAnswer scripts j d) : i = j ∧ c = d := by
  have hij : i = j := by
    rcases lt_trichotomy i j with h | h | h
    · exact absurd ⟨c, hc.answers⟩ (hd.earlier i h)
    · exact h
    · exact absurd ⟨d, hd.answers⟩ (hc.earlier j h)
  subst hij
  have h := hc.answers.2.symm.trans hd.answers.2
  exact ⟨rfl, by injection h⟩

theorem FirstAnswer.zero {scripts : ℕ → SocketScript} {c : Chunk} (h : (scripts 0).Answers c) :
    FirstAnswer scripts 0 c :=
  ⟨by decide, h, fun _ hj => absurd hj (Nat.not_lt_zero _)⟩

theorem retry_active {host code response : Bytes} {scripts : ℕ → SocketScript} :
    sendCommandWithRetry true host code response scripts = ⟨-9, response, true, []⟩ := rfl

section Solo
variable {host code response : Bytes} {scripts : ℕ → SocketScript}

variable (host code response) in
theorem before_attempt {n : ℕ} (hfail : ∀ j < n, ¬ (scripts j).Completes) :
    Retry.before (attempt host code scripts) 0 ⟨response, false, []⟩ n =
      ⟨response, false, attemptEvents host code response scripts n⟩ := by
  induction n with
  | zero => rfl
  | succ n ih =>
    obtain ⟨-, hresp, hact⟩ := sendCommand_of_not_completes host code response
      (hfail n (by omega))
    rw [Retry.before_succ, ih (fun j hj => hfail j (by omega)), Nat.zero_add]
    simp only [attempt, hresp, hact, attemptEvents, List.range_succ, List.flatMap_append,
      List.flatMap_cons, List.flatMap_nil, List.append_nil]

variable (host code response) in
theorem attempt_fails {n : ℕ} (hfail : ∀ j < n, ¬ (scripts j).Completes) (j : ℕ) (hj : j < n) :
    (attempt host code scripts j
      (Retry.before (attempt host code scripts) 0 ⟨response, false, []⟩ j)).1 < 0 := by
  rw [before_attempt host code response (fun i hi => hfail i (hi.trans hj))]
  exact (sendCommand_of_not_completes host code response (hfail j hj)).1

theorem retry_answers {i : ℕ} {c : Chunk} (h : FirstAnswer scripts i c) :
    sendCommandWithRetry false host code response scripts =
      ⟨c.bytes.length, CString.memcpy response c.bytes, false,
        attemptEvents host code response scripts (i + 1)⟩ := by
  have hbefore := before_attempt host code response h.earlier
  have hok : 0 ≤ (attempt host code scripts i
      (Retry.before (attempt host code scripts) 0 ⟨response, false, []⟩ i)).1 := by
    rw [hbefore]
    exact sendCommand_retCode_nonneg_iff.mpr ⟨c, h.answers⟩
  rw [sendCommandWithRetry,
    Retry.retry_first h.bound (attempt_fails host code response h.earlier) hok, hbefore]
  simp [attempt, attemptEvents, sendCommand_answers h.answers, List.range_succ]

variable (host code response) in
theorem retry_unanswered (hfail : ∀ j < maxRetryCount, ¬ (scripts j).Completes) :
    (sendCommandWithRetry false host code response scripts).retCode < 0 ∧
      (sendCommandWithRetry false host code response scripts).response = response ∧
      (sendCommandWithRetry false host code response scripts).active = false ∧
      (sendCommandWithRetry false host code response scripts).events =
        attemptEvents host code response scripts maxRetryCount := by
  obtain ⟨hneg, hstate⟩ := Retry.retry_fail (attempt_fails host code response hfail)
  rw [before_attempt host code response hfail] at hstate
  simp only [sendCommandWithRetry, hstate]
  exact ⟨hneg, trivial, trivial, trivial⟩

theorem send_mem_attemptEvents (hcode : code ≠ request) {n : ℕ} :
    .send code ∈ attemptEvents host code response scripts n ↔ ∃ j < n, (scripts j).Greeted := by
  simp [attemptEvents, sendCommand_sends_iff hcode]

variable (host code response scripts) in
theorem retry_events : ∃ n, (sendCommandWithRetry false host code response scripts).events =
    attemptEvents host code response scripts n := by
  rcases firstAnswer_or_none scripts with ⟨i, c, h⟩ | hnone
  · exact ⟨i + 1, by rw [retry_answers h]⟩
  · exact ⟨_, (retry_unanswered host code response hnone).2.2.2⟩

variable (host code response) in
theorem retry_silent_iff :
    (∀ b, .send b ∉ (sendCommandWithRetry false host code response scripts).events) ↔
      ∀ j < maxRetryCount, ¬ (scripts j).Opened := by
  have hattempts : ∀ n, (∀ b, .send b ∉ attemptEvents host code response scripts n) ↔
      ∀ j < n, ¬ (scripts j).Opened := by
    intro n
    simp only [attemptEvents, List.mem_flatMap, List.mem_range, not_exists, not_and]
    constructor
    · intro h j hj
      exact sendCommand_silent_iff.mp fun b => h b j hj
    · intro h b j hj
      exact sendCommand_silent_iff.mpr (h j hj) b
  rcases firstAnswer_or_none scripts with ⟨i, c, h⟩ | hnone
  · rw [retry_answers h, hattempts]
    have hopen := h.answers.1.opened
    apply iff_of_false
    · exact fun hsilent => hsilent i (by omega) hopen
    · exact fun hsilent => hsilent i h.bound hopen
  · rw [(retry_unanswered host code response hnone).2.2.2, hattempts]

theorem retry_sends {b : Bytes}
    (h : .send b ∈ (sendCommandWithRetry false host code response scripts).events) :
    b = request ∨ b = code := by
  obtain ⟨n, hn⟩ := retry_events host code response scripts
  rw [hn, attemptEvents, List.mem_flatMap] at h
  obtain ⟨j, -, hj⟩ := h
  exact exchange_sends (sendCommand_send_mem.mp hj)

theorem attemptEvents_opens (n : ℕ) :
    (attemptEvents host code response scripts n).countP isSocket = n := by
  induction n with
  | zero => rfl
  | succ n ih =>
    simp only [attemptEvents] at ih ⊢
    simp [List.range_succ, List.flatMap_append, ih, sendCommand_opens]

variable (host code response scripts) in
theorem retry_opens (active : Bool) :
    (sendCommandWithRetry active host code response scripts).events.countP isSocket ≤
      maxRetryCount := by
  cases active with
  | true => exact Nat.zero_le _
  | false =>
    rcases firstAnswer_or_none scripts with ⟨i, c, h⟩ | hnone
    · rw [retry_answers h, attemptEvents_opens]
      exact h.bound
    · rw [(retry_unanswered host code response hnone).2.2.2, attemptEvents_opens]

end Solo

end CecFix.Lan
