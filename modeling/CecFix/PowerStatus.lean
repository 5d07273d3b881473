import CecFix.CommandRetry

/-!
# Power status, its ten second cache, and the power commands

The callers of `sendCommandWithRetry` in `lan.cpp` over the file's globals. The
clock reading and the results of the system calls are arguments. `ms_elapsed` is
computed on unbounded integers and narrowed to a 32 bit `int` once, at the end:
a wrap of the 64 bit intermediate results does not show modulo `2 ^ 32`.
-/

namespace CecFix.Lan

def powerQueryTtlMs : Int := 10000

/-- The projector's answer to `queryPowerCommand`: the acknowledgement of the
command, then the report with status digit `d`. -/
def powerAck (d : UInt8) : Bytes :=
  [0x06, 0x89, 0x01, 0x50, 0x57, 0x0A, 0x40, 0x89, 0x01, 0x50, 0x57, d, 0x0A]

def standbyAck : Bytes := powerAck 0x30
def powerOnAck : Bytes := powerAck 0x31
def coolingAck : Bytes := powerAck 0x32
def warmingAck : Bytes := powerAck 0x33
def emergencyAck : Bytes := powerAck 0x34

structure Timespec where
  tvSec : Int
  tvNsec : Int

/-- `host` is the string in `HOST`. It stays what was set if its NUL lies within the array too,
that is, up to 14 characters: what lies behind is the flag. -/
structure LanState where
  host : Bytes
  hasActiveConnection : Bool
  lastPowerQuery : Timespec
  lastPowerQueryResult : Int

structure Ran (α : Type) where
  value : α
  state : LanState
  events : List SockEvent

/-- `sendCommandWithRetry(HOST, code, sizeof(code), response)` with a zeroed response. -/
def commandHost (code : Bytes) (s : LanState) (scripts : ℕ → SocketScript) : Ran (Int × Bytes) :=
  let r := sendCommandWithRetry s.hasActiveConnection s.host code (CString.zeros maxResponseSize)
    scripts
  ⟨(r.retCode, r.response), { s with hasActiveConnection := r.active }, r.events⟩

/-- `memcmp(response, pattern, sizeof(pattern)) == 0` -/
def answerIs (response pattern : Bytes) : Bool :=
  CString.memEqual response pattern pattern.length

def statusOf (response : Bytes) : Int :=
  if answerIs response standbyAck then 0
  else if answerIs response powerOnAck then 1
  else if answerIs response coolingAck then 2
  else if answerIs response warmingAck then 3
  else if answerIs response emergencyAck then 4
  else -1

def queryPowerStatus (s : LanState) (scripts : ℕ → SocketScript) : Ran Int :=
  let r := commandHost queryPowerCommand s scripts
  ⟨if r.value.1 < 0 then -1 else statusOf r.value.2, r.state, r.events⟩

def queryPowerStatusCacheClear (s : LanState) : LanState := { s with lastPowerQueryResult := -1 }

def toInt32 (x : Int) : Int := x.bmod (2 ^ 32)

def msElapsed (now last : Timespec) : Int :=
  toInt32 ((now.tvSec - last.tvSec) * 1000 + (now.tvNsec - last.tvNsec).tdiv 1000000)

def refresh (s : LanState) (now : Timespec) (scripts : ℕ → SocketScript) : Ran Int :=
  let q := queryPowerStatus s scripts
  ⟨q.value, { q.state with lastPowerQueryResult := q.value, lastPowerQuery := now }, q.events⟩

def queryPowerStatusCached (s : LanState) (now : Timespec) (scripts : ℕ → SocketScript) :
    Ran Int :=
  if s.lastPowerQueryResult = -1 then refresh s now scripts
  else if powerQueryTtlMs ≤ msElapsed now s.lastPowerQuery then refresh s now scripts
  else ⟨s.lastPowerQueryResult, s, []⟩

/-- The common body of `sendOn` and `sendOff`. -/
def sendPower (code : Bytes) (s : LanState) (scripts : ℕ → SocketScript) : Ran Int :=
  let r := commandHost code s scripts
  if r.value.1 < 0 then ⟨r.value.1, r.state, r.events⟩
  else ⟨0, queryPowerStatusCacheClear r.state, r.events⟩

def sendOn : LanState → (ℕ → SocketScript) → Ran Int := sendPower onCommand
def sendOff : LanState → (ℕ → SocketScript) → Ran Int := sendPower offCommand

/-- Unlike `sendOn` and `sendOff`, this leaves the cached status in place. -/
def sendNull (s : LanState) (scripts : ℕ → SocketScript) : Ran Int :=
  let r := commandHost nullCommand s scripts
  if r.value.1 < 0 then ⟨r.value.1, r.state, r.events⟩ else ⟨0, r.state, r.events⟩

/-- The common body of `isOn` and `isOff`; an error is the `runtime_error` thrown. -/
def statusIs (test : Int → Bool) (s : LanState) (now : Timespec) (scripts : ℕ → SocketScript) :
    Ran (Except String Bool) :=
  let q := queryPowerStatusCached s now scripts
  ⟨if q.value < 0 then .error ("Networking error: " ++ toString q.value) else .ok (test q.value),
    q.state, q.events⟩

def isOn : LanState → Timespec → (ℕ → SocketScript) → Ran (Except String Bool) :=
  statusIs fun status => status == 1 || status == 3
def isOff : LanState → Timespec → (ℕ → SocketScript) → Ran (Except String Bool) :=
  statusIs fun status => status == 0 || status == 2

def bootState (host : Bytes) : LanState where
  host := host
  hasActiveConnection := false
  lastPowerQuery := ⟨0, 0⟩
  lastPowerQueryResult := -1

def LanState.Fresh (s : LanState) (now : Timespec) : Prop :=
  s.lastPowerQueryResult ≠ -1 ∧ msElapsed now s.lastPowerQuery < powerQueryTtlMs

instance (s : LanState) (now : Timespec) : Decidable (s.Fresh now) :=
  inferInstanceAs (Decidable (_ ∧ _))

theorem answerIs_iff (response pattern : Bytes) :
    answerIs response pattern = true ↔ pattern <+: response :=
  CString.memEqual_iff rfl

theorem powerAck_inj {d e : UInt8} {bytes : Bytes} (hd : powerAck d <+: bytes)
    (he : powerAck e <+: bytes) : d = e := by
  have h := List.prefix_of_prefix_length_le hd he (by simp [powerAck])
  simpa [powerAck, List.cons_prefix_cons] using h

-- so that numerals name the statuses
instance statuses_nonempty : NeZero 5 := ⟨by decide⟩

def statusDigit (k : Fin 5) : UInt8 := 0x30 + UInt8.ofNat k

theorem statusAnswer_fits (k : Fin 5) : (powerAck (statusDigit k)).length ≤ maxResponseSize := by
  simp [powerAck, maxResponseSize]

theorem statusOf_eq_iff (response : Bytes) (k : Fin 5) :
    statusOf response = k ↔ powerAck (statusDigit k) <+: response := by
  constructor
  · intro h
    rw [statusOf] at h
    split_ifs at h with h0 h1 h2 h3 h4
    · obtain rfl : k = 0 := by omega
      exact (answerIs_iff _ _).mp h0
    · obtain rfl : k = 1 := by omega
      exact (answerIs_iff _ _).mp h1
    · obtain rfl : k = 2 := by omega
      exact (answerIs_iff _ _).mp h2
    · obtain rfl : k = 3 := by omega
      exact (answerIs_iff _ _).mp h3
    · obtain rfl : k = 4 := by omega
      exact (answerIs_iff _ _).mp h4
  · intro h
    have other : ∀ d, d ≠ statusDigit k → answerIs response (powerAck d) = false := by
      intro d hd
      rw [← Bool.not_eq_true, answerIs_iff]
      exact fun hp => hd (powerAck_inj hp h)
    have own := (answerIs_iff response _).mpr h
    fin_cases k <;>
      simp_all [statusOf, standbyAck, powerOnAck, coolingAck, warmingAck, emergencyAck, statusDigit]

theorem statusOf_range (response : Bytes) :
    statusOf response = -1 ∨ ∃ k : Fin 5, statusOf response = k := by
  rw [statusOf]
  split_ifs
  · exact Or.inr ⟨0, rfl⟩
  · exact Or.inr ⟨1, rfl⟩
  · exact Or.inr ⟨2, rfl⟩
  · exact Or.inr ⟨3, rfl⟩
  · exact Or.inr ⟨4, rfl⟩
  · exact Or.inl rfl

theorem powerAck_prefix_memcpy_iff (d : UInt8) (n : ℕ) (bytes : Bytes) :
    powerAck d <+: CString.memcpy (CString.zeros n) bytes ↔ powerAck d <+: bytes :=
  CString.prefix_memcpy_zeros_iff
    (p := [0x06, 0x89, 0x01, 0x50, 0x57, 0x0A, 0x40, 0x89, 0x01, 0x50, 0x57, d])
    (x := 0x0A) (by decide) bytes

theorem statusOf_memcpy (n : ℕ) (bytes : Bytes) :
    statusOf (CString.memcpy (CString.zeros n) bytes) = statusOf bytes := by
  rcases statusOf_range bytes with h | ⟨k, hk⟩
  · rcases statusOf_range (CString.memcpy (CString.zeros n) bytes) with h' | ⟨k, hk⟩
    · rw [h, h']
    · have hp := (statusOf_eq_iff _ k).mp hk
      rw [powerAck_prefix_memcpy_iff] at hp
      rw [hk, (statusOf_eq_iff bytes k).mpr hp]
  · have hp := (statusOf_eq_iff bytes k).mp hk
    rw [hk, (statusOf_eq_iff _ k).mpr ((powerAck_prefix_memcpy_iff _ _ _).mpr hp)]

theorem cached_fresh {s : LanState} {now : Timespec} (h : s.Fresh now)
    (scripts : ℕ → SocketScript) :
    queryPowerStatusCached s now scripts = ⟨s.lastPowerQueryResult, s, []⟩ := by
  rw [queryPowerStatusCached, if_neg h.1, if_neg (not_le.mpr h.2)]

theorem cached_stale {s : LanState} {now : Timespec} (h : ¬ s.Fresh now)
    (scripts : ℕ → SocketScript) :
    queryPowerStatusCached s now scripts = refresh s now scripts := by
  rw [queryPowerStatusCached]
  split_ifs with hempty hage
  · rfl
  · rfl
  · exact absurd ⟨hempty, not_le.mp hage⟩ h

theorem sendPower_active {s : LanState} (hs : s.hasActiveConnection = true) (code : Bytes)
    (scripts : ℕ → SocketScript) : sendPower code s scripts = ⟨-9, s, []⟩ := by
  rw [sendPower, commandHost, hs, retry_active, ← hs]
  rfl

theorem sendPower_events (code : Bytes) (s : LanState) (scripts : ℕ → SocketScript) :
    (sendPower code s scripts).events = (commandHost code s scripts).events := by
  rw [sendPower]
  split_ifs <;> rfl

theorem sendNull_keeps_status (s : LanState) (scripts : ℕ → SocketScript) :
    (sendNull s scripts).state.lastPowerQueryResult = s.lastPowerQueryResult := by
  rw [sendNull]
  split_ifs
  · rfl
  · rfl

theorem sendPower_clears {code : Bytes} {s : LanState} {scripts : ℕ → SocketScript}
    (h : (sendPower code s scripts).value = 0) :
    (sendPower code s scripts).state.lastPowerQueryResult = -1 := by
  rw [sendPower] at h ⊢
  split_ifs at h ⊢ with hneg
  · have hzero : (commandHost code s scripts).value.1 = 0 := h
    omega
  · rfl

section Solo
variable {s : LanState} {scripts : ℕ → SocketScript} (hs : s.hasActiveConnection = false)
include hs

theorem commandHost_answers {code : Bytes} {i : ℕ} {c : Chunk} (h : FirstAnswer scripts i c) :
    commandHost code s scripts =
      ⟨(c.bytes.length, CString.memcpy (CString.zeros maxResponseSize) c.bytes), s,
        attemptEvents s.host code (CString.zeros maxResponseSize) scripts (i + 1)⟩ := by
  rw [commandHost, hs, retry_answers h, ← hs]

theorem commandHost_unanswered (code : Bytes)
    (h : ∀ j < maxRetryCount, ¬ (scripts j).Completes) :
    (commandHost code s scripts).value.1 < 0 ∧ (commandHost code s scripts).state = s ∧
      (commandHost code s scripts).events =
        attemptEvents s.host code (CString.zeros maxResponseSize) scripts maxRetryCount := by
  obtain ⟨hneg, -, hact, hev⟩ := retry_unanswered s.host code
    (CString.zeros maxResponseSize) h
  simp only [commandHost, hs]
  refine ⟨hneg, ?_, hev⟩
  rw [hact, ← hs]

theorem queryPowerStatus_answers {i : ℕ} {c : Chunk} (h : FirstAnswer scripts i c) :
    (queryPowerStatus s scripts).value = statusOf c.bytes ∧
      (queryPowerStatus s scripts).state = s := by
  rw [queryPowerStatus, commandHost_answers hs h]
  refine ⟨?_, rfl⟩
  rw [if_neg (by simp), statusOf_memcpy]

theorem queryPowerStatus_unanswered (h : ∀ j < maxRetryCount, ¬ (scripts j).Completes) :
    (queryPowerStatus s scripts).value = -1 ∧ (queryPowerStatus s scripts).state = s := by
  obtain ⟨hneg, hst, -⟩ := commandHost_unanswered hs queryPowerCommand h
  exact ⟨if_pos hneg, hst⟩

theorem queryPowerStatus_state : (queryPowerStatus s scripts).state = s := by
  rcases firstAnswer_or_none scripts with ⟨i, c, h⟩ | hnone
  · exact (queryPowerStatus_answers hs h).2
  · exact (queryPowerStatus_unanswered hs hnone).2

theorem cached_cases (now : Timespec) (scripts : ℕ → SocketScript) :
    (s.lastPowerQueryResult ≠ -1 ∧ msElapsed now s.lastPowerQuery < powerQueryTtlMs ∧
        queryPowerStatusCached s now scripts = ⟨s.lastPowerQueryResult, s, []⟩) ∨
      queryPowerStatusCached s now scripts =
        ⟨(queryPowerStatus s scripts).value,
          { s with
            lastPowerQueryResult := (queryPowerStatus s scripts).value
            lastPowerQuery := now },
          (queryPowerStatus s scripts).events⟩ := by
  by_cases hfresh : s.Fresh now
  · exact Or.inl ⟨hfresh.1, hfresh.2, cached_fresh hfresh scripts⟩
  · right
    rw [cached_stale hfresh, refresh, queryPowerStatus_state hs]

theorem sendPower_answers {code : Bytes} {i : ℕ} {c : Chunk} (h : FirstAnswer scripts i c) :
    sendPower code s scripts =
      ⟨0, queryPowerStatusCacheClear s,
        attemptEvents s.host code (CString.zeros maxResponseSize) scripts (i + 1)⟩ := by
  rw [sendPower, commandHost_answers hs h]
  exact if_neg (by simp)

theorem sendPower_unanswered (code : Bytes) (h : ∀ j < maxRetryCount, ¬ (scripts j).Completes) :
    (sendPower code s scripts).value < 0 ∧ (sendPower code s scripts).state = s ∧
      (sendPower code s scripts).events =
        attemptEvents s.host code (CString.zeros maxResponseSize) scripts maxRetryCount := by
  obtain ⟨hneg, hst, hev⟩ := commandHost_unanswered hs code h
  rw [sendPower, if_pos hneg]
  exact ⟨hneg, hst, hev⟩

theorem queryPowerStatus_sends {b : Bytes} (h : .send b ∈ (queryPowerStatus s scripts).events) :
    b = request ∨ b = queryPowerCommand := by
  simp only [queryPowerStatus, commandHost, hs] at h
  exact retry_sends h

theorem cached_sends {now : Timespec} {b : Bytes}
    (h : .send b ∈ (queryPowerStatusCached s now scripts).events) :
    b = request ∨ b = queryPowerCommand := by
  rcases cached_cases hs now scripts with ⟨-, -, heq⟩ | heq
  · rw [heq] at h
    cases h
  · rw [heq] at h
    exact queryPowerStatus_sends hs h

variable (s scripts) in
theorem commandHost_silent_iff (code : Bytes) :
    (∀ b, .send b ∉ (commandHost code s scripts).events) ↔
      ∀ j < maxRetryCount, ¬ (scripts j).Opened := by
  simp only [commandHost, hs]
  exact retry_silent_iff s.host code (CString.zeros maxResponseSize)

theorem sendPower_sends {code b : Bytes} (h : .send b ∈ (sendPower code s scripts).events) :
    b = request ∨ b = code := by
  rw [sendPower_events] at h
  simp only [commandHost, hs] at h
  exact retry_sends h

end Solo

end CecFix.Lan
