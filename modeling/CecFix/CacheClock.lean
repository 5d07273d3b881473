import CecFix.PowerStatus
import CecFix.Transducer

/-!
# The ten second cache against the clock

Calls of `queryPowerStatusCached` and `queryPowerStatusCacheClear` in any order. A
log records what each call did: the query it made, if it opened a connection at
all, and what it returned. The age of the cached status is narrowed to 32 bits
before it is compared, so that a status comes back to life when its age, modulo
`2 ^ 32` milliseconds, is small or does not fit. That is the only way in which a
status that is too old is served.
-/

namespace CecFix.CacheClock
open Lan

structure Reading extends Timespec where
  sec_nonneg : 0 ≤ tvSec
  sec_lt : tvSec < 2 ^ 63
  nsec_nonneg : 0 ≤ tvNsec
  nsec_lt : tvNsec < 1000000000

def nanos (t : Timespec) : Int := t.tvSec * 1000000000 + t.tvNsec

inductive CacheCall where
  | query (now : Reading) (scripts : ℕ → SocketScript)
  | clear

inductive CacheRecord where
  | call (now : Reading) (query : Option Int) (returned : Int)
  | cleared

structure Logged where
  lan : LanState
  log : List CacheRecord

def start (host : Bytes) : Logged := ⟨bootState host, []⟩

def record (s : LanState) (now : Reading) (scripts : ℕ → SocketScript) : CacheRecord :=
  let r := queryPowerStatusCached s now.toTimespec scripts
  .call now (if r.events.isEmpty then none else some (queryPowerStatus s scripts).value) r.value

def cacheCalls : Transducer Logged CacheCall Empty where
  next
    | s, .query now scripts =>
      ⟨(queryPowerStatusCached s.lan now.toTimespec scripts).state,
        s.log ++ [record s.lan now scripts]⟩
    | s, .clear => ⟨queryPowerStatusCacheClear s.lan, s.log ++ [.cleared]⟩
  emit _ _ := []

def ClockForward (s : Logged) : CacheCall → Prop
  | .query now _ => ∀ t query returned, .call t query returned ∈ s.log →
      nanos t.toTimespec ≤ nanos now.toTimespec
  | .clear => True

/-- A status obtained less than ten seconds before `now` and not cleared since. -/
def Recent (log : List CacheRecord) (now : Reading) (status : Int) : Prop :=
  ∃ before t returned after, log = before ++ .call t (some status) returned :: after ∧
    .cleared ∉ after ∧ nanos now.toTimespec - nanos t.toTimespec < 10000 * 1000000

def SoundAnswer (s : Logged) : CacheCall → Prop
  | .query now scripts =>
    let r := queryPowerStatusCached s.lan now.toTimespec scripts
    (r.events ≠ [] ∧ r.value = (queryPowerStatus s.lan scripts).value) ∨
      (0 ≤ r.value ∧ Recent s.log now r.value)
  | .clear => True

def msBetween (last now : Timespec) : Int :=
  (now.tvSec - last.tvSec) * 1000 + (now.tvNsec - last.tvNsec).tdiv 1000000

/-- The age of a cached status is below ten seconds, or its low 32 bits are those of
an `int` of ten seconds or more. -/
def AgeFits (s : Logged) : CacheCall → Prop
  | .query now _ => s.lan.lastPowerQueryResult ≠ -1 →
      let age := msBetween s.lan.lastPowerQuery now.toTimespec
      age < powerQueryTtlMs ∨ (powerQueryTtlMs ≤ age % 2 ^ 32 ∧ age % 2 ^ 32 < 2 ^ 31)
  | .clear => True

instance (s : Logged) : ∀ x, Decidable (AgeFits s x)
  | .query _ _ => inferInstanceAs (Decidable (_ → _ ∨ _ ∧ _))
  | .clear => inferInstanceAs (Decidable True)

theorem msElapsed_eq (now last : Timespec) : msElapsed now last = (msBetween last now).bmod (2 ^ 32) :=
  rfl

theorem msElapsed_lt_iff (now last : Timespec) :
    msElapsed now last < powerQueryTtlMs ↔ ¬ (powerQueryTtlMs ≤ msBetween last now % 2 ^ 32 ∧
      msBetween last now % 2 ^ 32 < 2 ^ 31) := by
  rw [msElapsed_eq, powerQueryTtlMs, Int.bmod_def]
  push_cast
  omega

theorem msBetween_lt {now last : Timespec} (h : msBetween last now < powerQueryTtlMs) :
    nanos now - nanos last < 10000 * 1000000 := by
  simp only [msBetween, powerQueryTtlMs] at h
  have hdiv := Int.mul_tdiv_add_tmod (now.tvNsec - last.tvNsec) 1000000
  have hmod := Int.tmod_lt_of_pos (now.tvNsec - last.tvNsec) (show (0 : Int) < 1000000 by decide)
  simp only [nanos]
  omega

theorem lt_nanos {now last : Timespec} (h : powerQueryTtlMs < msBetween last now) :
    10000 * 1000000 ≤ nanos now - nanos last := by
  simp only [msBetween, powerQueryTtlMs] at h
  have hdiv := Int.mul_tdiv_add_tmod (now.tvNsec - last.tvNsec) 1000000
  have hmod := Int.lt_tmod_of_pos (now.tvNsec - last.tvNsec) (show (0 : Int) < 1000000 by decide)
  simp only [nanos]
  omega

structure Kept (s : Logged) : Prop where
  idle : s.lan.hasActiveConnection = false
  latest : ∀ t q r, .call t (some q) r ∈ s.log → nanos t.toTimespec ≤ nanos s.lan.lastPowerQuery
  last : s.lan.lastPowerQueryResult ≠ -1 → 0 ≤ s.lan.lastPowerQueryResult ∧
    ∃ before t returned after,
      s.log = before ++ .call t (some s.lan.lastPowerQueryResult) returned :: after ∧
        .cleared ∉ after ∧ t.toTimespec = s.lan.lastPowerQuery

theorem kept_start (host : Bytes) : Kept (start host) where
  idle := rfl
  latest _ _ _ h := nomatch h
  last h := absurd rfl h

section Query
variable {s : Logged} {now : Reading} {scripts : ℕ → SocketScript}

theorem query_events (h : s.lan.hasActiveConnection = false) :
    (queryPowerStatus s.lan scripts).events ≠ [] := by
  have hfirst : ∀ n, .close (scripts 0).sock ∈ attemptEvents s.lan.host queryPowerCommand
      (CString.zeros maxResponseSize) scripts (n + 1) := by
    intro n
    rw [attemptEvents, List.mem_flatMap]
    exact ⟨0, by simp, by simp [sendCommand]⟩
  rcases firstAnswer_or_none scripts with ⟨i, c, hc⟩ | hnone
  · rw [queryPowerStatus, commandHost_answers h hc]
    exact List.ne_nil_of_mem (hfirst i)
  · rw [queryPowerStatus, (commandHost_unanswered h queryPowerCommand hnone).2.2]
    exact List.ne_nil_of_mem (hfirst 4)

theorem query_status (h : s.lan.hasActiveConnection = false) :
    (queryPowerStatus s.lan scripts).value = -1 ∨ 0 ≤ (queryPowerStatus s.lan scripts).value := by
  rcases firstAnswer_or_none scripts with ⟨i, c, hc⟩ | hnone
  · rw [(queryPowerStatus_answers h hc).1]
    rcases statusOf_range c.bytes with hr | ⟨k, hk⟩
    · exact Or.inl hr
    · right
      omega
  · exact Or.inl (queryPowerStatus_unanswered h hnone).1

variable (now scripts) in
theorem call_cases (h : s.lan.hasActiveConnection = false) :
    (s.lan.lastPowerQueryResult ≠ -1 ∧
        msElapsed now.toTimespec s.lan.lastPowerQuery < powerQueryTtlMs ∧
        queryPowerStatusCached s.lan now.toTimespec scripts = ⟨s.lan.lastPowerQueryResult, s.lan, []⟩ ∧
        record s.lan now scripts = .call now none s.lan.lastPowerQueryResult) ∨
      ((s.lan.lastPowerQueryResult ≠ -1 →
          powerQueryTtlMs ≤ msElapsed now.toTimespec s.lan.lastPowerQuery) ∧
        ∃ v, (v = -1 ∨ 0 ≤ v) ∧ v = (queryPowerStatus s.lan scripts).value ∧
        queryPowerStatusCached s.lan now.toTimespec scripts =
          ⟨v, { s.lan with lastPowerQueryResult := v, lastPowerQuery := now.toTimespec },
            (queryPowerStatus s.lan scripts).events⟩ ∧
        record s.lan now scripts = .call now (some v) v) := by
  by_cases hfresh : s.lan.Fresh now.toTimespec
  · left
    have heq := cached_fresh hfresh scripts
    exact ⟨hfresh.1, hfresh.2, heq, by simp [record, heq]⟩
  · right
    have hold : s.lan.lastPowerQueryResult ≠ -1 →
        powerQueryTtlMs ≤ msElapsed now.toTimespec s.lan.lastPowerQuery :=
      fun hne => not_lt.mp fun hlt => hfresh ⟨hne, hlt⟩
    have heq := cached_stale hfresh scripts
    have hstate : (queryPowerStatus s.lan scripts).state = s.lan := queryPowerStatus_state h
    refine ⟨hold, _, query_status h, rfl, ?_, ?_⟩
    · rw [heq, refresh, hstate]
    · simp [record, heq, refresh, query_events h]

end Query

theorem kept_next (s : Logged) (x : CacheCall) (h : Kept s) (hx : ClockForward s x) :
    Kept (cacheCalls.next s x) := by
  cases x with
  | query now scripts =>
    simp only [cacheCalls]
    rcases call_cases now scripts h.idle with
      ⟨hne, -, heq, hrec⟩ | ⟨-, v, hv, -, heq, hrec⟩
    · rw [heq, hrec]
      obtain ⟨hnn, before, t, returned, after, hlog, hclear, ht⟩ := h.last hne
      exact
        { idle := h.idle
          latest := fun t q r hm => by
            rcases List.mem_append.mp hm with hm | hm
            · exact h.latest t q r hm
            · simp at hm
          last := fun _ => ⟨hnn, before, t, returned, after ++ [.call now none _],
            by rw [hlog, List.append_assoc, List.cons_append], by simpa using hclear, ht⟩ }
    · rw [heq, hrec]
      exact
        { idle := h.idle
          latest := fun t q r hm => by
            rcases List.mem_append.mp hm with hm | hm
            · exact hx t _ r hm
            · obtain ⟨rfl, -, -⟩ : t = now ∧ q = v ∧ r = v := by simpa using hm
              exact le_rfl
          last := fun hne => ⟨hv.resolve_left hne, s.log, now, v, [], rfl, by simp, rfl⟩ }
  | clear =>
    exact
      { idle := h.idle
        latest := fun t q r hm => by
          rcases List.mem_append.mp hm with hm | hm
          · exact h.latest t q r hm
          · simp at hm
        last := fun hne => absurd rfl hne }

theorem soundAnswer_iff (s : Logged) (x : CacheCall) (h : Kept s) (_ : ClockForward s x) :
    SoundAnswer s x ↔ AgeFits s x := by
  cases x with
  | clear => exact Iff.rfl
  | query now scripts =>
    simp only [SoundAnswer, AgeFits]
    rcases call_cases now scripts h.idle with
      ⟨hne, hlt, heq, -⟩ | ⟨hold, v, -, hv, heq, -⟩
    · obtain ⟨hnn, before, t, returned, after, hlog, hclear, ht⟩ := h.last hne
      rw [msElapsed_lt_iff] at hlt
      rw [heq]
      constructor
      · intro hsound _
        rcases hsound with ⟨hev, -⟩ | ⟨-, before', t', returned', after', hlog', -, hage⟩
        · exact absurd rfl hev
        · -- The query it comes from is no later than the last one.
          have hmem : .call t' (some s.lan.lastPowerQueryResult) returned' ∈ s.log := by
            rw [hlog']
            simp
          have hlatest := h.latest t' _ returned' hmem
          left
          by_contra hlong
          have hage' : 10000 * 1000000 ≤ nanos now.toTimespec - nanos s.lan.lastPowerQuery := by
            apply lt_nanos
            simp only [powerQueryTtlMs] at hlong hlt ⊢
            omega
          omega
      · intro hfits
        right
        have hage : msBetween s.lan.lastPowerQuery now.toTimespec < powerQueryTtlMs :=
          (hfits hne).resolve_right hlt
        refine ⟨hnn, before, t, returned, after, hlog, hclear, ?_⟩
        rw [ht]
        exact msBetween_lt hage
    · rw [heq]
      have hleft : (queryPowerStatus s.lan scripts).events ≠ [] ∧
          v = (queryPowerStatus s.lan scripts).value := ⟨query_events h.idle, hv⟩
      apply iff_of_true (Or.inl hleft)
      intro hne
      right
      by_contra hbad
      have hlt := (msElapsed_lt_iff now.toTimespec s.lan.lastPowerQuery).mpr hbad
      exact absurd (hold hne) (not_le.mpr hlt)

/-- In every run the answers are sound exactly if at each call the age of the cached
status, as an `int`, is on the right side of ten seconds. -/
theorem cache_sound_iff (host : Bytes) (xs : List CacheCall)
    (h : cacheCalls.Along ClockForward (start host) xs) :
    cacheCalls.Along SoundAnswer (start host) xs ↔ cacheCalls.Along AgeFits (start host) xs :=
  Transducer.along_iff kept_next soundAnswer_iff (kept_start host) h

def reading (sec : ℕ) (h : (sec : Int) < 2 ^ 63) : Reading where
  tvSec := sec
  tvNsec := 0
  sec_nonneg := Int.natCast_nonneg sec
  sec_lt := h
  nsec_nonneg := le_rfl
  nsec_lt := by decide

def standbyAnswer : ℕ → SocketScript := fun _ =>
  greetingScript (.got ⟨powerAck (statusDigit 0), statusAnswer_fits 0⟩)

def onAnswer : ℕ → SocketScript := fun _ =>
  greetingScript (.got ⟨powerAck (statusDigit 1), statusAnswer_fits 1⟩)

def twoCalls (sec : ℕ) (h : (sec : Int) < 2 ^ 63) : List CacheCall :=
  [.query (reading 0 (by decide)) standbyAnswer, .query (reading sec h) onAnswer]

theorem twoCalls_forward (sec : ℕ) (h : (sec : Int) < 2 ^ 63) :
    cacheCalls.Along ClockForward (start []) (twoCalls sec h) := by
  refine ⟨fun _ _ _ hm => (nomatch hm), fun t q r hm => ?_, trivial⟩
  obtain ⟨rfl, -, -⟩ : t = reading 0 (by decide) ∧ _ ∧ _ := by
    simpa [cacheCalls, start, record] using hm
  simp [nanos, reading]

theorem cache_sound_nine_seconds :
    cacheCalls.Along SoundAnswer (start []) (twoCalls 9 (by decide)) ↔
      cacheCalls.Along AgeFits (start []) (twoCalls 9 (by decide)) :=
  cache_sound_iff [] _ (twoCalls_forward 9 (by decide))

/-- Twenty-five days after it was obtained, the status of a TV in standby is served,
although the TV, if it were asked, would say that it is on. -/
theorem old_status_served :
    cacheCalls.Along ClockForward (start []) (twoCalls 2147484 (by decide)) ∧
      ¬ cacheCalls.Along SoundAnswer (start []) (twoCalls 2147484 (by decide)) := by
  have hclock := twoCalls_forward 2147484 (by decide)
  refine ⟨hclock, ?_⟩
  rw [Transducer.along_iff kept_next soundAnswer_iff (kept_start []) hclock]
  decide

end CecFix.CacheClock
