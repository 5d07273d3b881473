import CecFix.CacheClock
import CecFix.WireProtocol

/-!
# How often the projector is asked

The cache is there to spare the projector, which takes few connections. Over any run of
the daemon the queries it makes are paid for: each by ten seconds, to within a
millisecond, that have passed since the last status was obtained, or by a query before it
that failed, or by a command that was carried out and so made the status out of date.
-/

namespace CecFix.QueryRate
open Cec Lan WireProtocol CacheClock

structure Timed where
  daemon : Daemon
  clock : Int

def timed : Transducer Timed Event Effect where
  next s e := ⟨daemon.next s.daemon e, nanos (Event.net e).now⟩
  emit s e := daemon.emit s.daemon e

def begin (host : Bytes) (clock : Int) : Timed := ⟨boot (bootState host), clock⟩

def Forward (s : Timed) (e : Event) : Prop := s.clock ≤ nanos (Event.net e).now

instance (s : Timed) (e : Event) : Decidable (Forward s e) := inferInstanceAs (Decidable (_ ≤ _))

def QueryFails (s : LanState) (e : Event) : Prop :=
  Queries s e ∧ (queryPowerStatus s (Event.net e).query).value = -1

def turned (s : LanState) : Event → Option TvOutcome
  | .callback none _ => none
  | .callback (some m) net =>
    if isImageViewOn m then some (turnOnTV s net).value
    else if isTVOffCmd m then some (turnOffTV s net).value
    else none
  | .fifoOff net => some (turnOffTV s net).value
  | .fifoOn net => some (turnOnTV s net).value

def CarriedOut (s : LanState) (e : Event) : Prop := turned s e = some (.sent 0)

instance (s : LanState) (e : Event) : Decidable (QueryFails s e) :=
  inferInstanceAs (Decidable (_ ∧ _))
instance (s : LanState) (e : Event) : Decidable (CarriedOut s e) :=
  inferInstanceAs (Decidable (_ = _))

def tested (s : LanState) (e : Event) : LanState :=
  if asksStatus e then
    (queryPowerStatusCached s (Event.net e).now (Event.net e).query).state
  else s

section Event
variable {s : LanState} (hs : s.hasActiveConnection = false)
include hs

theorem cached_idle (net : TvInputs) :
    (queryPowerStatusCached s net.now net.query).state.hasActiveConnection = false := by
  rcases cached_cases hs net.now net.query with ⟨-, -, h⟩ | h
  · rw [h]
    exact hs
  · rw [h]
    exact hs

theorem turnTV_state (test : Int → Bool) (code : Bytes) (net : TvInputs) :
    (turnTV (statusIs test) (sendPower code) s net).state =
      if (turnTV (statusIs test) (sendPower code) s net).value = .sent 0 then
        queryPowerStatusCacheClear (queryPowerStatusCached s net.now net.query).state
      else (queryPowerStatusCached s net.now net.query).state := by
  have hidle : (statusIs test s net.now net.query).state.hasActiveConnection = false :=
    cached_idle hs net
  rcases turnTV_cases test code s net with ⟨-, -, heq⟩ | ⟨-, heq⟩
  · rw [heq]
    exact (if_neg (by simp)).symm
  · rw [heq]
    rcases firstAnswer_or_none net.command with ⟨i, c, h⟩ | hnone
    · rw [sendPower_answers hidle h]
      exact (if_pos rfl).symm
    · obtain ⟨hneg, hst, -⟩ := sendPower_unanswered hidle code hnone
      rw [hst]
      refine (if_neg fun hzero => ?_).symm
      injection hzero with hzero
      omega

end Event

theorem not_vendor_of_power {m : VcCecMessage} (h : isRequestForPowerStatus m = true) :
    ¬ isRequestForVendorId m = true := by
  simp only [isRequestForPowerStatus, isRequestForVendorId, Bool.and_eq_true, beq_iff_eq] at h ⊢
  intro hvendor
  rw [h.2] at hvendor
  exact absurd hvendor.2 (by decide)

theorem handle_lan {s : Daemon} (hs : s.lan.hasActiveConnection = false) (e : Event) :
    (handle s e).state.lan =
      if CarriedOut s.lan e then queryPowerStatusCacheClear (tested s.lan e)
      else tested s.lan e := by
  -- the three kinds of event: one that turns the TV, one that asks, and any other
  have turn : ∀ {e : Event} {test : Int → Bool} {code : Bytes}, asksStatus e = true →
      turned s.lan e =
        some (turnTV (statusIs test) (sendPower code) s.lan (Event.net e)).value →
      (handle s e).state.lan =
        (turnTV (statusIs test) (sendPower code) s.lan (Event.net e)).state →
      (handle s e).state.lan = if CarriedOut s.lan e then
        queryPowerStatusCacheClear (tested s.lan e) else tested s.lan e := by
    intro e test code hasks hturned hstate
    have hiff : CarriedOut s.lan e ↔
        (turnTV (statusIs test) (sendPower code) s.lan (Event.net e)).value = .sent 0 := by
      unfold CarriedOut
      rw [hturned, Option.some_inj]
    simp only [hstate, turnTV_state hs, tested, hasks, if_true, hiff]
  have ask : ∀ {e : Event}, turned s.lan e = none → (handle s e).state.lan = tested s.lan e →
      (handle s e).state.lan = if CarriedOut s.lan e then
        queryPowerStatusCacheClear (tested s.lan e) else tested s.lan e := by
    intro e hturned hstate
    have hnot : ¬ CarriedOut s.lan e := by
      unfold CarriedOut
      rw [hturned]
      simp
    rw [hstate, if_neg hnot]
  cases e with
  | fifoOff net => exact turn rfl rfl rfl
  | fifoOn net =>
    refine turn rfl rfl ?_
    simp only [handle, systemActive, setStreamPathToPlayback1]
    split <;> rfl
  | callback parsed net =>
    cases parsed with
    | none => exact ask rfl rfl
    | some m =>
      by_cases himage : isImageViewOn m = true
      · refine turn (by simp [asksStatus, himage]) (by simp [turned, himage]; rfl) ?_
        simp only [handle, handleCECCallback, handleMessage, if_pos himage]
        rfl
      by_cases hoff : isTVOffCmd m = true
      · refine turn (by simp [asksStatus, hoff]) (by simp [turned, himage, hoff]; rfl) ?_
        simp only [handle, handleCECCallback, handleMessage, if_neg himage, if_pos hoff]
        rfl
      refine ask (by simp [turned, himage, hoff]) ?_
      simp only [handle, handleCECCallback, handleMessage, if_neg himage, if_neg hoff]
      by_cases hpower : isRequestForPowerStatus m = true
      · rw [if_neg (not_vendor_of_power hpower), if_pos hpower, replyWithPowerStatus_state]
        simp only [tested, asksStatus, hpower, Bool.or_true, if_true]
        rfl
      · have htested : tested s.lan (.callback (some m) net) = s.lan := by
          simp [tested, asksStatus, himage, hoff, hpower]
        rw [htested, if_neg hpower]
        split_ifs
        · rfl
        · rw [handleReport_state]
        · rfl
        · rfl

theorem tested_cases {s : LanState} (hs : s.hasActiveConnection = false) (e : Event) :
    (¬ Queries s e ∧ tested s e = s) ∨
      (Queries s e ∧ tested s e =
        { s with
          lastPowerQueryResult := (queryPowerStatus s (Event.net e).query).value
          lastPowerQuery := (Event.net e).now }) := by
  by_cases hasks : asksStatus e = true
  · rw [tested, if_pos hasks]
    by_cases hfresh : s.Fresh (Event.net e).now
    · left
      rw [cached_fresh hfresh]
      exact ⟨fun h => h.2 hfresh, rfl⟩
    · right
      rw [cached_stale hfresh, refresh, queryPowerStatus_state hs]
      exact ⟨⟨hasks, hfresh⟩, rfl⟩
  · left
    rw [tested, if_neg hasks]
    exact ⟨fun h => hasks h.1, rfl⟩

/-- The least time, in nanoseconds, in which a status gets too old. -/
def ttl : Int := 9999 * 1000000

theorem ttl_le_age {now last : Timespec} (hforward : nanos last ≤ nanos now)
    (hold : powerQueryTtlMs ≤ msElapsed now last) : ttl ≤ nanos now - nanos last := by
  have hdiv := Int.mul_tdiv_add_tmod (now.tvNsec - last.tvNsec) 1000000
  have hlow := Int.lt_tmod_of_pos (now.tvNsec - last.tvNsec) (show (0 : Int) < 1000000 by decide)
  have hhigh := Int.tmod_lt_of_pos (now.tvNsec - last.tvNsec) (show (0 : Int) < 1000000 by decide)
  have hms : powerQueryTtlMs ≤ msBetween last now := by
    rw [msElapsed_eq, Int.bmod_def] at hold
    simp only [powerQueryTtlMs, msBetween, nanos] at hold hforward ⊢
    omega
  simp only [ttl, powerQueryTtlMs, msBetween, nanos] at hms ⊢
  omega

def ahead (s : LanState) (clock : Int) : Int :=
  if s.lastPowerQueryResult = -1 then 0 else clock - nanos s.lastPowerQuery - ttl

structure Kept (s : Timed) : Prop where
  idle : s.daemon.lan.hasActiveConnection = false
  past : s.daemon.lan.lastPowerQueryResult ≠ -1 → nanos s.daemon.lan.lastPowerQuery ≤ s.clock

def indicator (p : Prop) [Decidable p] : ℤ := if p then 1 else 0

def isQuery : Effect → Bool
  | .sock e => sends queryPowerCommand e
  | .cec _ => false

theorem emit_queries (s : Daemon) (e : Event) :
    ((handle s e).effects.countP isQuery : ℤ) ≤ 5 * indicator (Queries s.lan e) := by
  obtain ⟨-, asked, sent, heff, hask, hsent⟩ := handle_budgeted s e
  have hcount : (handle s e).effects.countP isQuery =
      ((handle s e).effects.filterMap sock?).countP (sends queryPowerCommand) := by
    rw [List.countP_filterMap]
    apply List.countP_congr
    intro a _
    cases a <;> rfl
  have hasked := hask.sends_le (by decide)
  have hother : sent.countP (sends queryPowerCommand) = 0 := by
    cases hcode : commandOf e with
    | none =>
      rw [hcode] at hsent
      rw [hsent]
      rfl
    | some code =>
      rw [hcode] at hsent
      apply sends_other (by decide) _ hsent.talks
      rcases commandOf_cases hcode with rfl | rfl
      · decide
      · decide
  rw [hcount, heff, List.countP_append, hother, Nat.add_zero, indicator]
  split_ifs at hasked ⊢
  · simp only [maxRetryCount] at hasked
    omega
  · omega

section Step
variable {s : Timed} {e : Event} (h : Kept s) (hx : Forward s e)
include h hx

theorem kept_step : Kept (timed.next s e) := by
  have hlan : (timed.next s e).daemon.lan = _ := handle_lan h.idle e
  have hclock : (timed.next s e).clock = nanos (Event.net e).now := rfl
  have htested : (tested s.daemon.lan e).hasActiveConnection = false ∧
      ((tested s.daemon.lan e).lastPowerQueryResult ≠ -1 →
        nanos (tested s.daemon.lan e).lastPowerQuery ≤ nanos (Event.net e).now) := by
    rcases tested_cases h.idle e with ⟨-, heq⟩ | ⟨-, heq⟩
    · rw [heq]
      exact ⟨h.idle, fun hne => (h.past hne).trans hx⟩
    · rw [heq]
      exact ⟨h.idle, fun _ => le_rfl⟩
  by_cases hcarried : CarriedOut s.daemon.lan e
  · rw [if_pos hcarried] at hlan
    exact
      { idle := by rw [hlan]; exact htested.1
        past := fun hne => by rw [hlan] at hne; exact absurd rfl hne }
  · rw [if_neg hcarried] at hlan
    exact
      { idle := by rw [hlan]; exact htested.1
        past := by rw [hlan, hclock]; exact htested.2 }

theorem query_due (hq : Queries s.daemon.lan e) :
    0 ≤ nanos (Event.net e).now - s.clock + ahead s.daemon.lan s.clock := by
  have hforward : s.clock ≤ nanos (Event.net e).now := hx
  rw [ahead]
  split_ifs with hempty
  · omega
  · have hold : powerQueryTtlMs ≤ msElapsed (Event.net e).now s.daemon.lan.lastPowerQuery :=
      not_lt.mp fun hlt => hq.2 ⟨hempty, hlt⟩
    have hage := ttl_le_age ((h.past hempty).trans hx) hold
    omega

theorem pays_step :
    indicator (Queries s.daemon.lan e) * ttl +
        ahead (timed.next s e).daemon.lan (timed.next s e).clock ≤
      (indicator (QueryFails s.daemon.lan e) + indicator (CarriedOut s.daemon.lan e)) * ttl +
        ((timed.next s e).clock - s.clock) + ahead s.daemon.lan s.clock := by
  have hlan : (timed.next s e).daemon.lan = _ := handle_lan h.idle e
  have hclock : (timed.next s e).clock = nanos (Event.net e).now := rfl
  have hforward : s.clock ≤ nanos (Event.net e).now := hx
  have hpos : 0 < ttl := by decide
  rw [hlan, hclock]
  rcases tested_cases h.idle e with ⟨hq, heq⟩ | ⟨hq, heq⟩
  · have hfails : ¬ QueryFails s.daemon.lan e := fun hf => hq hf.1
    rw [heq, indicator, if_neg hq, indicator, if_neg hfails]
    by_cases hcarried : CarriedOut s.daemon.lan e
    · have hpast := h.past
      rw [if_pos hcarried, indicator, if_pos hcarried]
      simp only [ahead, queryPowerStatusCacheClear, if_true]
      split_ifs with hempty
      · omega
      · have := hpast hempty
        omega
    · rw [if_neg hcarried, indicator, if_neg hcarried]
      simp only [ahead]
      split_ifs <;> omega
  · have hdue := query_due h hx hq
    rw [heq, indicator, if_pos hq]
    by_cases hcarried : CarriedOut s.daemon.lan e
    · have hzero : ∀ (t : LanState) (clock : Int), ahead (queryPowerStatusCacheClear t) clock = 0 :=
        fun _ _ => if_pos rfl
      rw [if_pos hcarried, hzero, indicator, indicator, if_pos hcarried]
      split_ifs <;> omega
    · have hafter : ∀ (t : LanState) (v : Int),
          ahead { t with lastPowerQueryResult := v, lastPowerQuery := (Event.net e).now }
            (nanos (Event.net e).now) = if v = -1 then 0 else -ttl := by
        intro t v
        simp [ahead]
      have hfails : QueryFails s.daemon.lan e ↔
          (queryPowerStatus s.daemon.lan (Event.net e).query).value = -1 := and_iff_right hq
      rw [if_neg hcarried, hafter, indicator, indicator, if_neg hcarried]
      simp only [hfails]
      split_ifs <;> omega

end Step

def count (P : LanState → Event → Prop) [∀ s e, Decidable (P s e)] : Timed → List Event → ℤ :=
  timed.total fun s e => indicator (P s.daemon.lan e)

theorem kept_begin (host : Bytes) (clock : Int) : Kept (begin host clock) where
  idle := rfl
  past h := absurd rfl h

theorem sent_le (s : Timed) (es : List Event) :
    ((timed.outputs s es).flatten.countP isQuery : ℤ) ≤ 5 * count Queries s es := by
  rw [Transducer.countP_outputs_eq_total, count, ← Transducer.total_mul]
  exact Transducer.total_le (fun s e => emit_queries s.daemon e) s es

section Run
variable {host : Bytes} {clock : Int} {es : List Event}
  (hes : timed.Along Forward (begin host clock) es)
include hes

theorem queries_paid :
    count Queries (begin host clock) es * ttl ≤
      (1 + count QueryFails (begin host clock) es + count CarriedOut (begin host clock) es) * ttl +
        ((timed.run (begin host clock) es).clock - clock) := by
  have hpaid := Transducer.total_le_of_potential _ _
    (fun s : Timed => ahead s.daemon.lan s.clock) (fun s e => kept_step) (fun s e => pays_step) (kept_begin host clock) hes
  have hend : Kept (timed.run (begin host clock) es) :=
    Transducer.run_invariant (fun s e => kept_step) (kept_begin host clock) hes
  have hlast : -ttl ≤ ahead (timed.run (begin host clock) es).daemon.lan
      (timed.run (begin host clock) es).clock := by
    rw [ahead]
    split_ifs with hempty
    · decide
    · have hpast := hend.past hempty
      omega
  have hfirst : ahead (begin host clock).daemon.lan (begin host clock).clock = 0 := if_pos rfl
  simp only [mul_comm _ ttl, mul_add, Transducer.total_add, Transducer.total_mul] at hpaid
  rw [hfirst, Transducer.total_change (fun s : Timed => s.clock)] at hpaid
  simp only [count, mul_comm _ ttl, mul_add]
  have hbegin : (begin host clock).clock = clock := rfl
  omega

end Run

/-- In every run with a clock that does not go back: the query commands that reach the wire
are at most five for the first query, for each one that fails, for each command carried
out, and for each 9.999 seconds. -/
theorem queries_rate_limited (host : Bytes) (clock : Int) (es : List Event)
    (hes : timed.Along Forward (begin host clock) es) :
    ((timed.outputs (begin host clock) es).flatten.countP isQuery : ℤ) * ttl ≤
      5 * ((1 + count QueryFails (begin host clock) es + count CarriedOut (begin host clock) es) *
        ttl + ((timed.run (begin host clock) es).clock - clock)) := by
  have hpaid := queries_paid hes
  calc ((timed.outputs (begin host clock) es).flatten.countP isQuery : ℤ) * ttl
      ≤ 5 * count Queries (begin host clock) es * ttl :=
        Int.mul_le_mul_of_nonneg_right (sent_le _ es) (by decide)
    _ = 5 * (count Queries (begin host clock) es * ttl) := mul_assoc ..
    _ ≤ _ := by omega

theorem queries_rate_limited_twice :
    let es : List Event := [.fifoOn ⟨⟨0, 0⟩, onAnswer, onAnswer⟩, .fifoOn ⟨⟨9, 0⟩, onAnswer, onAnswer⟩]
    ((timed.outputs (begin [] 0) es).flatten.countP isQuery : ℤ) * ttl ≤
      5 * ((1 + count QueryFails (begin [] 0) es + count CarriedOut (begin [] 0) es) * ttl +
        ((timed.run (begin [] 0) es).clock - 0)) :=
  queries_rate_limited [] 0 _ ⟨by decide, by decide, trivial⟩

end CecFix.QueryRate
