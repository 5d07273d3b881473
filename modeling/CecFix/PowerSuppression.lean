import CecFix.Daemon

/-!
# Suppressed power commands

`turnOnTV` and `turnOffTV` skip their command when the cached status says that the
TV is already as wanted. The projector is a hidden power class that changes only
when command bytes reach it, and answers queries truthfully. The cache tells the
truth as long as every command that reaches the projector while a status is
remembered is also answered: `sendOn` and `sendOff` clear the cache on success
only, and a command may have arrived although its answer was not read.
-/

namespace CecFix.PowerSuppression
open Cec Lan

inductive PowerClass where
  | on
  | off
  | emergency
  deriving DecidableEq

/-- The class of a power status: STANDBY, POWER_ON, COOLING, WARMING, EMERGENCY. -/
def classOf (k : Fin 5) : PowerClass :=
  match k with
  | 0 | 2 => .off
  | 1 | 3 => .on
  | 4 => .emergency

inductive Request where
  | turnOn
  | turnOff
  | reply (requestor : CecAllDevices)

structure Input where
  request : Request
  net : TvInputs
  classAfter : PowerClass

structure World where
  daemon : Daemon
  power : PowerClass

def act (s : Daemon) (net : TvInputs) : Request → Acted
  | .turnOn => s.withLan (turnOnTV s.lan net)
  | .turnOff => s.withLan (turnOffTV s.lan net)
  | .reply d => replyWithPowerStatus d s net

def world : Transducer World Input Effect where
  next w x := ⟨(act w.daemon x.net x.request).state, x.classAfter⟩
  emit w x := (act w.daemon x.net x.request).effects

def World.initial (host : Bytes) (power : PowerClass) : World := ⟨boot (bootState host), power⟩

def isPowerCommand : Effect → Bool
  | .sock (.send b) => b == onCommand || b == offCommand
  | _ => false

def TruthfulAnswer (power : PowerClass) : ReadResult → Prop
  | .failed => True
  | .got c => c.bytes = [] ∨ ∃ k, classOf k = power ∧ c.bytes = powerAck (statusDigit k)

instance (power : PowerClass) : ∀ r, Decidable (TruthfulAnswer power r)
  | .failed => inferInstanceAs (Decidable True)
  | .got c => inferInstanceAs (Decidable (c.bytes = [] ∨ ∃ k, classOf k = power ∧
      c.bytes = powerAck (statusDigit k)))

/-- The projector keeps to its class unless command bytes were sent to it, and
answers every query whose handshake succeeds truthfully. -/
structure Consistent (w : World) (x : Input) : Prop where
  keeps : x.classAfter = w.power ∨ (world.emit w x).any isPowerCommand = true
  truthful : ∀ j < maxRetryCount, (x.net.query j).Greeted →
    TruthfulAnswer w.power (x.net.query j).answer

instance (w : World) (x : Input) : Decidable (Consistent w x) :=
  decidable_of_iff ((x.classAfter = w.power ∨ (world.emit w x).any isPowerCommand = true) ∧
      ∀ j < maxRetryCount, (x.net.query j).Greeted →
        TruthfulAnswer w.power (x.net.query j).answer)
    ⟨fun ⟨h₁, h₂⟩ => ⟨h₁, h₂⟩, fun ⟨h₁, h₂⟩ => ⟨h₁, h₂⟩⟩

def SkipsRightly (w : World) (x : Input) : Prop :=
  match x.request with
  | .turnOn => (turnOnTV w.daemon.lan x.net).value = .already → x.classAfter = .on
  | .turnOff => (turnOffTV w.daemon.lan x.net).value = .already → x.classAfter = .off
  | .reply _ => True

instance (w : World) (x : Input) : Decidable (SkipsRightly w x) := by
  unfold SkipsRightly
  split <;> infer_instance

/-- A status is in the cache when the request has made its test: it was fresh
already, or an answer to the query gives one. -/
def StatusKnown (s : LanState) (net : TvInputs) : Prop :=
  (s.lastPowerQueryResult ≠ -1 ∧ msElapsed net.now s.lastPowerQuery < powerQueryTtlMs) ∨
    ∃ i c, FirstAnswer net.query i c ∧ statusOf c.bytes ≠ -1

/-- A command whose bytes are sent while a status is cached is answered in one of the
attempts. -/
def CommandAnswered (w : World) (x : Input) : Prop :=
  StatusKnown w.daemon.lan x.net → (world.emit w x).any isPowerCommand = true →
    ∃ j < maxRetryCount, (x.net.command j).Completes

def TellsTruth (power : PowerClass) (status : Int) : Prop :=
  status = -1 ∨ ∃ k : Fin 5, status = k ∧ classOf k = power

structure Sound (w : World) : Prop where
  idle : w.daemon.lan.hasActiveConnection = false
  cache : TellsTruth w.power w.daemon.lan.lastPowerQueryResult

theorem tellsTruth_answer {power : PowerClass} {c : Chunk}
    (h : TruthfulAnswer power (.got c)) : TellsTruth power (statusOf c.bytes) := by
  rcases h with h | ⟨k, hk, h⟩
  · left
    rw [h]
    rfl
  · right
    exact ⟨k, (statusOf_eq_iff c.bytes k).mpr (h ▸ List.prefix_rfl), hk⟩

section Query
variable {s : LanState} {net : TvInputs} {power : PowerClass}

theorem queryPowerStatus_tellsTruth (hs : s.hasActiveConnection = false)
    (ht : ∀ j < maxRetryCount, (net.query j).Greeted → TruthfulAnswer power (net.query j).answer) :
    TellsTruth power (queryPowerStatus s net.query).value := by
  rcases firstAnswer_or_none net.query with ⟨i, c, h⟩ | hnone
  · rw [(queryPowerStatus_answers hs h).1]
    have hans := ht i h.bound h.answers.1
    rw [h.answers.2] at hans
    exact tellsTruth_answer hans
  · exact Or.inl (queryPowerStatus_unanswered hs hnone).1

theorem cached_tellsTruth (hs : s.hasActiveConnection = false)
    (hc : TellsTruth power s.lastPowerQueryResult)
    (ht : ∀ j < maxRetryCount, (net.query j).Greeted → TruthfulAnswer power (net.query j).answer) :
    let q := queryPowerStatusCached s net.now net.query
    q.state.hasActiveConnection = false ∧ q.state.lastPowerQueryResult = q.value ∧
      TellsTruth power q.value ∧ (¬ StatusKnown s net → q.value = -1) := by
  rcases cached_cases hs net.now net.query with ⟨hne, hfresh, heq⟩ | heq
  · rw [heq]
    exact ⟨hs, rfl, hc, fun h => absurd (Or.inl ⟨hne, hfresh⟩) h⟩
  · rw [heq]
    refine ⟨hs, rfl, queryPowerStatus_tellsTruth hs ht, fun h => ?_⟩
    rcases firstAnswer_or_none net.query with ⟨i, c, hi⟩ | hnone
    · show (queryPowerStatus s net.query).value = -1
      rw [(queryPowerStatus_answers hs hi).1]
      by_contra hne
      exact h (Or.inr ⟨i, c, hi, hne⟩)
    · exact (queryPowerStatus_unanswered hs hnone).1

end Query

theorem tellsTruth_on {power : PowerClass} {status : Int} (h : TellsTruth power status)
    (ht : (status == 1 || status == 3) = true) : power = .on := by
  simp only [Bool.or_eq_true, beq_iff_eq] at ht
  rcases h with h | ⟨k, hk, rfl⟩
  · omega
  · have hk' : k = 1 ∨ k = 3 := by omega
    rcases hk' with rfl | rfl <;> rfl

theorem tellsTruth_off {power : PowerClass} {status : Int} (h : TellsTruth power status)
    (ht : (status == 0 || status == 2) = true) : power = .off := by
  simp only [Bool.or_eq_true, beq_iff_eq] at ht
  rcases h with h | ⟨k, hk, rfl⟩
  · omega
  · have hk' : k = 0 ∨ k = 2 := by omega
    rcases hk' with rfl | rfl <;> rfl

theorem isPowerCommand_of_sends {es : List SockEvent} {code : Bytes}
    (h : ∀ b, .send b ∈ es → b = Lan.request ∨ b = code)
    (hany : (es.map Effect.sock).any isPowerCommand = true) :
    code = onCommand ∨ code = offCommand := by
  obtain ⟨f, hf, hp⟩ := List.any_eq_true.mp hany
  obtain ⟨e, he, rfl⟩ := List.mem_map.mp hf
  cases e with
  | send b =>
    simp only [isPowerCommand, Bool.or_eq_true, beq_iff_eq] at hp
    rcases h b he with rfl | rfl
    · exact absurd hp (by decide)
    · exact hp
  | _ => cases hp

theorem statusIs_quiet {s : LanState} (hs : s.hasActiveConnection = false) (test : Int → Bool)
    (net : TvInputs) :
    ((statusIs test s net.now net.query).events.map Effect.sock).any isPowerCommand = false := by
  rw [← Bool.not_eq_true]
  intro h
  have hsend := isPowerCommand_of_sends (fun b hb => cached_sends hs hb) h
  exact absurd hsend (by decide)

theorem reply_quiet {w : World} (hs : w.daemon.lan.hasActiveConnection = false)
    {d : CecAllDevices} {net : TvInputs} {after : PowerClass} :
    (world.emit w ⟨.reply d, net, after⟩).any isPowerCommand = false := by
  obtain ⟨es, heq, hes⟩ := replyWithPowerStatus_effects d w.daemon net
  show (replyWithPowerStatus d w.daemon net).effects.any isPowerCommand = false
  have hcec : es.any isPowerCommand = false := by
    rcases hes with rfl | ⟨status, rfl⟩
    · rfl
    · rfl
  rw [heq, List.any_append, hcec, Bool.or_false]
  exact statusIs_quiet hs _ net

section Turn
variable {test : Int → Bool} {code : Bytes} {s : LanState} {net : TvInputs}

variable (test) in
theorem turnTV_sound {power after : PowerClass}
    (hs : s.hasActiveConnection = false) (hc : TellsTruth power s.lastPowerQueryResult)
    (ht : ∀ j < maxRetryCount, (net.query j).Greeted → TruthfulAnswer power (net.query j).answer)
    (hk : after = power ∨ (((turnTV (statusIs test) (sendPower code) s net).events.map
      Effect.sock).any isPowerCommand = true))
    (hans : StatusKnown s net → ((turnTV (statusIs test) (sendPower code) s net).events.map
      Effect.sock).any isPowerCommand = true → ∃ j < maxRetryCount, (net.command j).Completes) :
    let r := turnTV (statusIs test) (sendPower code) s net
    r.state.hasActiveConnection = false ∧ TellsTruth after r.state.lastPowerQueryResult ∧
      (r.value = .already → ∃ status, TellsTruth after status ∧ test status = true) := by
  obtain ⟨hidle, hres, htrue, hunknown⟩ := cached_tellsTruth hs hc ht
  have hquiet := statusIs_quiet hs test net
  rcases turnTV_cases test code s net with ⟨-, hpos, heq⟩ | ⟨-, heq⟩
  · have hafter : after = power := by
      rw [heq, hquiet] at hk
      simpa using hk
    rw [heq]
    refine ⟨hidle, ?_, fun _ => ⟨_, hafter ▸ htrue, hpos⟩⟩
    rw [hafter]
    exact hres ▸ htrue
  · have hidle' : (statusIs test s net.now net.query).state.hasActiveConnection = false := hidle
    rw [heq]
    rw [heq] at hk hans
    simp only [List.map_append, List.any_append, hquiet, Bool.false_or] at hk hans
    rcases firstAnswer_or_none net.command with ⟨i, c, h⟩ | hnone
    · rw [sendPower_answers hidle' h]
      exact ⟨hidle, Or.inl rfl, fun h => nomatch h⟩
    · obtain ⟨-, hst, -⟩ := sendPower_unanswered hidle' code hnone
      rw [hst]
      refine ⟨hidle, ?_, fun h => nomatch h⟩
      show TellsTruth after (queryPowerStatusCached s net.now net.query).state.lastPowerQueryResult
      rw [hres]
      rcases hk with hk | hk
      · exact hk ▸ htrue
      · -- The command arrived but was not answered, hence nothing is cached.
        by_cases hknown : StatusKnown s net
        · obtain ⟨j, hj, hcomp⟩ := hans hknown hk
          exact absurd hcomp (hnone j hj)
        · exact Or.inl (hunknown hknown)

end Turn

theorem sound_step (w : World) (x : Input) (h : Sound w)
    (hx : Consistent w x ∧ CommandAnswered w x) : SkipsRightly w x ∧ Sound (world.next w x) := by
  obtain ⟨hcons, hans⟩ := hx
  obtain ⟨request, net, after⟩ := x
  cases request with
  | turnOn =>
    obtain ⟨hidle, hcache, hskip⟩ := turnTV_sound (fun status => status == 1 || status == 3)
      h.idle h.cache hcons.truthful hcons.keeps hans
    refine ⟨fun hv => ?_, hidle, hcache⟩
    obtain ⟨status, ht, hpos⟩ := hskip hv
    exact tellsTruth_on ht hpos
  | turnOff =>
    obtain ⟨hidle, hcache, hskip⟩ := turnTV_sound (fun status => status == 0 || status == 2)
      h.idle h.cache hcons.truthful hcons.keeps hans
    refine ⟨fun hv => ?_, hidle, hcache⟩
    obtain ⟨status, ht, hpos⟩ := hskip hv
    exact tellsTruth_off ht hpos
  | reply d =>
    obtain ⟨hidle, hres, htrue, -⟩ := cached_tellsTruth h.idle h.cache hcons.truthful
    have hkeep : after = w.power := by
      rcases hcons.keeps with hk | hk
      · exact hk
      · rw [reply_quiet h.idle] at hk
        cases hk
    refine ⟨trivial, ?_, ?_⟩
    · show (replyWithPowerStatus d w.daemon net).state.lan.hasActiveConnection = false
      rw [replyWithPowerStatus_state]
      exact hidle
    · show TellsTruth after (replyWithPowerStatus d w.daemon net).state.lan.lastPowerQueryResult
      rw [replyWithPowerStatus_state, hkeep]
      exact hres ▸ htrue

theorem suppression_sound (host : Bytes) (power : PowerClass) (xs : List Input)
    (hx : world.Along (fun w x => Consistent w x ∧ CommandAnswered w x)
      (.initial host power) xs) :
    world.Along SkipsRightly (.initial host power) xs :=
  hx.of_invariant sound_step ⟨rfl, Or.inl rfl⟩

def answersStatus (k : Fin 5) : ℕ → SocketScript := fun _ =>
  greetingScript (.got ⟨powerAck (statusDigit k), statusAnswer_fits k⟩)

theorem suppression_sound_twice_on :
    world.Along SkipsRightly (.initial [] .off)
      [⟨.turnOn, ⟨⟨0, 0⟩, answersStatus 0, answersStatus 0⟩, .on⟩,
        ⟨.turnOn, ⟨⟨1, 0⟩, answersStatus 1, answersStatus 1⟩, .on⟩] :=
  suppression_sound [] .off _
    ⟨⟨by decide, fun _ _ => ⟨0, by decide, by decide⟩⟩,
      ⟨by decide, fun _ _ => ⟨0, by decide, by decide⟩⟩, trivial⟩

/-- The command to turn on arrives, but its answer is lost in all five attempts. A
second later the TV is taken to be off already, and stays on. -/
def lostAnswer : List Input :=
  [⟨.turnOn, ⟨⟨0, 0⟩, answersStatus 0, fun _ => greetingScript .failed⟩, .on⟩,
    ⟨.turnOff, ⟨⟨1, 0⟩, answersStatus 1, answersStatus 1⟩, .on⟩]

theorem lost_answer_misleads :
    world.Along Consistent (.initial [] .off) lostAnswer ∧
      ¬ world.Along SkipsRightly (.initial [] .off) lostAnswer := by
  decide

end CecFix.PowerSuppression
