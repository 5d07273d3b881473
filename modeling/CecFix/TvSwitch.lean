import CecFix.PowerSuppression

/-!
# The TV as a switch

What the power requests are for: a TV that is on or off as it was last told, and that
answers which of the two it is. With a projector that obeys the command bytes it gets, and
whose answers to the commands are not lost, the daemon and the projector together are that
switch, although most requests are dealt with from a cache and many commands are left out.
-/

namespace CecFix.TvSwitch
open Cec Lan PowerSuppression

def powerReport (requestor : CecAllDevices) (power : PowerClass) : CecCall :=
  .sendMessage requestor
    [opcodeReportPowerStatus, if power = .on then cecPowerStatusOn else cecPowerStatusStandby] true

def switch : Transducer PowerClass Input CecCall where
  next power x :=
    match x.request with
    | .turnOn => .on
    | .turnOff => .off
    | .reply _ => power
  emit power x :=
    match x.request with
    | .turnOn => []
    | .turnOff => []
    | .reply d => [powerReport d power]

def commanded : Effect → Option PowerClass
  | .sock (.send b) =>
    if b = onCommand then some .on else if b = offCommand then some .off else none
  | _ => none

def obeying (power : PowerClass) (es : List Effect) : PowerClass :=
  es.foldl (fun p e => (commanded e).getD p) power

structure Obedient (w : World) (x : Input) : Prop where
  obeys : x.classAfter = obeying w.power (world.emit w x)
  truthful : ∀ j < maxRetryCount, (x.net.query j).Greeted →
    TruthfulAnswer w.power (x.net.query j).answer

instance (w : World) (x : Input) : Decidable (Obedient w x) :=
  decidable_of_iff (x.classAfter = obeying w.power (world.emit w x) ∧
      ∀ j < maxRetryCount, (x.net.query j).Greeted →
        TruthfulAnswer w.power (x.net.query j).answer)
    ⟨fun ⟨h₁, h₂⟩ => ⟨h₁, h₂⟩, fun ⟨h₁, h₂⟩ => ⟨h₁, h₂⟩⟩

/-- A command that is not left out is answered in one of its attempts, and a status that is
asked for is known. -/
def Served (w : World) (x : Input) : Prop :=
  match x.request with
  | .turnOn => (turnOnTV w.daemon.lan x.net).value ≠ .already →
      ∃ j < maxRetryCount, (x.net.command j).Completes
  | .turnOff => (turnOffTV w.daemon.lan x.net).value ≠ .already →
      ∃ j < maxRetryCount, (x.net.command j).Completes
  | .reply _ => StatusKnown w.daemon.lan x.net

theorem obeying_append (power : PowerClass) (es es' : List Effect) :
    obeying power (es ++ es') = obeying (obeying power es) es' :=
  List.foldl_append

theorem obeying_quiet {power : PowerClass} {es : List Effect} (h : ∀ e ∈ es, commanded e = none) :
    obeying power es = power := by
  induction es with
  | nil => rfl
  | cons e es ih =>
    obtain ⟨he, hrest⟩ := List.forall_mem_cons.mp h
    rw [obeying, List.foldl_cons, he]
    exact ih hrest

theorem obeying_command {power q : PowerClass} {es : List Effect}
    (h : ∀ e ∈ es, commanded e = none ∨ commanded e = some q)
    (hsome : ∃ e ∈ es, commanded e = some q) : obeying power es = q := by
  induction es generalizing power with
  | nil =>
    obtain ⟨e, he, -⟩ := hsome
    cases he
  | cons e es ih =>
    obtain ⟨he, hrest⟩ := List.forall_mem_cons.mp h
    rw [obeying, List.foldl_cons]
    by_cases hlater : ∃ e ∈ es, commanded e = some q
    · exact ih hrest hlater
    · have hquiet : ∀ e ∈ es, commanded e = none := by
        intro e' he'
        exact (hrest e' he').resolve_right fun hq => hlater ⟨e', he', hq⟩
      obtain ⟨e', he', hq⟩ := hsome
      rcases List.mem_cons.mp he' with rfl | he'
      · rw [hq]
        exact obeying_quiet hquiet
      · exact absurd ⟨e', he', hq⟩ hlater

theorem commanded_sends {es : List SockEvent} {code : Bytes} {q : PowerClass}
    (hcode : commanded (.sock (.send code)) = some q)
    (h : ∀ b, .send b ∈ es → b = Lan.request ∨ b = code) :
    ∀ e ∈ es.map Effect.sock, commanded e = none ∨ commanded e = some q := by
  intro e he
  obtain ⟨f, hf, rfl⟩ := List.mem_map.mp he
  cases f with
  | send b =>
    rcases h b hf with rfl | rfl
    · exact Or.inl rfl
    · exact Or.inr hcode
  | _ => exact Or.inl rfl

theorem query_commands_nothing {s : LanState} (hs : s.hasActiveConnection = false) (test : Int → Bool)
    (net : TvInputs) (power : PowerClass) :
    obeying power ((statusIs test s net.now net.query).events.map Effect.sock) = power := by
  apply obeying_quiet
  intro e he
  obtain ⟨f, hf, rfl⟩ := List.mem_map.mp he
  cases f with
  | send b =>
    rcases cached_sends hs hf with rfl | rfl
    · rfl
    · rfl
  | _ => rfl

section Turn
variable {test : Int → Bool} {s : LanState} {net : TvInputs} {power : PowerClass}

theorem turn_decides (code : Bytes) (q : PowerClass) (hcode : commanded (.sock (.send code)) = some q)
    (hrequest : code ≠ Lan.request)
    (htest : ∀ {p status}, TellsTruth p status → test status = true → p = q)
    (hs : s.hasActiveConnection = false) (hc : TellsTruth power s.lastPowerQueryResult)
    (ht : ∀ j < maxRetryCount, (net.query j).Greeted → TruthfulAnswer power (net.query j).answer)
    (hserved : (turnTV (statusIs test) (sendPower code) s net).value ≠ .already →
      ∃ j < maxRetryCount, (net.command j).Completes) :
    let r := turnTV (statusIs test) (sendPower code) s net
    obeying power (r.events.map Effect.sock) = q ∧ r.state.hasActiveConnection = false ∧
      TellsTruth q r.state.lastPowerQueryResult := by
  obtain ⟨hidle, hres, htrue, -⟩ := cached_tellsTruth hs hc ht
  rcases turnTV_cases test code s net with ⟨-, hpos, heq⟩ | ⟨-, heq⟩
  · have hq : power = q := htest htrue hpos
    subst hq
    rw [heq]
    exact ⟨query_commands_nothing hs test net power, hidle, hres ▸ htrue⟩
  · rw [heq] at hserved ⊢
    obtain ⟨j, hj, hcomp⟩ := hserved (by simp)
    have hidle' : (statusIs test s net.now net.query).state.hasActiveConnection = false := hidle
    rcases firstAnswer_or_none net.command with ⟨i, c, hfirst⟩ | hnone
    · have hanswers : sendPower code _ net.command = _ := sendPower_answers hidle' hfirst
      refine ⟨?_, ?_, ?_⟩
      · rw [List.map_append, obeying_append, query_commands_nothing hs]
        apply obeying_command (commanded_sends hcode fun b hb => sendPower_sends hidle' hb)
        refine ⟨.sock (.send code), ?_, hcode⟩
        rw [hanswers]
        apply List.mem_map_of_mem
        rw [send_mem_attemptEvents hrequest]
        exact ⟨i, Nat.lt_succ_self i, hfirst.answers.1⟩
      · rw [hanswers]
        exact hidle
      · rw [hanswers]
        exact Or.inl rfl
    · exact absurd hcomp (hnone j hj)

theorem known_value (hs : s.hasActiveConnection = false) (h : StatusKnown s net) :
    (queryPowerStatusCached s net.now net.query).value ≠ -1 := by
  rcases h with hfresh | ⟨i, c, hfirst, hstatus⟩
  · rw [cached_fresh hfresh]
    exact hfresh.1
  · rcases cached_cases hs net.now net.query with ⟨hne, -, heq⟩ | heq
    · rw [heq]
      exact hne
    · rw [heq]
      show (queryPowerStatus s net.query).value ≠ -1
      rw [(queryPowerStatus_answers hs hfirst).1]
      exact hstatus

end Turn

theorem classOf_on_iff (k : Fin 5) : classOf k = .on ↔ ((k : ℕ) = 1 ∨ (k : ℕ) = 3) := by
  fin_cases k <;> simp [classOf]

theorem reply_tells {w : World} {net : TvInputs} {d : CecAllDevices} (h : Sound w)
    (ht : ∀ j < maxRetryCount, (net.query j).Greeted → TruthfulAnswer w.power (net.query j).answer)
    (hknown : (queryPowerStatusCached w.daemon.lan net.now net.query).value ≠ -1) :
    (replyWithPowerStatus d w.daemon net).effects.filterMap cecCall? = [powerReport d w.power] := by
  obtain ⟨-, -, htrue, -⟩ := cached_tellsTruth h.idle h.cache ht
  rcases htrue with hnone | ⟨k, hk, hclass⟩
  · exact absurd hnone hknown
  · have hvalue : (isOn w.daemon.lan net.now net.query).value =
        .ok ((k : Int) == 1 || (k : Int) == 3) := by
      simp only [isOn, statusIs]
      rw [hk, if_neg (by omega)]
    have hpower : ((k : Int) == 1 || (k : Int) == 3) = decide (w.power = .on) := by
      rw [← hclass, Bool.eq_iff_iff, decide_eq_true_iff, classOf_on_iff]
      simp only [Bool.or_eq_true, beq_iff_eq]
      omega
    simp only [replyWithPowerStatus, hvalue, hpower, andThen_effects, withLan_effects,
      List.filterMap_append]
    rw [List.filterMap_eq_nil_iff.mpr (by simp)]
    simp [cecCall?, powerReport]

theorem Obedient.consistent {w : World} {x : Input} (h : Obedient w x) : Consistent w x where
  keeps := by
    by_cases hquiet : (world.emit w x).any isPowerCommand = true
    · exact Or.inr hquiet
    · refine Or.inl (h.obeys.trans (obeying_quiet fun e he => ?_))
      have hnot : isPowerCommand e = false := by
        rw [← Bool.not_eq_true]
        exact fun hp => hquiet (List.any_eq_true.mpr ⟨e, he, hp⟩)
      cases e with
      | cec c => rfl
      | sock f =>
        cases f with
        | send b =>
          simp only [isPowerCommand, Bool.or_eq_false_iff, beq_eq_false_iff_ne] at hnot
          simp [commanded, hnot.1, hnot.2]
        | _ => rfl
  truthful := h.truthful

def Shows (w : World) (power : PowerClass) : Prop := Sound w ∧ w.power = power

theorem sock_calls (es : List SockEvent) : (es.map Effect.sock).filterMap cecCall? = [] := by
  rw [List.filterMap_eq_nil_iff]
  intro e he
  obtain ⟨f, -, rfl⟩ := List.mem_map.mp he
  rfl

def tv : Transducer World Input CecCall := world.adapt id cecCall?

theorem switch_step (w : World) (power : PowerClass) (x : Input) (h : Shows w power)
    (hx : Obedient w x ∧ Served w x) :
    tv.emit w x = switch.emit power x ∧ Shows (tv.next w x) (switch.next power x) := by
  obtain ⟨hsound, rfl⟩ := h
  obtain ⟨hobey, hserved⟩ := hx
  have hafter := hobey.obeys
  obtain ⟨request, net, after⟩ := x
  cases request with
  | turnOn =>
    obtain ⟨hon, hidle, htrue⟩ := turn_decides onCommand .on rfl (by decide)
      tellsTruth_on hsound.idle hsound.cache hobey.truthful hserved
    have hclass : after = .on := hafter.trans hon
    exact ⟨sock_calls _, ⟨hidle, hclass ▸ htrue⟩, hclass⟩
  | turnOff =>
    obtain ⟨hoff, hidle, htrue⟩ := turn_decides offCommand .off rfl (by decide)
      tellsTruth_off hsound.idle hsound.cache hobey.truthful hserved
    have hclass : after = .off := hafter.trans hoff
    exact ⟨sock_calls _, ⟨hidle, hclass ▸ htrue⟩, hclass⟩
  | reply d =>
    have hclass : after = w.power := by
      rcases hobey.consistent.keeps with hk | hk
      · exact hk
      · rw [reply_quiet hsound.idle] at hk
        cases hk
    obtain ⟨hidle, hres, htrue, -⟩ := cached_tellsTruth hsound.idle hsound.cache hobey.truthful
    refine ⟨reply_tells hsound hobey.truthful (known_value hsound.idle hserved), ⟨?_, ?_⟩, hclass⟩
    · show (replyWithPowerStatus d w.daemon net).state.lan.hasActiveConnection = false
      rw [replyWithPowerStatus_state]
      exact hidle
    · show TellsTruth after (replyWithPowerStatus d w.daemon net).state.lan.lastPowerQueryResult
      rw [replyWithPowerStatus_state, hclass]
      exact hres ▸ htrue

def asRequested : List Input :=
  [⟨.turnOn, ⟨⟨0, 0⟩, answersStatus 0, answersStatus 0⟩, .on⟩,
    ⟨.reply .eDVD1, ⟨⟨1, 0⟩, answersStatus 3, answersStatus 0⟩, .on⟩,
    ⟨.turnOn, ⟨⟨2, 0⟩, answersStatus 1, answersStatus 0⟩, .on⟩]

def RepliesRightly (w : World) (x : Input) : Prop :=
  match x.request with
  | .turnOn => True
  | .turnOff => True
  | .reply d => tv.emit w x = [powerReport d x.classAfter] ∨
      (tv.emit w x = [] ∧ ¬ StatusKnown w.daemon.lan x.net)

theorem reply_silent {s : Daemon} {net : TvInputs} {d : CecAllDevices}
    (h : (queryPowerStatusCached s.lan net.now net.query).value = -1) :
    (replyWithPowerStatus d s net).effects.filterMap cecCall? = [] := by
  have hvalue : (isOn s.lan net.now net.query).value =
      .error ("Networking error: " ++ toString (-1 : Int)) := by
    simp only [isOn, statusIs]
    rw [h, if_pos (by decide)]
  simp only [replyWithPowerStatus, hvalue, withLan_effects]
  exact sock_calls _

theorem rightly_step (w : World) (x : Input) (h : Sound w)
    (hx : Consistent w x ∧ CommandAnswered w x) : RepliesRightly w x ∧ Sound (tv.next w x) := by
  refine ⟨?_, (sound_step w x h hx).2⟩
  have hkeeps := hx.1.keeps
  have htruthful := hx.1.truthful
  obtain ⟨request, net, after⟩ := x
  cases request with
  | turnOn => trivial
  | turnOff => trivial
  | reply d =>
    have hclass : after = w.power := by
      rcases hkeeps with hk | hk
      · exact hk
      · rw [reply_quiet h.idle] at hk
        cases hk
    by_cases hvalue : (queryPowerStatusCached w.daemon.lan net.now net.query).value = -1
    · exact Or.inr ⟨reply_silent hvalue, fun hknown => known_value h.idle hknown hvalue⟩
    · left
      rw [hclass]
      exact reply_tells h htruthful hvalue

end CecFix.TvSwitch
