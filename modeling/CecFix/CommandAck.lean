import CecFix.PowerStatus

/-!
# What a successful power command means

`sendOn` and `sendOff` take the length of the answer for the verdict: any answer,
an empty one included, counts as success, and `ON_OFF_ACK` is compared with
nothing. A reported success is an acknowledged command exactly when the answer
that ended the attempts is an acknowledgement.
-/

namespace CecFix.Lan

/-- In an attempt that was made, the projector answered with `ON_OFF_ACK` in front. -/
def Acknowledged (scripts : ℕ → SocketScript) : Prop :=
  ∃ i < maxRetryCount, (∀ j < i, ¬ (scripts j).Completes) ∧
    ∃ c, (scripts i).Answers c ∧ onOffAck <+: c.bytes

def ReportsTruly (ret : Int) (scripts : ℕ → SocketScript) : Prop :=
  (ret = 0 → Acknowledged scripts) ∧ (¬ Acknowledged scripts → ret < 0)

theorem acknowledged_iff (scripts : ℕ → SocketScript) :
    Acknowledged scripts ↔ ∃ i c, FirstAnswer scripts i c ∧ onOffAck <+: c.bytes := by
  constructor
  · intro hacked
    obtain ⟨i, hi, hfail, c, hc, hack⟩ := hacked
    exact ⟨i, c, ⟨hi, hc, hfail⟩, hack⟩
  · intro hfirst
    obtain ⟨i, c, h, hack⟩ := hfirst
    exact ⟨i, h.bound, h.earlier, c, h.answers, hack⟩

theorem sendPower_reportsTruly_iff (code : Bytes) (s : LanState) (scripts : ℕ → SocketScript) :
    ReportsTruly (sendPower code s scripts).value scripts ↔
      s.hasActiveConnection = true ∨
        ∀ i c, FirstAnswer scripts i c → onOffAck <+: c.bytes := by
  cases hs : s.hasActiveConnection with
  | true =>
    have hret : (sendPower code s scripts).value = -9 := by rw [sendPower_active hs]
    simp only [ReportsTruly, hret, true_or, iff_true]
    exact ⟨by omega, fun _ => by omega⟩
  | false =>
    simp only [Bool.false_eq_true, false_or]
    rcases firstAnswer_or_none scripts with ⟨i, c, h⟩ | hnone
    · have hret : (sendPower code s scripts).value = 0 := by rw [sendPower_answers hs h]
      have hack : Acknowledged scripts ↔ ∀ i c, FirstAnswer scripts i c → onOffAck <+: c.bytes := by
        rw [acknowledged_iff]
        constructor
        · intro hfirst k e he
          obtain ⟨j, d, hd, hp⟩ := hfirst
          obtain ⟨-, rfl⟩ := hd.unique he
          exact hp
        · intro hall
          exact ⟨i, c, h, hall i c h⟩
      rw [← hack, ReportsTruly, hret]
      constructor
      · intro hr
        exact hr.1 rfl
      · intro ha
        exact ⟨fun _ => ha, fun hn => absurd ha hn⟩
    · have hret := (sendPower_unanswered hs code hnone).1
      apply iff_of_true ⟨by omega, fun _ => hret⟩
      intro i c h
      exact absurd ⟨c, h.answers⟩ (hnone i h.bound)

theorem success_is_real_iff (s : LanState) (scripts : ℕ → SocketScript) :
    (ReportsTruly (sendOn s scripts).value scripts ↔
      s.hasActiveConnection = true ∨ ∀ i c, FirstAnswer scripts i c → onOffAck <+: c.bytes) ∧
    (ReportsTruly (sendOff s scripts).value scripts ↔
      s.hasActiveConnection = true ∨ ∀ i c, FirstAnswer scripts i c → onOffAck <+: c.bytes) :=
  ⟨sendPower_reportsTruly_iff onCommand s scripts, sendPower_reportsTruly_iff offCommand s scripts⟩

def closedScripts : ℕ → SocketScript := fun _ => greetingScript (.got ⟨[], by decide⟩)

theorem success_without_ack :
    (sendOn (bootState []) closedScripts).value = 0 ∧ ¬ Acknowledged closedScripts ∧
      ¬ ReportsTruly (sendOn (bootState []) closedScripts).value closedScripts := by
  have hanswer : FirstAnswer closedScripts 0 ⟨[], by decide⟩ :=
    FirstAnswer.zero ⟨greetingScript_greeted _, rfl⟩
  have hret : (sendOn (bootState []) closedScripts).value = 0 := by
    rw [sendOn, sendPower_answers rfl hanswer]
  have hack : ¬ Acknowledged closedScripts := by
    rw [acknowledged_iff]
    intro hfirst
    obtain ⟨i, c, h, hp⟩ := hfirst
    obtain ⟨-, rfl⟩ := h.unique hanswer
    exact absurd hp (by decide)
  exact ⟨hret, hack, fun h => hack (h.1 hret)⟩

end CecFix.Lan
