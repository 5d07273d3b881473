import CecFix.AddressRace
import CecFix.Ownership

/-!
# Who has the address arrays

Between `erase` and `delete`, and between `new` and the second store of `operator[]`, the
handler of a report alone has the pointer to an array; at all other times it is the map that
has it. The steps of the handler are those of a ledger, and the activation, which only
borrows, makes no entry in it.
-/

namespace CecFix.AddressOwnership
open Cec AddressSteps

instance : Fintype CecAllDevices where
  elems := {.eTV, .eRec1, .eRec2, .eSTB1, .eDVD1, .eAudioSystem, .eSTB2, .eSTB3, .eDVD2, .eRec3,
    .eSTB4, .eDVD3, .eRsvd3, .eRsvd4, .eFreeUse, .eUnRegistered}
  complete d := by cases d <;> decide

/-- The array that only a local variable of the handler points to. -/
def inHand : HandlerPc → Option ℕ
  | .delete existing => existing
  | .insertNull p | .store p => some p
  | _ => none

/-- The owners are the entries of the map and, as `none`, the handler. -/
def ledger (s : Shared) (pc : HandlerPc) : Ledger (Option CecAllDevices) where
  holds
    | none => inHand pc
    | some d => (s.addressMap d).join
  live := s.live
  made := s.made

theorem balanced_logs {s s' : Shared} {pc pc' : HandlerPc} (hb : (ledger s pc).Balanced)
    (hs : Logs s s') (hpc : inHand pc' = inHand pc) : (ledger s' pc').Balanced := by
  have hledger : ledger s' pc' = ledger s pc := by
    unfold ledger
    rw [hs.addressMap, hs.live, hs.made, hpc]
  rwa [hledger]

theorem ledger_erase {s : Shared} {d : CecAllDevices} {existing : Option ℕ}
    (h : s.addressMap d = some existing) :
    ledger (s.enter d none) (.delete existing) =
      (ledger s (.erase existing)).pass (some d) none := by
  ext1
  · funext o
    cases o with
    | none => simp [ledger, Ledger.pass, inHand, h]
    | some e =>
      by_cases he : e = d
      · subst he
        simp [ledger, Ledger.pass]
      · simp [ledger, Ledger.pass, enter_other s he, he]
  · rfl
  · rfl

theorem ledger_delete (s : Shared) (p : ℕ) :
    ledger (s.free p) .allocate = (ledger s (.delete (some p))).free none p := by
  ext1
  · funext o
    cases o with
    | none => rfl
    | some e => simp [ledger, Ledger.free, Shared.free]
  · rfl
  · rfl

theorem ledger_allocate (s : Shared) (a : PhysicalAddress) :
    ledger (s.make a) (.insertNull s.made) = (ledger s .allocate).make none := by
  ext1
  · funext o
    cases o with
    | none => rfl
    | some e => simp [ledger, Ledger.make, Shared.make]
  · rfl
  · rfl

theorem ledger_insertNull {s : Shared} {d : CecAllDevices} (h : s.addressMap d = none) (p : ℕ) :
    ledger (s.enter d (some none)) (.store p) = ledger s (.insertNull p) := by
  ext1
  · funext o
    cases o with
    | none => rfl
    | some e =>
      by_cases he : e = d
      · subst he
        simp [ledger, h]
      · simp [ledger, enter_other s he]
  · rfl
  · rfl

theorem ledger_store (s : Shared) (d : CecAllDevices) (p : ℕ) :
    ledger (s.enter d (some (some p))) (.logByte0 p) =
      (ledger s (.store p)).pass none (some d) := by
  ext1
  · funext o
    cases o with
    | none => simp [ledger, Ledger.pass, inHand]
    | some e =>
      by_cases he : e = d
      · subst he
        simp [ledger, Ledger.pass, inHand]
      · simp [ledger, Ledger.pass, enter_other s he, he]
  · rfl
  · rfl

theorem balanced_handler {m : VcCecMessage} {s : Shared} {pc : HandlerPc} (h : Tidy m s pc)
    (hb : (ledger s pc).Balanced) :
    (ledger (handlerStep m (s, pc)).1 (handlerStep m (s, pc)).2).Balanced := by
  cases pc with
  | lookup =>
    simp only [handlerStep]
    cases s.addressMap m.initiator with
    | none => exact hb
    | some existing => exact hb
  | erase existing =>
    change (ledger (s.enter m.initiator none) (.delete existing)).Balanced
    rw [ledger_erase h.own]
    exact hb.pass (Option.some_ne_none _) rfl
  | delete existing =>
    cases existing with
    | none => exact hb
    | some p =>
      change (ledger (s.free p) .allocate).Balanced
      rw [ledger_delete]
      exact hb.free rfl
  | allocate =>
    change (ledger (s.make _) (.insertNull s.made)).Balanced
    rw [ledger_allocate]
    exact hb.make rfl
  | insertNull p =>
    simp only [handlerStep, h.own.1]
    rwa [ledger_insertNull h.own.1]
  | store p =>
    change (ledger (s.enter m.initiator (some (some p))) (.logByte0 p)).Balanced
    have hempty : (ledger s (.store p)).holds (some m.initiator) = none :=
      congrArg Option.join h.own.1
    rw [ledger_store]
    exact hb.pass (Option.some_ne_none _).symm hempty
  | logByte0 p => exact balanced_logs hb (logs_read s p) rfl
  | logByte1 p => exact balanced_logs hb (logs_read s p) rfl
  | testWant p =>
    simp only [handlerStep]
    split_ifs
    · exact hb
    · exact hb
  | path q =>
    rcases handlerStep_path m s q with ⟨p, q', -, hstep, -⟩ | ⟨-, byte0, byte1, hstep⟩
    · rw [hstep]
      exact balanced_logs hb (logs_read s p) rfl
    · rw [hstep]
      exact balanced_logs hb (logs_note s _) rfl
  | clearWant => exact hb
  | done => exact hb

theorem balanced_playback {s : Shared} {pc : HandlerPc} (hb : (ledger s pc).Balanced)
    (q : PlaybackPc) : (ledger (playbackStep (s, q)).1 pc).Balanced := by
  cases q with
  | lookup | setWant | ask | done => exact hb
  | path q =>
    rcases playbackStep_path s q with ⟨p, q', -, hstep, -⟩ | ⟨-, byte0, byte1, hstep⟩
    · rw [hstep]
      exact balanced_logs hb (logs_read s p) rfl
    · rw [hstep]
      exact balanced_logs hb (logs_note s _) rfl

theorem balanced_boot : (ledger .boot .done).Balanced where
  owned p := by
    refine iff_of_false Bool.false_ne_true ?_
    rintro ⟨o, ho⟩
    cases o with
    | none => cases ho
    | some d => cases ho
  alone o o' p ho := by
    cases o with
    | none => cases ho
    | some d => cases ho
  unmade _ _ := rfl

theorem balanced_reachable {s : Shared} {m : VcCecMessage} {pc : HandlerPc} {q : PlaybackPc}
    (h : Reachable s m pc q) : (ledger s pc).Balanced := by
  induction h with
  | boot m => exact balanced_boot
  | report m' hm prior ih => exact ih
  | activate prior ih => exact ih
  | handler prior ih => exact balanced_handler prior.tidy ih
  | playback prior ih => exact balanced_playback ih _

/-- However reports and activations interleave: every array that lives has exactly one
owner, a dead one has none, what is deleted was alive, and at most 17 arrays live. -/
theorem arrays_owned {s : Shared} {m : VcCecMessage} {pc : HandlerPc} {q : PlaybackPc}
    (h : Reachable s m pc q) :
    (∀ p, s.live p = true → ∃! o, (ledger s pc).holds o = some p) ∧
      (∀ p, s.live p = false → ∀ o, (ledger s pc).holds o ≠ some p) ∧
      (∀ p, pc = .delete (some p) → s.live p = true) ∧
      ∃ live : Finset ℕ, (∀ p, s.live p = true ↔ p ∈ live) ∧ live.card ≤ 17 := by
  have hb := balanced_reachable h
  refine ⟨fun p hp => ?_, fun p hp o ho => ?_, fun p hpc => ?_, hb.bounded⟩
  · obtain ⟨o, ho⟩ := (hb.owned p).mp hp
    exact ⟨o, ho, fun o' ho' => hb.alone o' o p ho' ho⟩
  · have hlive : s.live p = true := (hb.owned p).mpr ⟨o, ho⟩
    rw [hp] at hlive
    cases hlive
  · subst hpc
    exact (hb.owned p).mpr ⟨none, rfl⟩

theorem arrays_owned_replacing :
    let s := (handlerStep AddressRace.playback1Report)^[2] (AddressRace.known, .lookup)
    s.2 = .delete (some 0) ∧ s.1.live 0 = true := by
  have hreachable := ((Reachable.report AddressRace.playback1Report rfl
    AddressRace.reachable_known).handler_iterate 2)
  exact ⟨rfl, (arrays_owned hreachable).2.2.1 0 rfl⟩

end CecFix.AddressOwnership
