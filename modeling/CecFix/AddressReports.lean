import CecFix.Daemon

/-!
# The address map against the history of reports

`isReportPhysicalAddress` accepts a report of two bytes, of which the handler reads
a third. What the map then holds for the initiator is in part a byte that was
never received. On histories without such reports the map is exactly the last
reports; with one of them, some content of the unreceived bytes makes it wrong.
-/

namespace CecFix.AddressReports
open Cec

abbrev Callback := VcCecMessage × TvInputs

def callbacks : Transducer Daemon Callback Effect :=
  daemon.adapt (fun c => .callback (some c.1) c.2) some

def fullReportFrom (d : CecAllDevices) (m : VcCecMessage) : Bool :=
  m.initiator == d && m.payload 0 == opcodeReportPhysicalAddress && 3 ≤ m.length

def lastReport (d : CecAllDevices) (ms : List VcCecMessage) : Option PhysicalAddress :=
  ((ms.filter (fullReportFrom d)).getLast?).map reportedAddress

def Truncated (m : VcCecMessage) : Prop :=
  m.payload 0 = opcodeReportPhysicalAddress ∧ m.length = 2

/-- After each message the map holds the last full reports, and the message
changed no entry but that of its initiator. -/
def MapIsExact (lan : Lan.LanState) (cs : List Callback) : Prop :=
  ∀ before c after, cs = before ++ c :: after →
    let s := callbacks.run (boot lan) before
    let s' := callbacks.next s c
    (∀ d, s'.addressMap d = (lastReport d (before.map Prod.fst ++ [c.1])).map some) ∧
      ∀ d, d ≠ c.1.initiator → s'.addressMap d = s.addressMap d

/-- Messages with the same received part; the rest of the payload is unspecified. -/
structure SameReceived (m m' : VcCecMessage) : Prop where
  length : m'.length = m.length
  initiator : m'.initiator = m.initiator
  follower : m'.follower = m.follower
  payload : ∀ i : Fin 16, i.val < m.length → m'.payload i = m.payload i

def SameHistory : List Callback → List Callback → Prop :=
  List.Forall₂ fun c c' => SameReceived c.1 c'.1 ∧ c'.2 = c.2

theorem lastReport_snoc (d : CecAllDevices) (ms : List VcCecMessage) (m : VcCecMessage) :
    lastReport d (ms ++ [m]) =
      if fullReportFrom d m then some (reportedAddress m) else lastReport d ms := by
  by_cases h : fullReportFrom d m = true <;> simp [lastReport, h]

theorem callbacks_next (s : Daemon) (c : Callback) :
    callbacks.next s c = (handleMessage c.1 s c.2).state := rfl

theorem isReport_iff (m : VcCecMessage) : isReportPhysicalAddress m = true ↔
    m.payload 0 = opcodeReportPhysicalAddress ∧ 1 < m.length := by
  simp [isReportPhysicalAddress, and_comm]

theorem next_addressMap (s : Daemon) (c : Callback) (d : CecAllDevices) :
    (callbacks.next s c).addressMap d =
      if c.1.initiator = d ∧ isReportPhysicalAddress c.1 = true then
        some (some (reportedAddress c.1))
      else s.addressMap d := by
  rw [callbacks_next]
  cases h : isReportPhysicalAddress c.1 with
  | true =>
    rw [handleMessage_report h, handleReport_state]
    by_cases hd : c.1.initiator = d
    · subst hd
      simp
    · simp [hd, Function.update_of_ne (Ne.symm hd)]
  | false => simp [(handleMessage_frame h s c.2).1]

theorem fullReport_iff {m : VcCecMessage} (h : ¬ Truncated m) (d : CecAllDevices) :
    fullReportFrom d m = true ↔ m.initiator = d ∧ isReportPhysicalAddress m = true := by
  rw [isReport_iff]
  simp only [fullReportFrom, Bool.and_eq_true, beq_iff_eq, decide_eq_true_eq, and_assoc]
  constructor
  · intro hfull
    obtain ⟨hd, hop, hl⟩ := hfull
    exact ⟨hd, hop, by omega⟩
  · intro hrep
    obtain ⟨hd, hop, hl⟩ := hrep
    have hne : m.length ≠ 2 := fun he => h ⟨hop, he⟩
    exact ⟨hd, hop, by omega⟩

theorem run_addressMap (lan : Lan.LanState) (cs : List Callback)
    (h : ∀ c ∈ cs, ¬ Truncated c.1) (d : CecAllDevices) :
    (callbacks.run (boot lan) cs).addressMap d = (lastReport d (cs.map Prod.fst)).map some := by
  induction cs using List.reverseRecOn with
  | nil => rfl
  | append_singleton cs c ih =>
    have hc : ¬ Truncated c.1 := h c (by simp)
    have ih := ih fun e he => h e (by simp [he])
    simp only [Transducer.run_append, Transducer.run_cons, Transducer.run_nil, List.map_append,
      List.map_cons, List.map_nil, lastReport_snoc, next_addressMap, ih]
    by_cases hf : fullReportFrom d c.1 = true
    · rw [if_pos hf, if_pos ((fullReport_iff hc d).mp hf)]
      rfl
    · rw [if_neg hf, if_neg (mt (fullReport_iff hc d).mpr hf)]

theorem mapIsExact_of_full (lan : Lan.LanState) {cs : List Callback}
    (h : ∀ c ∈ cs, ¬ Truncated c.1) : MapIsExact lan cs := by
  intro before c after hcs
  subst hcs
  refine ⟨fun d => ?_, fun d hd => ?_⟩
  · have hrun := run_addressMap lan (before ++ [c])
      (fun e he => h e (by rcases List.mem_append.mp he with he | he <;> simp_all)) d
    simpa [Transducer.run_append] using hrun
  · rw [next_addressMap, if_neg fun hc => hd hc.1.symm]

theorem SameReceived.refl (m : VcCecMessage) : SameReceived m m := ⟨rfl, rfl, rfl, fun _ _ => rfl⟩

theorem SameReceived.truncated {m m' : VcCecMessage} (h : SameReceived m m')
    (ht : Truncated m') : Truncated m := by
  have hl : m.length = 2 := h.length.symm.trans ht.2
  exact ⟨(h.payload 0 (by simp [hl])).symm.trans ht.1, hl⟩

theorem SameHistory.refl (cs : List Callback) : SameHistory cs cs :=
  List.forall₂_same.mpr fun c _ => ⟨SameReceived.refl c.1, rfl⟩

theorem SameHistory.truncated {cs cs' : List Callback} (h : SameHistory cs cs') {c' : Callback}
    (hc : c' ∈ cs') (ht : Truncated c'.1) : ∃ c ∈ cs, Truncated c.1 := by
  induction h with
  | nil => cases hc
  | cons hd _ ih =>
    rcases List.mem_cons.mp hc with rfl | hc
    · exact ⟨_, by simp, hd.1.truncated ht⟩
    · obtain ⟨c, hmem, htr⟩ := ih hc
      exact ⟨c, by simp [hmem], htr⟩

def withThirdByte (m : VcCecMessage) (b : UInt8) : VcCecMessage :=
  { m with payload := Function.update m.payload 2 b }

theorem sameReceived_withThirdByte {m : VcCecMessage} (h : m.length = 2) (b : UInt8) :
    SameReceived m (withThirdByte m b) := by
  refine ⟨rfl, rfl, rfl, fun i hi => ?_⟩
  have hne : i ≠ 2 := by
    intro hi2
    subst hi2
    rw [h] at hi
    exact absurd hi (by decide)
  simp [withThirdByte, hne]

theorem exists_other_byte (a : Option PhysicalAddress) :
    ∃ b : UInt8, ∀ c, a = some c → b ≠ c.byte1 := by
  cases a with
  | none => exact ⟨0, by simp⟩
  | some c =>
    by_cases h : c.byte1 = 0
    · exact ⟨1, by simp [h]⟩
    · exact ⟨0, by simpa using Ne.symm h⟩

theorem truncated_breaks_map (lan : Lan.LanState) (before after : List Callback) {c : Callback}
    (ht : Truncated c.1) :
    ∃ b, ¬ MapIsExact lan (before ++ (withThirdByte c.1 b, c.2) :: after) := by
  obtain ⟨b, hb⟩ := exists_other_byte (lastReport c.1.initiator (before.map Prod.fst))
  refine ⟨b, fun h => ?_⟩
  obtain ⟨hmap, -⟩ := h before _ after rfl
  have hrep : isReportPhysicalAddress (withThirdByte c.1 b) = true := by
    rw [isReport_iff]
    exact ⟨by simpa [withThirdByte] using ht.1, by simp [withThirdByte, ht.2]⟩
  have hnot : fullReportFrom c.1.initiator (withThirdByte c.1 b) = false := by
    simp [fullReportFrom, withThirdByte, ht.2]
  have hentry := hmap c.1.initiator
  rw [next_addressMap, if_pos ⟨rfl, hrep⟩, lastReport_snoc, hnot] at hentry
  cases hl : lastReport c.1.initiator (before.map Prod.fst) with
  | none => simp [hl] at hentry
  | some a =>
    simp only [hl, Bool.false_eq_true, if_false, Option.map_some, Option.some.injEq] at hentry
    apply hb a hl
    rw [← hentry]
    simp [reportedAddress, withThirdByte]

/-- The map is right, whatever lies behind the received bytes, exactly if no report
ends before its second address byte. -/
theorem map_exact_iff_no_truncated (lan : Lan.LanState) (cs : List Callback) :
    (∀ cs', SameHistory cs cs' → MapIsExact lan cs') ↔ ∀ c ∈ cs, ¬ Truncated c.1 := by
  constructor
  · intro h c hc ht
    obtain ⟨before, after, rfl⟩ := List.append_of_mem hc
    obtain ⟨b, hb⟩ := truncated_breaks_map lan before after ht
    apply hb (h _ (List.rel_append (SameHistory.refl before) (.cons _ (SameHistory.refl after))))
    exact ⟨sameReceived_withThirdByte ht.2 b, rfl⟩
  · intro h cs' hs
    apply mapIsExact_of_full lan
    intro c' hc' ht
    obtain ⟨c, hc, htc⟩ := hs.truncated hc' ht
    exact h c hc htc

def shortReport : VcCecMessage where
  length := 2
  initiator := .eDVD1
  follower := cecBroadcastAddr
  payload := fun i => [opcodeReportPhysicalAddress, 0x20, 0xAB].getD i 0

theorem short_report_breaks_map :
    (callbacks.run (boot (Lan.bootState [])) [(shortReport, unreachable)]).addressMap .eDVD1 =
        some (some ⟨0x20, 0xAB⟩) ∧
      lastReport .eDVD1 [shortReport] = none ∧
      ¬ MapIsExact (Lan.bootState []) [(shortReport, unreachable)] := by
  refine ⟨rfl, rfl, fun h => ?_⟩
  have hentry := (h [] _ [] rfl).1 .eDVD1
  exact absurd hentry (by decide)

end CecFix.AddressReports
