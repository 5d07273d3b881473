import CecFix.Daemon
import Mathlib.Logic.Function.Iterate

/-!
# Reports and activations, one step at a time

`handleReportPhysicalAddress` on the CEC thread and `setStreamPathToPlayback1` in the
`SIGIO` handler share `addressMap`, `want_set_stream_path` and the arrays that the map
points to. The atomic steps are each lookup, erasure and insertion (`operator[]`
inserts a null pointer that is then overwritten), each `new`, `delete` and byte read
of an array, each access to the marker and each transmission. The two bytes of a new
array are written in the step of its `new`: nobody else has the pointer yet.

Arrays are numbered as they are made and no number is used twice, so that a deleted
array is not mistaken for a new one at the same place. Run alone, the steps do what
`CecFix.Daemon` says.
-/

namespace CecFix.AddressSteps
open Cec

inductive Happening where
  | began
  | transmitted (c : CecCall)
  | staleRead (array : ℕ)

structure Shared where
  addressMap : CecAllDevices → Option (Option ℕ)
  wantSetStreamPath : Bool
  made : ℕ
  live : ℕ → Bool
  array : ℕ → PhysicalAddress
  log : List Happening

def Shared.boot : Shared :=
  ⟨fun _ => none, false, 0, fun _ => false, fun _ => ⟨0, 0⟩, []⟩

def Shared.note (s : Shared) (h : Happening) : Shared := { s with log := s.log ++ [h] }

def Shared.enter (s : Shared) (d : CecAllDevices) (entry : Option (Option ℕ)) : Shared :=
  { s with addressMap := Function.update s.addressMap d entry }

def Shared.free (s : Shared) (p : ℕ) : Shared := { s with live := Function.update s.live p false }

/-- `new uint8_t[2]` and its two bytes; the array is number `s.made`. -/
def Shared.make (s : Shared) (a : PhysicalAddress) : Shared :=
  { s with
    made := s.made + 1
    live := Function.update s.live s.made true
    array := Function.update s.array s.made a }

/-- Reading a byte of an array that was deleted is logged; what it gives is as before. -/
def Shared.read (s : Shared) (p : ℕ) : Shared := if s.live p then s else s.note (.staleRead p)

inductive PathPc where
  | logByte0 (p : ℕ)
  | logByte1 (p : ℕ)
  | readByte0 (p : ℕ)
  | readByte1 (p : ℕ) (byte0 : UInt8)
  | transmit (byte0 byte1 : UInt8)
  deriving DecidableEq

def streamPathCall (byte0 byte1 : UInt8) : CecCall :=
  .sendMessage cecBroadcastAddr [opcodeSetStreamPath, byte0, byte1] false

def setStreamPathStep : Shared × PathPc → Shared × Option PathPc
  | (s, .logByte0 p) => (s.read p, some (.logByte1 p))
  | (s, .logByte1 p) => (s.read p, some (.readByte0 p))
  | (s, .readByte0 p) => (s.read p, some (.readByte1 p (s.array p).byte0))
  | (s, .readByte1 p byte0) => (s.read p, some (.transmit byte0 (s.array p).byte1))
  | (s, .transmit byte0 byte1) => (s.note (.transmitted (streamPathCall byte0 byte1)), none)

def PathPc.reading : PathPc → Option ℕ
  | .logByte0 p | .logByte1 p | .readByte0 p | .readByte1 p _ => some p
  | .transmit _ _ => none

inductive HandlerPc where
  | lookup
  | erase (existing : Option ℕ)
  | delete (existing : Option ℕ)
  | allocate
  | insertNull (p : ℕ)
  | store (p : ℕ)
  | logByte0 (p : ℕ)
  | logByte1 (p : ℕ)
  | testWant (p : ℕ)
  | path (pc : PathPc)
  | clearWant
  | done

def handlerStep (m : VcCecMessage) : Shared × HandlerPc → Shared × HandlerPc
  | (s, .lookup) =>
    match s.addressMap m.initiator with
    | none => (s, .allocate)
    | some existing => (s, .erase existing)
  | (s, .erase existing) => (s.enter m.initiator none, .delete existing)
  | (s, .delete none) => (s, .allocate)
  | (s, .delete (some p)) => (s.free p, .allocate)
  | (s, .allocate) => (s.make (reportedAddress m), .insertNull s.made)
  | (s, .insertNull p) =>
    match s.addressMap m.initiator with
    | none => (s.enter m.initiator (some none), .store p)
    | some _ => (s, .store p)
  | (s, .store p) => (s.enter m.initiator (some (some p)), .logByte0 p)
  | (s, .logByte0 p) => (s.read p, .logByte1 p)
  | (s, .logByte1 p) => (s.read p, .testWant p)
  | (s, .testWant p) => (s, if s.wantSetStreamPath then .path (.logByte0 p) else .done)
  | (s, .path pc) =>
    match setStreamPathStep (s, pc) with
    | (s', none) => (s', .clearWant)
    | (s', some pc') => (s', .path pc')
  | (s, .clearWant) => ({ s with wantSetStreamPath := false }, .done)
  | (s, .done) => (s, .done)

inductive PlaybackPc where
  | lookup
  | path (pc : PathPc)
  | setWant
  | ask
  | done
  deriving DecidableEq

def playbackStep : Shared × PlaybackPc → Shared × PlaybackPc
  | (s, .lookup) =>
    (s.note .began,
      match s.addressMap .eDVD1 with
      | none => .setWant
      | some none => .done
      | some (some p) => .path (.logByte0 p))
  | (s, .path pc) =>
    match setStreamPathStep (s, pc) with
    | (s', none) => (s', .done)
    | (s', some pc') => (s', .path pc')
  | (s, .setWant) => ({ s with wantSetStreamPath := true }, .ask)
  | (s, .ask) =>
    (s.note (.transmitted (.sendMessage .eDVD1 [opcodeGivePhysicalAddress] false)), .done)
  | (s, .done) => (s, .done)

@[simp] theorem note_addressMap (s : Shared) (h : Happening) :
    (s.note h).addressMap = s.addressMap := rfl
@[simp] theorem note_live (s : Shared) (h : Happening) : (s.note h).live = s.live := rfl
@[simp] theorem note_made (s : Shared) (h : Happening) : (s.note h).made = s.made := rfl
@[simp] theorem note_array (s : Shared) (h : Happening) : (s.note h).array = s.array := rfl
@[simp] theorem note_want (s : Shared) (h : Happening) :
    (s.note h).wantSetStreamPath = s.wantSetStreamPath := rfl
@[simp] theorem note_log (s : Shared) (h : Happening) : (s.note h).log = s.log ++ [h] := rfl

@[simp] theorem enter_live (s : Shared) (d : CecAllDevices) (e : Option (Option ℕ)) :
    (s.enter d e).live = s.live := rfl
@[simp] theorem enter_made (s : Shared) (d : CecAllDevices) (e : Option (Option ℕ)) :
    (s.enter d e).made = s.made := rfl
@[simp] theorem enter_want (s : Shared) (d : CecAllDevices) (e : Option (Option ℕ)) :
    (s.enter d e).wantSetStreamPath = s.wantSetStreamPath := rfl
@[simp] theorem enter_log (s : Shared) (d : CecAllDevices) (e : Option (Option ℕ)) :
    (s.enter d e).log = s.log := rfl
@[simp] theorem enter_self (s : Shared) (d : CecAllDevices) (e : Option (Option ℕ)) :
    (s.enter d e).addressMap d = e := Function.update_self ..

theorem enter_other (s : Shared) {d d' : CecAllDevices} (h : d' ≠ d) (e : Option (Option ℕ)) :
    (s.enter d e).addressMap d' = s.addressMap d' := Function.update_of_ne h ..

@[simp] theorem free_self (s : Shared) (p : ℕ) : (s.free p).live p = false :=
  Function.update_self ..

theorem free_other (s : Shared) {p q : ℕ} (h : q ≠ p) : (s.free p).live q = s.live q :=
  Function.update_of_ne h ..

@[simp] theorem make_self (s : Shared) (a : PhysicalAddress) : (s.make a).live s.made = true :=
  Function.update_self ..

theorem make_other (s : Shared) {a : PhysicalAddress} {p : ℕ} (h : p ≠ s.made) :
    (s.make a).live p = s.live p :=
  Function.update_of_ne h ..

theorem read_live {s : Shared} {p : ℕ} (h : s.live p = true) : s.read p = s := if_pos h

theorem read_stale {s : Shared} {p : ℕ} (h : s.live p = false) :
    s.read p = s.note (.staleRead p) := if_neg (by simp [h])

structure Logs (s s' : Shared) : Prop where
  addressMap : s'.addressMap = s.addressMap
  want : s'.wantSetStreamPath = s.wantSetStreamPath
  made : s'.made = s.made
  live : s'.live = s.live

theorem Logs.refl (s : Shared) : Logs s s := ⟨rfl, rfl, rfl, rfl⟩

theorem logs_note (s : Shared) (h : Happening) : Logs s (s.note h) := ⟨rfl, rfl, rfl, rfl⟩

theorem logs_read (s : Shared) (p : ℕ) : Logs s (s.read p) := by
  rw [Shared.read]
  split_ifs
  · exact .refl s
  · exact logs_note s _

theorem read_entry {s : Shared} {d : CecAllDevices} {p : ℕ} (h : s.addressMap d = some (some p)) :
    (s.read p).addressMap d = some (some p) := by
  rw [(logs_read s p).addressMap, h]

theorem path_cases (s : Shared) (pc : PathPc) :
    (∃ p pc', pc.reading = some p ∧ setStreamPathStep (s, pc) = (s.read p, some pc') ∧
        ∀ q, pc'.reading = some q → q = p) ∨
      (pc.reading = none ∧ ∃ byte0 byte1, setStreamPathStep (s, pc) =
        (s.note (.transmitted (streamPathCall byte0 byte1)), none)) := by
  cases pc with
  | transmit byte0 byte1 => exact Or.inr ⟨rfl, byte0, byte1, rfl⟩
  | readByte1 p byte0 => exact Or.inl ⟨p, _, rfl, rfl, fun q hq => nomatch hq⟩
  | _ => exact Or.inl ⟨_, _, rfl, rfl, fun q hq => (Option.some.inj hq).symm⟩

theorem handlerStep_path (m : VcCecMessage) (s : Shared) (pc : PathPc) :
    (∃ p pc', pc.reading = some p ∧ handlerStep m (s, .path pc) = (s.read p, .path pc') ∧
        ∀ q, pc'.reading = some q → q = p) ∨
      (pc.reading = none ∧ ∃ byte0 byte1, handlerStep m (s, .path pc) =
        (s.note (.transmitted (streamPathCall byte0 byte1)), .clearWant)) := by
  rcases path_cases s pc with ⟨p, pc', hp, hstep, hnext⟩ | ⟨hp, byte0, byte1, hstep⟩
  · exact Or.inl ⟨p, pc', hp, by simp only [handlerStep, hstep], hnext⟩
  · exact Or.inr ⟨hp, byte0, byte1, by simp only [handlerStep, hstep]⟩

theorem playbackStep_path (s : Shared) (pc : PathPc) :
    (∃ p pc', pc.reading = some p ∧ playbackStep (s, .path pc) = (s.read p, .path pc') ∧
        ∀ q, pc'.reading = some q → q = p) ∨
      (pc.reading = none ∧ ∃ byte0 byte1, playbackStep (s, .path pc) =
        (s.note (.transmitted (streamPathCall byte0 byte1)), .done)) := by
  rcases path_cases s pc with ⟨p, pc', hp, hstep, hnext⟩ | ⟨hp, byte0, byte1, hstep⟩
  · exact Or.inl ⟨p, pc', hp, by simp only [playbackStep, hstep], hnext⟩
  · exact Or.inr ⟨hp, byte0, byte1, by simp only [playbackStep, hstep]⟩

def Unlisted (s : Shared) (p : ℕ) : Prop := ∀ d, s.addressMap d ≠ some (some p)

def Own (m : VcCecMessage) (s : Shared) : HandlerPc → Prop
  | .lookup | .done => True
  | .erase existing => s.addressMap m.initiator = some existing
  | .delete existing => s.addressMap m.initiator = none ∧
      ∀ p, existing = some p → s.live p = true ∧ Unlisted s p
  | .allocate => s.addressMap m.initiator = none
  | .insertNull p => s.addressMap m.initiator = none ∧ s.live p = true ∧ Unlisted s p
  | .store p => s.addressMap m.initiator = some none ∧ s.live p = true ∧ Unlisted s p
  | .logByte0 p | .logByte1 p | .testWant p => s.addressMap m.initiator = some (some p)
  | .path pc => ∃ p, s.addressMap m.initiator = some (some p) ∧ ∀ q, pc.reading = some q → q = p
  | .clearWant => ∃ p, s.addressMap m.initiator = some (some p)

structure Tidy (m : VcCecMessage) (s : Shared) (pc : HandlerPc) : Prop where
  live : ∀ d p, s.addressMap d = some (some p) → s.live p = true
  distinct : ∀ d e p, s.addressMap d = some (some p) → s.addressMap e = some (some p) → d = e
  unmade : ∀ p, s.made ≤ p → s.live p = false
  null : ∀ d, s.addressMap d = some none → ∃ p, pc = .store p ∧ d = m.initiator
  own : Own m s pc

theorem Tidy.lt_made {m : VcCecMessage} {s : Shared} {pc : HandlerPc} (h : Tidy m s pc) {p : ℕ}
    (hp : s.live p = true) : p < s.made := by
  by_contra hge
  rw [h.unmade p (not_lt.mp hge)] at hp
  cases hp

theorem Tidy.not_null {m : VcCecMessage} {s : Shared} {pc : HandlerPc} (h : Tidy m s pc)
    (hpc : ∀ p, pc ≠ .store p) (d : CecAllDevices) : s.addressMap d ≠ some none := by
  intro hd
  obtain ⟨p, hp, -⟩ := h.null d hd
  exact hpc p hp

theorem tidy_boot (m : VcCecMessage) : Tidy m .boot .done where
  live _ _ h := nomatch h
  distinct _ _ _ h := nomatch h
  unmade _ _ := rfl
  null _ h := nomatch h
  own := trivial

theorem Tidy.logs {m : VcCecMessage} {s s' : Shared} {pc pc' : HandlerPc} (h : Tidy m s pc)
    (hs : Logs s s') (hpc : ∀ p, pc ≠ .store p) (hown : Own m s' pc') : Tidy m s' pc' where
  live := by rw [hs.addressMap, hs.live]; exact h.live
  distinct := by rw [hs.addressMap]; exact h.distinct
  unmade := by rw [hs.made, hs.live]; exact h.unmade
  null d hd := absurd (hs.addressMap ▸ hd) (h.not_null hpc d)
  own := hown

theorem Tidy.want {m : VcCecMessage} {s : Shared} {pc : HandlerPc} (h : Tidy m s pc) (w : Bool) :
    Tidy m { s with wantSetStreamPath := w } pc where
  live := h.live
  distinct := h.distinct
  unmade := h.unmade
  null := h.null
  own := by cases pc <;> exact h.own

theorem Tidy.of_logs {m : VcCecMessage} {s s' : Shared} {pc : HandlerPc} (h : Tidy m s pc)
    (hs : Logs s s') : Tidy m s' pc where
  live := by rw [hs.addressMap, hs.live]; exact h.live
  distinct := by rw [hs.addressMap]; exact h.distinct
  unmade := by rw [hs.made, hs.live]; exact h.unmade
  null := by rw [hs.addressMap]; exact h.null
  own := by
    have hown := h.own
    cases pc <;> simp only [Own, Unlisted, hs.addressMap, hs.live] at hown ⊢ <;> exact hown

theorem tidy_erase {m : VcCecMessage} {s : Shared} {existing : Option ℕ}
    (h : Tidy m s (.erase existing)) :
    Tidy m (s.enter m.initiator none) (.delete existing) := by
  have hmap : ∀ d p, (s.enter m.initiator none).addressMap d = some p →
      d ≠ m.initiator ∧ s.addressMap d = some p := by
    intro d p hd
    by_cases hdm : d = m.initiator
    · subst hdm
      rw [enter_self] at hd
      cases hd
    · rw [enter_other s hdm] at hd
      exact ⟨hdm, hd⟩
  exact
    { live := fun d p hd => h.live d p (hmap d _ hd).2
      distinct := fun d e p hd he => h.distinct d e p (hmap d _ hd).2 (hmap e _ he).2
      unmade := h.unmade
      null := fun d hd => absurd (hmap d _ hd).2 (h.not_null (fun _ => nofun) d)
      own := by
        refine ⟨enter_self .., fun p hp => ?_⟩
        subst hp
        refine ⟨h.live _ p h.own, fun d hd => ?_⟩
        exact (hmap d _ hd).1 (h.distinct d _ p (hmap d _ hd).2 h.own) }

theorem tidy_delete {m : VcCecMessage} {s : Shared} {p : ℕ} (h : Tidy m s (.delete (some p))) :
    Tidy m (s.free p) .allocate where
  live d q hd := by
    have hq : q ≠ p := by
      intro hq
      subst hq
      exact (h.own.2 q rfl).2 d hd
    rw [free_other s hq]
    exact h.live d q hd
  distinct := h.distinct
  unmade q hq := by
    by_cases hqp : q = p
    · subst hqp
      exact free_self s q
    · rw [free_other s hqp]
      exact h.unmade q hq
  null d hd := absurd hd (h.not_null (fun _ => nofun) d)
  own := h.own.1

theorem tidy_allocate {m : VcCecMessage} {s : Shared} (h : Tidy m s .allocate) :
    Tidy m (s.make (reportedAddress m)) (.insertNull s.made) where
  live d p hd := by
    have hp := h.live d p hd
    rw [make_other s (h.lt_made hp).ne]
    exact hp
  distinct := h.distinct
  unmade p hp := by
    have hlt : s.made < p := hp
    rw [make_other s hlt.ne']
    exact h.unmade p hlt.le
  null d hd := absurd hd (h.not_null (fun _ => nofun) d)
  own := by
    refine ⟨h.own, make_self s _, fun d hd => ?_⟩
    exact absurd (h.lt_made (h.live d s.made hd)) (Nat.lt_irrefl _)

theorem tidy_insertNull {m : VcCecMessage} {s : Shared} {p : ℕ} (h : Tidy m s (.insertNull p)) :
    Tidy m (s.enter m.initiator (some none)) (.store p) := by
  have hmap : ∀ d q, (s.enter m.initiator (some none)).addressMap d = some (some q) →
      s.addressMap d = some (some q) := by
    intro d q hd
    by_cases hdm : d = m.initiator
    · subst hdm
      rw [enter_self] at hd
      cases hd
    · rwa [enter_other s hdm] at hd
  exact
    { live := fun d q hd => h.live d q (hmap d q hd)
      distinct := fun d e q hd he => h.distinct d e q (hmap d q hd) (hmap e q he)
      unmade := h.unmade
      null := fun d hd => by
        refine ⟨p, rfl, ?_⟩
        by_contra hdm
        rw [enter_other s hdm] at hd
        exact h.not_null (fun _ => nofun) d hd
      own := ⟨enter_self .., h.own.2.1, fun d hd => h.own.2.2 d (hmap d p hd)⟩ }

theorem tidy_store {m : VcCecMessage} {s : Shared} {p : ℕ} (h : Tidy m s (.store p)) :
    Tidy m (s.enter m.initiator (some (some p))) (.logByte0 p) := by
  have hmap : ∀ d q, (s.enter m.initiator (some (some p))).addressMap d = some (some q) →
      (d = m.initiator ∧ q = p) ∨ (q ≠ p ∧ s.addressMap d = some (some q)) := by
    intro d q hd
    by_cases hdm : d = m.initiator
    · subst hdm
      rw [enter_self] at hd
      exact Or.inl ⟨rfl, (Option.some.inj (Option.some.inj hd)).symm⟩
    · rw [enter_other s hdm] at hd
      refine Or.inr ⟨fun hq => ?_, hd⟩
      subst hq
      exact h.own.2.2 d hd
  exact
    { live := fun d q hd => by
        rcases hmap d q hd with ⟨-, rfl⟩ | ⟨-, hd⟩
        · exact h.own.2.1
        · exact h.live d q hd
      distinct := fun d e q hd he => by
        rcases hmap d q hd with ⟨rfl, rfl⟩ | ⟨hq, hd⟩
        · rcases hmap e q he with ⟨rfl, -⟩ | ⟨hq, -⟩
          · rfl
          · exact absurd rfl hq
        · rcases hmap e q he with ⟨-, rfl⟩ | ⟨-, he⟩
          · exact absurd rfl hq
          · exact h.distinct d e q hd he
      unmade := h.unmade
      null := fun d hd => by
        by_cases hdm : d = m.initiator
        · subst hdm
          rw [enter_self] at hd
          cases hd
        · rw [enter_other s hdm] at hd
          obtain ⟨q, -, hdq⟩ := h.null d hd
          exact absurd hdq hdm
      own := enter_self .. }

theorem tidy_handler {m : VcCecMessage} {s : Shared} {pc : HandlerPc} (h : Tidy m s pc) :
    Tidy m (handlerStep m (s, pc)).1 (handlerStep m (s, pc)).2 := by
  cases pc with
  | lookup =>
    simp only [handlerStep]
    cases hmap : s.addressMap m.initiator with
    | none => exact h.logs (.refl s) (fun _ => nofun) hmap
    | some existing => exact h.logs (.refl s) (fun _ => nofun) hmap
  | erase existing => exact tidy_erase h
  | delete existing =>
    cases existing with
    | none => exact h.logs (.refl s) (fun _ => nofun) h.own.1
    | some p => exact tidy_delete h
  | allocate => exact tidy_allocate h
  | insertNull p =>
    simp only [handlerStep, h.own.1]
    exact tidy_insertNull h
  | store p => exact tidy_store h
  | logByte0 p => exact h.logs (logs_read s p) (fun _ => nofun) (read_entry h.own)
  | logByte1 p => exact h.logs (logs_read s p) (fun _ => nofun) (read_entry h.own)
  | testWant p =>
    simp only [handlerStep]
    apply h.logs (.refl s) (fun _ => nofun)
    split_ifs
    · exact ⟨p, h.own, fun q hq => (Option.some.inj hq).symm⟩
    · trivial
  | path pc =>
    obtain ⟨p, hmap, hreading⟩ := h.own
    rcases handlerStep_path m s pc with ⟨q, pc', hq, hstep, hnext⟩ | ⟨-, byte0, byte1, hstep⟩
    · have hs := logs_read s q
      rw [hstep]
      apply h.logs hs (fun _ => nofun)
      refine ⟨p, by rw [hs.addressMap, hmap], fun r hr => ?_⟩
      rw [hnext r hr, hreading q hq]
    · rw [hstep]
      exact h.logs (logs_note s _) (fun _ => nofun) ⟨p, hmap⟩
  | clearWant =>
    have hdone : Tidy m s .done := h.logs (.refl s) (fun _ => nofun) trivial
    exact hdone.want false
  | done => exact h

theorem tidy_playback {m : VcCecMessage} {s : Shared} {pc : HandlerPc} (h : Tidy m s pc)
    (q : PlaybackPc) : Tidy m (playbackStep (s, q)).1 pc := by
  cases q with
  | lookup => exact h.of_logs (logs_note s _)
  | path q =>
    rcases playbackStep_path s q with ⟨p, q', -, hstep, -⟩ | ⟨-, byte0, byte1, hstep⟩
    · rw [hstep]
      exact h.of_logs (logs_read s p)
    · rw [hstep]
      exact h.of_logs (logs_note s _)
  | setWant => exact h.want true
  | ask => exact h.of_logs (logs_note s _)
  | done => exact h

/-! ### States that come about -/

/-- Two threads that begin a new call whenever they are through with one: the CEC
thread handles reports, the signal handler activations. -/
inductive Reachable : Shared → VcCecMessage → HandlerPc → PlaybackPc → Prop where
  | boot (m : VcCecMessage) : Reachable .boot m .done .done
  | report {s : Shared} {m : VcCecMessage} {q : PlaybackPc} (m' : VcCecMessage)
      (hm : isReportPhysicalAddress m' = true) :
      Reachable s m .done q → Reachable s m' .lookup q
  | activate {s : Shared} {m : VcCecMessage} {pc : HandlerPc} :
      Reachable s m pc .done → Reachable s m pc .lookup
  | handler {s : Shared} {m : VcCecMessage} {pc : HandlerPc} {q : PlaybackPc} :
      Reachable s m pc q →
        Reachable (handlerStep m (s, pc)).1 m (handlerStep m (s, pc)).2 q
  | playback {s : Shared} {m : VcCecMessage} {pc : HandlerPc} {q : PlaybackPc} :
      Reachable s m pc q → Reachable (playbackStep (s, q)).1 m pc (playbackStep (s, q)).2

theorem Tidy.idle {m : VcCecMessage} {s : Shared} (h : Tidy m s .done) (m' : VcCecMessage) :
    Tidy m' s .lookup where
  live := h.live
  distinct := h.distinct
  unmade := h.unmade
  null d hd := absurd hd (h.not_null (fun _ => nofun) d)
  own := trivial

theorem Reachable.tidy {s : Shared} {m : VcCecMessage} {pc : HandlerPc} {q : PlaybackPc}
    (h : Reachable s m pc q) : Tidy m s pc := by
  induction h with
  | boot m => exact tidy_boot m
  | report m' hm prior ih => exact ih.idle m'
  | activate prior ih => exact ih
  | handler prior ih => exact tidy_handler ih
  | playback prior ih => exact tidy_playback ih _

theorem Reachable.handler_iterate {m : VcCecMessage} {q : PlaybackPc} (n : ℕ)
    {s : Shared} {pc : HandlerPc} (h : Reachable s m pc q) :
    Reachable ((handlerStep m)^[n] (s, pc)).1 m ((handlerStep m)^[n] (s, pc)).2 q := by
  induction n generalizing s pc with
  | zero => exact h
  | succ n ih => exact ih h.handler

/-! ### Each alone -/

def Shared.view (s : Shared) (lan : Lan.LanState) : Daemon where
  addressMap d := (s.addressMap d).map (Option.map s.array)
  wantSetStreamPath := s.wantSetStreamPath
  lan := lan

def happenings (es : List Effect) : List Happening := (es.filterMap cecCall?).map .transmitted

def Shared.reported (s : Shared) (m : VcCecMessage) : Shared :=
  ((s.make (reportedAddress m)).enter m.initiator (some none)).enter m.initiator
    (some (some s.made))

def Shared.erased (s : Shared) (d : CecAllDevices) (p : ℕ) : Shared := (s.enter d none).free p

@[simp] theorem erased_self (s : Shared) (d : CecAllDevices) (p : ℕ) :
    (s.erased d p).addressMap d = none := enter_self ..

theorem erased_other (s : Shared) {d d' : CecAllDevices} (h : d' ≠ d) (p : ℕ) :
    (s.erased d p).addressMap d' = s.addressMap d' := enter_other s h none

def Shared.answered (s : Shared) (a : PhysicalAddress) : Shared :=
  { s with
    wantSetStreamPath := false
    log := s.log ++ if s.wantSetStreamPath then happenings (setStreamPath a) else [] }

section Alone
variable {m : VcCecMessage} {s : Shared}

theorem allocate_alone (h : s.addressMap m.initiator = none) :
    (handlerStep m)^[5] (s, .allocate) = (s.reported m, .testWant s.made) := by
  have hmake : (s.make (reportedAddress m)).addressMap m.initiator = none := h
  have hlive : (s.reported m).live s.made = true := make_self s (reportedAddress m)
  simp only [Function.iterate_succ_apply, Function.iterate_zero, id, handlerStep, hmake]
  show ((s.reported m).read s.made |>.read s.made, _) = _
  rw [read_live hlive, read_live hlive]

theorem testWant_alone {p : ℕ} (h : s.live p = true) :
    ∃ n, (handlerStep m)^[n] (s, .testWant p) = (s.answered (s.array p), .done) := by
  cases hwant : s.wantSetStreamPath with
  | false =>
    refine ⟨1, ?_⟩
    obtain ⟨map, want, made, live, array, log⟩ := s
    obtain rfl : want = false := hwant
    simp [handlerStep, Shared.answered]
  | true =>
    refine ⟨7, ?_⟩
    simp [handlerStep, setStreamPathStep, hwant, read_live h, Shared.note, Shared.answered,
      streamPathCall, happenings, setStreamPath, cecCall?]

theorem reported_view (h : ∀ d p, s.addressMap d = some (some p) → p < s.made)
    (lan : Lan.LanState) :
    ((s.reported m).view lan).addressMap =
      Function.update (s.view lan).addressMap m.initiator (some (some (reportedAddress m))) := by
  funext d
  by_cases hd : d = m.initiator
  · subst hd
    simp [Shared.view, Shared.reported, Shared.enter, Shared.make]
  · have hmap : (s.reported m).addressMap d = s.addressMap d := by
      rw [Shared.reported, enter_other _ hd, enter_other _ hd]
      rfl
    rw [Function.update_of_ne hd]
    simp only [Shared.view, hmap]
    cases hentry : s.addressMap d with
    | none => rfl
    | some q =>
      cases q with
      | none => rfl
      | some p =>
        have hne : p ≠ s.made := (h d p hentry).ne
        simp [Shared.reported, Shared.enter, Shared.make, Function.update_of_ne hne]

theorem replace_alone (h : s.addressMap m.initiator = none)
    (hmade : ∀ d p, s.addressMap d = some (some p) → p < s.made) (lan : Lan.LanState) :
    ∃ n s', (handlerStep m)^[n] (s, .allocate) = (s', .done) ∧
      s'.view lan = (handleReportPhysicalAddress m (s.view lan)).state ∧
      s'.log = s.log ++ happenings (handleReportPhysicalAddress m (s.view lan)).effects := by
  have hlive : (s.reported m).live s.made = true := make_self s (reportedAddress m)
  have harray : (s.reported m).array s.made = reportedAddress m := by
    simp [Shared.reported, Shared.enter, Shared.make]
  obtain ⟨n, hn⟩ := testWant_alone (m := m) hlive
  rw [harray] at hn
  refine ⟨n + 5, (s.reported m).answered (reportedAddress m), ?_, ?_, ?_⟩
  · rw [Function.iterate_add_apply, allocate_alone h, hn]
  · rw [handleReport_state, ← reported_view hmade lan]
    rfl
  · rw [handleReport_effects]
    show s.log ++ _ = s.log ++ _
    have hwant : (s.reported m).wantSetStreamPath = (s.view lan).wantSetStreamPath := rfl
    rw [hwant]
    cases (s.view lan).wantSetStreamPath <;> rfl

theorem erased_view (d : CecAllDevices) (p : ℕ) (lan : Lan.LanState) :
    ((s.erased d p).view lan).addressMap = Function.update (s.view lan).addressMap d none := by
  funext d'
  by_cases hd : d' = d
  · subst hd
    simp [Shared.view]
  · rw [Function.update_of_ne hd]
    simp only [Shared.view, erased_other s hd p]
    rfl

theorem erased_made (h : ∀ d p, s.addressMap d = some (some p) → p < s.made) (d : CecAllDevices)
    (p : ℕ) : ∀ d' q, (s.erased d p).addressMap d' = some (some q) → q < (s.erased d p).made := by
  intro d' q hq
  by_cases hd : d' = d
  · rw [hd, erased_self] at hq
    cases hq
  · rw [erased_other s hd p] at hq
    exact h d' q hq

/-- Run without a step of the other call in between, the steps are
`handleReportPhysicalAddress`. -/
theorem report_alone (h : Tidy m s .lookup) (lan : Lan.LanState) :
    ∃ n s', (handlerStep m)^[n] (s, .lookup) = (s', .done) ∧
      s'.view lan = (handleReportPhysicalAddress m (s.view lan)).state ∧
      s'.log = s.log ++ happenings (handleReportPhysicalAddress m (s.view lan)).effects := by
  have hmade : ∀ d p, s.addressMap d = some (some p) → p < s.made :=
    fun d p hd => h.lt_made (h.live d p hd)
  cases hmap : s.addressMap m.initiator with
  | none =>
    obtain ⟨n, s', hn, hview, hlog⟩ := replace_alone hmap hmade lan
    refine ⟨n + 1, s', ?_, hview, hlog⟩
    rw [Function.iterate_succ_apply]
    simpa only [handlerStep, hmap] using hn
  | some entry =>
    obtain ⟨p, rfl⟩ : ∃ p, entry = some p := by
      cases entry with
      | none => exact absurd hmap (h.not_null (fun _ => nofun) _)
      | some p => exact ⟨p, rfl⟩
    obtain ⟨n, s', hn, hview, hlog⟩ := replace_alone (m := m) (erased_self s m.initiator p)
      (erased_made hmade m.initiator p) lan
    refine ⟨n + 3, s', ?_, ?_, ?_⟩
    · rw [Function.iterate_add_apply]
      simpa [handlerStep, hmap, Shared.erased] using hn
    · rw [hview, handleReport_state, handleReport_state, erased_view, Function.update_idem]
      rfl
    · rw [hlog, handleReport_effects, handleReport_effects]
      rfl

theorem playback_alone {pc : HandlerPc} (h : Tidy m s pc) (lan : Lan.LanState) :
    ∃ n s', playbackStep^[n] (s, .lookup) = (s', .done) ∧
      s'.view lan = (setStreamPathToPlayback1 (s.view lan)).state ∧
      s'.log = s.log ++ .began :: happenings (setStreamPathToPlayback1 (s.view lan)).effects := by
  cases hmap : s.addressMap .eDVD1 with
  | none =>
    refine ⟨3, { s.note .began with wantSetStreamPath := true }.note
      (.transmitted (.sendMessage .eDVD1 [opcodeGivePhysicalAddress] false)), ?_, ?_, ?_⟩
    · simp [playbackStep, hmap]
    · simp [setStreamPathToPlayback1, Shared.view, hmap, Shared.note]
    · simp [setStreamPathToPlayback1, Shared.view, hmap, happenings, getPhysicalAddress, cecCall?]
  | some entry =>
    cases entry with
    | none =>
      refine ⟨1, s.note .began, ?_, ?_, ?_⟩
      · simp [playbackStep, hmap]
      · simp [setStreamPathToPlayback1, Shared.view, hmap, Shared.note]
      · simp [setStreamPathToPlayback1, Shared.view, hmap, happenings]
    | some p =>
      have hlive : (s.note .began).live p = true := h.live _ p hmap
      refine ⟨6, (s.note .began).note (.transmitted
        (streamPathCall (s.array p).byte0 (s.array p).byte1)), ?_, ?_, ?_⟩
      · simp [playbackStep, setStreamPathStep, hmap, read_live hlive]
      · simp [setStreamPathToPlayback1, Shared.view, hmap, Shared.note]
      · simp [setStreamPathToPlayback1, Shared.view, hmap, streamPathCall, happenings,
          setStreamPath, cecCall?]

end Alone

end CecFix.AddressSteps
