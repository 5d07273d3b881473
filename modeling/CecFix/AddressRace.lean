import CecFix.AddressSteps
import CecFix.Interleaving
import CecFix.LogMarks

/-!
# A report of Playback 1 against an activation

The handler of the report deletes the old array and inserts a null pointer before the
new one; `setStreamPathToPlayback1` keeps the pointer it looked up through four byte
reads, and takes a null pointer for a reason to do nothing. Two orders of steps are
bad, and only these: the array is deleted while it is still to be read from, and the
null pointer is looked up while nobody has set the marker.
-/

namespace CecFix.AddressRace
open Cec AddressSteps

inductive Party where
  | report
  | activation
  deriving DecidableEq

def Local : Party → Type
  | .report => HandlerPc
  | .activation => PlaybackPc

abbrev Pair := Interleaving Shared Local

def step (m : VcCecMessage) : ∀ p, Shared × Local p → Shared × Local p
  | .report => handlerStep m
  | .activation => playbackStep

def race (m : VcCecMessage) : Transducer Pair Party Empty := Interleaving.machine (step m)

def start (s : Shared) : Pair where
  shared := { s with log := [] }
  locals
    | .report => HandlerPc.lookup
    | .activation => PlaybackPc.lookup

def handlerPc (s : Pair) : HandlerPc := s.locals .report
def playbackPc (s : Pair) : PlaybackPc := s.locals .activation

def Finished (s : Pair) : Prop := handlerPc s = .done ∧ playbackPc s = .done

def isBegan : Happening → Bool
  | .began => true
  | _ => false

def isStreamPath : Happening → Bool
  | .transmitted (.sendMessage _ (op :: _) _) => op == opcodeSetStreamPath
  | _ => false

/-- A SetStreamPath was transmitted after `setStreamPathToPlayback1` began. -/
def Answered (log : List Happening) : Prop :=
  ∃ x ∈ LogMarks.afterFirst isBegan log, isStreamPath x = true

structure Sound (s : Pair) : Prop where
  reads : ∀ p, .staleRead p ∉ s.shared.log
  settled : Finished s → Answered s.shared.log ∨ s.shared.wantSetStreamPath = true

def reading : PlaybackPc → Option ℕ
  | .path pc => pc.reading
  | _ => none

/-- An array that the activation is still to read from is not deleted, and a null
pointer is looked up only when the marker is set. -/
def Apart (s : Pair) : Party → Prop
  | .report => ∀ p, handlerPc s = .delete (some p) → reading (playbackPc s) ≠ some p
  | .activation => playbackPc s = .lookup → s.shared.addressMap .eDVD1 = some none →
      s.shared.wantSetStreamPath = true

def deleting : HandlerPc → Option ℕ
  | .delete existing => existing
  | _ => none

theorem mem_deleting {p : ℕ} {pc : HandlerPc} : p ∈ deleting pc ↔ pc = .delete (some p) := by
  cases pc <;> simp [deleting]

instance decidableApart (s : Pair) : ∀ p, Decidable (Apart s p)
  | .report =>
    decidable_of_iff (∀ p ∈ deleting (handlerPc s), reading (playbackPc s) ≠ some p)
      (forall_congr' fun _ => imp_congr_left mem_deleting)
  | .activation =>
    inferInstanceAs (Decidable (playbackPc s = .lookup →
      s.shared.addressMap .eDVD1 = some none → s.shared.wantSetStreamPath = true))

def Quiet : HandlerPc → Prop
  | .store _ | .logByte0 _ | .logByte1 _ | .testWant _ | .done => True
  | _ => False

def Stale (s : Shared) (q : PlaybackPc) : Prop :=
  (∃ p, .staleRead p ∈ s.log) ∨ ∃ p, reading q = some p ∧ s.live p = false

def Lost (s : Shared) (pc : HandlerPc) (q : PlaybackPc) : Prop :=
  q = .done ∧ ¬ Answered s.log ∧ s.wantSetStreamPath = false ∧ Quiet pc

def Broken (s : Pair) : Prop :=
  Stale s.shared (playbackPc s) ∨ Lost s.shared (handlerPc s) (playbackPc s)

def Kept (s : Shared) (pc : HandlerPc) : Prop :=
  (Answered s.log ∨ s.wantSetStreamPath = true) ∧ (pc = .clearWant → Answered s.log)

structure Racing (m : VcCecMessage) (s : Shared) (pc : HandlerPc) (q : PlaybackPc) : Prop where
  tidy : Tidy m s pc
  began : (q = .lookup ∧ ∀ x ∈ s.log, isBegan x = false) ∨
    (q ≠ .lookup ∧ ∃ x ∈ s.log, isBegan x = true)
  made : ∀ p, reading q = some p → p < s.made
  asking : q = .setWant → pc = .clearWant → Answered s.log
  asked : q = .ask ∨ q = .done → Kept s pc ∨ Lost s pc q

theorem began_note {log : List Happening} (h : ∃ x ∈ log, isBegan x = true) (y : Happening) :
    ∃ x ∈ log ++ [y], isBegan x = true := by
  obtain ⟨x, hx, hbegan⟩ := h
  exact ⟨x, List.mem_append_left _ hx, hbegan⟩

theorem answered_note {log : List Happening} (hbegan : ∃ x ∈ log, isBegan x = true)
    (h : Answered log) (x : Happening) : Answered (log ++ [x]) := by
  obtain ⟨y, hy, hpath⟩ := h
  refine ⟨y, ?_, hpath⟩
  rw [LogMarks.afterFirst_marked hbegan]
  exact List.mem_append_left _ hy

theorem answered_transmitted {log : List Happening} (hbegan : ∃ x ∈ log, isBegan x = true)
    (byte0 byte1 : UInt8) : Answered (log ++ [.transmitted (streamPathCall byte0 byte1)]) := by
  refine ⟨_, ?_, (rfl : isStreamPath (.transmitted (streamPathCall byte0 byte1)) = true)⟩
  rw [LogMarks.afterFirst_marked hbegan]
  exact List.mem_append_right _ (List.mem_singleton.mpr rfl)

theorem not_answered_began {log : List Happening} (h : ∀ x ∈ log, isBegan x = false) :
    ¬ Answered (log ++ [.began]) := by
  intro hans
  obtain ⟨x, hx, -⟩ := hans
  rw [LogMarks.afterFirst_unmarked h] at hx
  cases hx

theorem Kept.not_lost {s : Shared} {pc pc' : HandlerPc} {q : PlaybackPc} (h : Kept s pc) :
    ¬ Lost s pc' q := by
  intro hlost
  obtain ⟨-, hans, hwant, -⟩ := hlost
  rcases h.1 with h | h
  · exact hans h
  · rw [hwant] at h
    cases h

def clearing : HandlerPc → Bool
  | .clearWant => true
  | _ => false

structure Plain (s : Shared) (pc : HandlerPc) (n : Shared × HandlerPc) : Prop where
  log : n.1.log = s.log
  want : n.1.wantSetStreamPath = s.wantSetStreamPath
  made : s.made ≤ n.1.made
  live : ∀ p < s.made, n.1.live p = s.live p
  keeps : deleting pc = none
  after : clearing n.2 = false
  quiet : Quiet pc → s.wantSetStreamPath = false → Quiet n.2

theorem plain_same {s : Shared} {pc pc' : HandlerPc} (keeps : deleting pc = none)
    (after : clearing pc' = false)
    (quiet : Quiet pc → s.wantSetStreamPath = false → Quiet pc') : Plain s pc (s, pc') :=
  ⟨rfl, rfl, le_rfl, fun _ _ => rfl, keeps, after, quiet⟩

theorem Plain.ne_clearWant {s : Shared} {pc : HandlerPc} {n : Shared × HandlerPc}
    (h : Plain s pc n) : n.2 ≠ .clearWant := by
  intro hn
  have hafter := h.after
  rw [hn] at hafter
  cases hafter

theorem handler_plain {m : VcCecMessage} {s : Shared} {pc : HandlerPc} (h : Tidy m s pc)
    (hkeeps : deleting pc = none) (hclear : clearing pc = false) (hpath : ∀ q, pc ≠ .path q) :
    Plain s pc (handlerStep m (s, pc)) := by
  cases pc with
  | lookup =>
    simp only [handlerStep]
    cases s.addressMap m.initiator with
    | none => exact plain_same rfl rfl fun hq _ => hq.elim
    | some existing => exact plain_same rfl rfl fun hq _ => hq.elim
  | erase existing => exact ⟨rfl, rfl, le_rfl, fun _ _ => rfl, rfl, rfl, fun hq _ => hq.elim⟩
  | delete existing =>
    obtain rfl : existing = none := hkeeps
    exact plain_same rfl rfl fun hq _ => hq.elim
  | allocate =>
    refine ⟨rfl, rfl, Nat.le_succ _, fun p hp => ?_, rfl, rfl, fun hq _ => hq.elim⟩
    exact make_other s hp.ne
  | insertNull p =>
    simp only [handlerStep, h.own.1]
    exact ⟨rfl, rfl, le_rfl, fun _ _ => rfl, rfl, rfl, fun hq _ => hq.elim⟩
  | store p => exact ⟨rfl, rfl, le_rfl, fun _ _ => rfl, rfl, rfl, fun _ _ => trivial⟩
  | logByte0 p =>
    simp only [handlerStep, read_live (h.live _ p h.own)]
    exact plain_same rfl rfl fun _ _ => trivial
  | logByte1 p =>
    simp only [handlerStep, read_live (h.live _ p h.own)]
    exact plain_same rfl rfl fun _ _ => trivial
  | testWant p =>
    refine plain_same rfl ?_ fun _ hwant => ?_
    · split_ifs
      · rfl
      · rfl
    · rw [if_neg (by simp [hwant])]
      trivial
  | path q => exact absurd rfl (hpath q)
  | clearWant => cases hclear
  | done => exact plain_same rfl rfl fun hq _ => hq

theorem handler_cases {m : VcCecMessage} {s : Shared} {pc : HandlerPc} (h : Tidy m s pc) :
    (∃ p, pc = .delete (some p) ∧ handlerStep m (s, pc) = (s.free p, .allocate)) ∨
      (pc = .clearWant ∧
        handlerStep m (s, pc) = ({ s with wantSetStreamPath := false }, .done)) ∨
      ((∃ path, pc = .path path) ∧ ∃ byte0 byte1, handlerStep m (s, pc) =
        (s.note (.transmitted (streamPathCall byte0 byte1)), .clearWant)) ∨
      Plain s pc (handlerStep m (s, pc)) := by
  by_cases hpath : ∃ path, pc = .path path
  · obtain ⟨path, rfl⟩ := hpath
    obtain ⟨p, hmap, hown⟩ := h.own
    rcases handlerStep_path m s path with ⟨r, path', hr, hstep, -⟩ | ⟨-, byte0, byte1, hstep⟩
    · refine Or.inr (Or.inr (Or.inr ?_))
      rw [hstep, hown r hr, read_live (h.live _ p hmap)]
      exact plain_same rfl rfl fun hq _ => hq.elim
    · exact Or.inr (Or.inr (Or.inl ⟨⟨path, rfl⟩, byte0, byte1, hstep⟩))
  cases hdel : deleting pc with
  | some p =>
    obtain rfl := mem_deleting.mp hdel
    exact Or.inl ⟨p, rfl, rfl⟩
  | none =>
    by_cases hclear : pc = .clearWant
    · subst hclear
      exact Or.inr (Or.inl ⟨rfl, rfl⟩)
    · refine Or.inr (Or.inr (Or.inr (handler_plain h hdel ?_ fun q hq => hpath ⟨q, hq⟩)))
      cases pc with
      | clearWant => exact absurd rfl hclear
      | _ => rfl

theorem kept_handler {m : VcCecMessage} {s : Shared} {pc : HandlerPc} (ht : Tidy m s pc)
    (hbegan : ∃ x ∈ s.log, isBegan x = true) (h : Kept s pc) :
    Kept (handlerStep m (s, pc)).1 (handlerStep m (s, pc)).2 := by
  rcases handler_cases ht with ⟨p, rfl, hn⟩ | ⟨rfl, hn⟩ | ⟨-, byte0, byte1, hn⟩ | hplain
  · rw [hn]
    exact ⟨h.1, nofun⟩
  · rw [hn]
    exact ⟨Or.inl (h.2 rfl), nofun⟩
  · rw [hn]
    have hans := answered_transmitted hbegan byte0 byte1
    exact ⟨Or.inl hans, fun _ => hans⟩
  · refine ⟨?_, fun hpc => absurd hpc hplain.ne_clearWant⟩
    rw [hplain.log, hplain.want]
    exact h.1

theorem lost_handler {m : VcCecMessage} {s : Shared} {pc : HandlerPc} {q : PlaybackPc}
    (ht : Tidy m s pc) (h : Lost s pc q) :
    Lost (handlerStep m (s, pc)).1 (handlerStep m (s, pc)).2 q := by
  obtain ⟨hq, hans, hwant, hquiet⟩ := h
  rcases handler_cases ht with ⟨p, rfl, -⟩ | ⟨rfl, -⟩ | ⟨⟨path, rfl⟩, -⟩ | hplain
  · exact hquiet.elim
  · exact hquiet.elim
  · exact hquiet.elim
  · refine ⟨hq, ?_, ?_, hplain.quiet hquiet hwant⟩
    · rwa [hplain.log]
    · rwa [hplain.want]

theorem Racing.log_began {m : VcCecMessage} {s : Shared} {pc : HandlerPc} {q : PlaybackPc}
    (h : Racing m s pc q) (hq : q ≠ .lookup) : ∃ x ∈ s.log, isBegan x = true := by
  rcases h.began with ⟨hlookup, -⟩ | ⟨-, hbegan⟩
  · exact absurd hlookup hq
  · exact hbegan

theorem racing_handler {m : VcCecMessage} {s : Shared} {pc : HandlerPc} {q : PlaybackPc}
    (h : Racing m s pc q) :
    Racing m (handlerStep m (s, pc)).1 (handlerStep m (s, pc)).2 q := by
  have hasked : q = .ask ∨ q = .done → Kept (handlerStep m (s, pc)).1 (handlerStep m (s, pc)).2 ∨
      Lost (handlerStep m (s, pc)).1 (handlerStep m (s, pc)).2 q := by
    intro hq
    have hne : q ≠ .lookup := by rcases hq with rfl | rfl <;> exact nofun
    rcases h.asked hq with hkept | hlost
    · exact Or.inl (kept_handler h.tidy (h.log_began hne) hkept)
    · exact Or.inr (lost_handler h.tidy hlost)
  have htidy := tidy_handler h.tidy
  rcases handler_cases h.tidy with ⟨p, rfl, hn⟩ | ⟨rfl, hn⟩ | ⟨-, byte0, byte1, hn⟩ | hplain
  · rw [hn] at hasked htidy ⊢
    exact ⟨htidy, h.began, h.made, fun _ => nofun, hasked⟩
  · rw [hn] at hasked htidy ⊢
    exact ⟨htidy, h.began, h.made, fun _ => nofun, hasked⟩
  · rw [hn] at hasked htidy ⊢
    refine ⟨htidy, ?_, h.made, fun hq _ => ?_, hasked⟩
    · refine h.began.imp (fun hb => ⟨hb.1, fun x hx => ?_⟩)
        fun hb => ⟨hb.1, began_note hb.2 _⟩
      rcases List.mem_append.mp hx with hx | hx
      · exact hb.2 x hx
      · rw [List.mem_singleton.mp hx]
        rfl
    · exact answered_transmitted (h.log_began (by rw [hq]; nofun)) byte0 byte1
  · refine ⟨htidy, ?_, fun p hp => ?_, fun _ hpc => absurd hpc hplain.ne_clearWant, hasked⟩
    · rw [hplain.log]
      exact h.began
    · exact lt_of_lt_of_le (h.made p hp) hplain.made

theorem stale_handler {m : VcCecMessage} {s : Shared} {pc : HandlerPc} {q : PlaybackPc}
    (h : Racing m s pc q) : Stale (handlerStep m (s, pc)).1 q ↔
      Stale s q ∨ ∃ p, pc = .delete (some p) ∧ reading q = some p := by
  rcases handler_cases h.tidy with ⟨p, rfl, hn⟩ | ⟨rfl, hn⟩ | ⟨⟨path, rfl⟩, b0, b1, hn⟩ | hplain
  · rw [hn]
    constructor
    · rintro (hlog | ⟨r, hr, hdead⟩)
      · exact Or.inl (Or.inl hlog)
      · by_cases hrp : r = p
        · rw [hrp] at hr
          exact Or.inr ⟨p, rfl, hr⟩
        · rw [free_other s hrp] at hdead
          exact Or.inl (Or.inr ⟨r, hr, hdead⟩)
    · rintro ((hlog | ⟨r, hr, hdead⟩) | ⟨r, hpc, hr⟩)
      · exact Or.inl hlog
      · refine Or.inr ⟨r, hr, ?_⟩
        by_cases hrp : r = p
        · subst hrp
          exact free_self s r
        · rwa [free_other s hrp]
      · cases hpc
        exact Or.inr ⟨p, hr, free_self s p⟩
  · rw [hn]
    simp [Stale]
  · rw [hn]
    simp [Stale]
  · have hkeeps : ¬ ∃ p, pc = .delete (some p) ∧ reading q = some p := by
      rintro ⟨p, hp, -⟩
      have hmem := mem_deleting.mpr hp
      rw [hplain.keeps] at hmem
      cases hmem
    rw [or_iff_left hkeeps]
    refine or_congr (by rw [hplain.log]) (exists_congr fun p => and_congr_right fun hp => ?_)
    rw [hplain.live p (h.made p hp)]

theorem broken_handler {m : VcCecMessage} {s : Shared} {pc : HandlerPc} {q : PlaybackPc}
    (h : Racing m s pc q) :
    (Stale (handlerStep m (s, pc)).1 q ∨
        Lost (handlerStep m (s, pc)).1 (handlerStep m (s, pc)).2 q) ↔
      (Stale s q ∨ Lost s pc q) ∨ ∃ p, pc = .delete (some p) ∧ reading q = some p := by
  have hlost : Lost (handlerStep m (s, pc)).1 (handlerStep m (s, pc)).2 q ↔ Lost s pc q := by
    refine ⟨fun hn => ?_, lost_handler h.tidy⟩
    rcases h.asked (Or.inr hn.1) with hkept | hlost
    · have hbegan := h.log_began (by rw [hn.1]; nofun)
      exact absurd hn (kept_handler h.tidy hbegan hkept).not_lost
    · exact hlost
  rw [stale_handler h, hlost, or_right_comm]

theorem racing_path {m : VcCecMessage} {s : Shared} {pc : HandlerPc} {path : PathPc}
    (htidy : Tidy m s pc) (hbegan : ∃ x ∈ s.log, isBegan x = true)
    (hmade : ∀ p, path.reading = some p → p < s.made) : Racing m s pc (.path path) where
  tidy := htidy
  began := Or.inr ⟨by simp, hbegan⟩
  made := hmade
  asking hq := by cases hq
  asked hq := by rcases hq with hq | hq <;> cases hq

theorem racing_asked {m : VcCecMessage} {s : Shared} {pc : HandlerPc} {q : PlaybackPc}
    (hq : q = .ask ∨ q = .done) (htidy : Tidy m s pc) (hbegan : ∃ x ∈ s.log, isBegan x = true)
    (h : Kept s pc ∨ Lost s pc q) : Racing m s pc q where
  tidy := htidy
  began := by
    refine Or.inr ⟨?_, hbegan⟩
    rcases hq with rfl | rfl
    · simp
    · simp
  made p hp := by rcases hq with rfl | rfl <;> cases hp
  asking hset := by
    subst hset
    rcases hq with hq | hq <;> cases hq
  asked _ := h

theorem Racing.unmarked {m : VcCecMessage} {s : Shared} {pc : HandlerPc}
    (h : Racing m s pc .lookup) : ∀ x ∈ s.log, isBegan x = false := by
  rcases h.began with ⟨-, hunmarked⟩ | ⟨hne, -⟩
  · exact hunmarked
  · exact absurd rfl hne

theorem racing_lookup {m : VcCecMessage} (hm : m.initiator = .eDVD1) {s : Shared}
    {pc : HandlerPc} (h : Racing m s pc .lookup) :
    Racing m (playbackStep (s, .lookup)).1 pc (playbackStep (s, .lookup)).2 := by
  have htidy := tidy_playback h.tidy .lookup
  have hbegan : ∃ x ∈ (s.note .began).log, isBegan x = true :=
    ⟨.began, List.mem_append_right _ (List.mem_singleton.mpr rfl), rfl⟩
  simp only [playbackStep] at htidy ⊢
  cases hmap : s.addressMap .eDVD1 with
  | none =>
    exact
      { tidy := htidy
        began := Or.inr ⟨by simp, hbegan⟩
        made := fun p hp => by cases hp
        asking := fun _ hpc => by
          -- the handler clears the marker only after it has stored its array
          subst hpc
          obtain ⟨p, hp⟩ := h.tidy.own
          rw [hm, hmap] at hp
          cases hp
        asked := fun hq => by rcases hq with hq | hq <;> cases hq }
  | some entry =>
    cases entry with
    | none =>
      obtain ⟨p, rfl, -⟩ := h.tidy.null _ hmap
      apply racing_asked (Or.inr rfl) htidy hbegan
      cases hwant : s.wantSetStreamPath with
      | true => exact Or.inl ⟨Or.inr hwant, fun hpc => by cases hpc⟩
      | false => exact Or.inr ⟨rfl, not_answered_began h.unmarked, hwant, trivial⟩
    | some p =>
      apply racing_path htidy hbegan
      intro r hr
      cases hr
      exact h.tidy.lt_made (h.tidy.live _ p hmap)

theorem racing_pathStep {m : VcCecMessage} {s : Shared} {pc : HandlerPc} {path : PathPc}
    (h : Racing m s pc (.path path)) :
    Racing m (playbackStep (s, .path path)).1 pc (playbackStep (s, .path path)).2 := by
  have htidy := tidy_playback h.tidy (.path path)
  have hbegan := h.log_began (by simp)
  rcases playbackStep_path s path with ⟨p, path', hp, hn, hnext⟩ | ⟨-, byte0, byte1, hn⟩
  · rw [hn] at htidy ⊢
    apply racing_path htidy
    · cases hlive : s.live p with
      | true => rwa [read_live hlive]
      | false =>
        rw [read_stale hlive]
        exact began_note hbegan _
    · intro r hr
      rw [(logs_read s p).made, hnext r hr]
      exact h.made p hp
  · rw [hn] at htidy ⊢
    have hans := answered_transmitted hbegan byte0 byte1
    exact racing_asked (Or.inr rfl) htidy (began_note hbegan _)
      (Or.inl ⟨Or.inl hans, fun _ => hans⟩)

theorem racing_playback {m : VcCecMessage} (hm : m.initiator = .eDVD1) {s : Shared}
    {pc : HandlerPc} {q : PlaybackPc} (h : Racing m s pc q) :
    Racing m (playbackStep (s, q)).1 pc (playbackStep (s, q)).2 := by
  have htidy := tidy_playback h.tidy q
  cases q with
  | lookup => exact racing_lookup hm h
  | path path => exact racing_pathStep h
  | setWant =>
    exact racing_asked (Or.inl rfl) htidy (h.log_began (by simp))
      (Or.inl ⟨Or.inr rfl, h.asking rfl⟩)
  | ask =>
    have hbegan := h.log_began (by simp)
    apply racing_asked (Or.inr rfl) htidy (began_note hbegan _)
    rcases h.asked (Or.inl rfl) with hkept | hlost
    · exact Or.inl ⟨hkept.1.imp_left fun hans => answered_note hbegan hans _,
        fun hpc => answered_note hbegan (hkept.2 hpc) _⟩
    · cases hlost.1
  | done => exact h

theorem not_lost {s : Shared} {pc : HandlerPc} {q : PlaybackPc} (h : q ≠ .done) :
    ¬ Lost s pc q := fun hlost => h hlost.1

theorem stale_read_iff {s : Shared} {path path' : PathPc} {p : ℕ} (hp : path.reading = some p)
    (hnext : ∀ q, path'.reading = some q → q = p) :
    Stale (s.read p) (.path path') ↔ Stale s (.path path) := by
  cases hlive : s.live p with
  | true =>
    have hafter : ¬ ∃ r, reading (.path path') = some r ∧ s.live r = false := by
      rintro ⟨r, hr, hdead⟩
      rw [hnext r hr, hlive] at hdead
      cases hdead
    have hbefore : ¬ ∃ r, reading (.path path) = some r ∧ s.live r = false := by
      rintro ⟨r, hr, hdead⟩
      rw [← Option.some.inj (hp.symm.trans hr), hlive] at hdead
      cases hdead
    rw [read_live hlive, Stale, Stale, or_iff_left hafter, or_iff_left hbefore]
  | false =>
    rw [read_stale hlive]
    exact iff_of_true (Or.inl ⟨p, List.mem_append_right _ (List.mem_singleton.mpr rfl)⟩)
      (Or.inr ⟨p, hp, hlive⟩)

theorem broken_lookup {m : VcCecMessage} {s : Shared} {pc : HandlerPc}
    (h : Racing m s pc .lookup) :
    (Stale (playbackStep (s, .lookup)).1 (playbackStep (s, .lookup)).2 ∨
        Lost (playbackStep (s, .lookup)).1 pc (playbackStep (s, .lookup)).2) ↔
      Stale s .lookup ∨
        ¬ (s.addressMap .eDVD1 = some none → s.wantSetStreamPath = true) := by
  simp only [playbackStep]
  cases hmap : s.addressMap .eDVD1 with
  | none => simp [Stale, Lost, reading]
  | some entry =>
    cases entry with
    | none =>
      obtain ⟨p, rfl, -⟩ := h.tidy.null _ hmap
      have hans := not_answered_began h.unmarked
      simp [Stale, Lost, Quiet, reading, hans]
    | some p =>
      have hlive := h.tidy.live _ p hmap
      simp [Stale, Lost, reading, PathPc.reading, hlive]

theorem broken_playback {m : VcCecMessage} {s : Shared} {pc : HandlerPc} {q : PlaybackPc}
    (h : Racing m s pc q) :
    (Stale (playbackStep (s, q)).1 (playbackStep (s, q)).2 ∨
        Lost (playbackStep (s, q)).1 pc (playbackStep (s, q)).2) ↔
      (Stale s q ∨ Lost s pc q) ∨
        ¬ (q = .lookup → s.addressMap .eDVD1 = some none → s.wantSetStreamPath = true) := by
  cases q with
  | lookup =>
    rw [broken_lookup h, or_iff_left (not_lost (q := .lookup) (by simp))]
    simp
  | path path =>
    have hbegan := h.log_began (by simp)
    rw [or_iff_left (not_lost (q := .path path) (by simp))]
    rcases playbackStep_path s path with ⟨p, path', hp, hn, hnext⟩ | ⟨hp, byte0, byte1, hn⟩
    · rw [hn, or_iff_left (not_lost (q := .path path') (by simp)), stale_read_iff hp hnext]
      simp
    · rw [hn]
      have hans := answered_transmitted hbegan byte0 byte1
      simp [Stale, Lost, reading, hp, hans]
  | setWant => simp [playbackStep, Stale, Lost, reading]
  | ask =>
    -- the marker that this activation has set is still there, or has been answered
    have hkept : Kept s pc := (h.asked (Or.inl rfl)).resolve_right (not_lost (by simp))
    have hnow : ¬ Lost (playbackStep (s, .ask)).1 pc (playbackStep (s, .ask)).2 := by
      rintro ⟨-, hans, hwant, -⟩
      rcases hkept.1 with hold | hset
      · exact hans (answered_note (h.log_began (by simp)) hold _)
      · exact Bool.noConfusion (hset.symm.trans hwant)
    rw [or_iff_left (not_lost (q := .ask) (by simp)), or_iff_left hnow]
    simp [playbackStep, Stale, reading]
  | done => simp [playbackStep]

def RacingPair (m : VcCecMessage) (s : Pair) : Prop :=
  Racing m s.shared (handlerPc s) (playbackPc s)

theorem race_report (m : VcCecMessage) (s : Pair) :
    handlerPc ((race m).next s .report) = (handlerStep m (s.shared, handlerPc s)).2 ∧
      playbackPc ((race m).next s .report) = playbackPc s := by
  refine ⟨Interleaving.next_self s .report, ?_⟩
  exact Interleaving.next_other s (by decide : Party.activation ≠ .report)

theorem race_activation (m : VcCecMessage) (s : Pair) :
    handlerPc ((race m).next s .activation) = handlerPc s ∧
      playbackPc ((race m).next s .activation) = (playbackStep (s.shared, playbackPc s)).2 := by
  refine ⟨?_, Interleaving.next_self s .activation⟩
  exact Interleaving.next_other s (by decide : Party.report ≠ .activation)

theorem racing_next {m : VcCecMessage} (hm : m.initiator = .eDVD1) (s : Pair) (p : Party)
    (h : RacingPair m s) : RacingPair m ((race m).next s p) := by
  cases p with
  | report =>
    rw [RacingPair, (race_report m s).1, (race_report m s).2]
    exact racing_handler h
  | activation =>
    rw [RacingPair, (race_activation m s).1, (race_activation m s).2]
    exact racing_playback hm h

theorem broken_next {m : VcCecMessage} (s : Pair) (p : Party) (h : RacingPair m s) :
    Broken ((race m).next s p) ↔ Broken s ∨ ¬ Apart s p := by
  cases p with
  | report =>
    rw [Broken, (race_report m s).1, (race_report m s).2]
    refine (broken_handler h).trans (or_congr_right ?_)
    simp [Apart]
  | activation =>
    rw [Broken, (race_activation m s).1, (race_activation m s).2]
    exact broken_playback h

theorem racing_start {m : VcCecMessage} {s : Shared} (h : Tidy m s .lookup) :
    RacingPair m (start s) where
  tidy := h.of_logs ⟨rfl, rfl, rfl, rfl⟩
  began := Or.inl ⟨rfl, nofun⟩
  made _ hp := nomatch hp
  asking hq := nomatch hq
  asked hq := by rcases hq with hq | hq <;> cases hq

theorem not_broken_start (s : Shared) : ¬ Broken (start s) := by
  rintro ((⟨p, hp⟩ | ⟨p, hp, -⟩) | ⟨hq, -⟩)
  · cases hp
  · cases hp
  · cases hq

theorem sound_of_not_broken {m : VcCecMessage} {s : Pair} (h : RacingPair m s)
    (hb : ¬ Broken s) : Sound s where
  reads p hp := hb (Or.inl (Or.inl ⟨p, hp⟩))
  settled hf := by
    rcases h.asked (Or.inr hf.2) with hkept | hlost
    · exact hkept.1
    · exact absurd (Or.inr hlost) hb

theorem broken_not_sound {s : Pair} (hf : Finished s) (hb : Broken s) : ¬ Sound s := by
  intro hs
  rcases hb with (⟨p, hp⟩ | ⟨p, hp, -⟩) | ⟨-, hans, hwant, -⟩
  · exact hs.reads p hp
  · rw [hf.2] at hp
    cases hp
  · rcases hs.settled hf with h | h
    · exact hans h
    · exact absurd (h.symm.trans hwant) nofun

theorem broken_run_iff {m : VcCecMessage} (hm : m.initiator = .eDVD1) {s : Shared}
    (h : Tidy m s .lookup) (ps : List Party) :
    Broken ((race m).run (start s) ps) ↔ ¬ (race m).Along Apart (start s) ps := by
  have hrun := Transducer.run_iff_not_along (racing_next hm) broken_next (racing_start h) ps
  rwa [or_iff_right (not_broken_start s)] at hrun

/-- No deleted byte is read and no activation is lost as long as the two keep apart; a
race in which they once do not is unsound when both have finished. -/
theorem sound_iff_apart {s : Shared} {m₀ m : VcCecMessage} (hs : Reachable s m₀ .done .done)
    (hm : m.initiator = .eDVD1) (ps : List Party) :
    ((race m).Along Apart (start s) ps → Sound ((race m).run (start s) ps)) ∧
      (Finished ((race m).run (start s) ps) →
        (Sound ((race m).run (start s) ps) ↔ (race m).Along Apart (start s) ps)) := by
  have htidy : Tidy m s .lookup := hs.tidy.idle m
  have hracing : RacingPair m ((race m).run (start s) ps) :=
    Transducer.run_invariant_of_step (racing_next hm) (racing_start htidy) ps
  have hbroken := broken_run_iff hm htidy ps
  have hsound : (race m).Along Apart (start s) ps → Sound ((race m).run (start s) ps) :=
    fun hapart => sound_of_not_broken hracing fun hb => hbroken.mp hb hapart
  refine ⟨hsound, fun hf => ⟨fun hok => ?_, hsound⟩⟩
  by_contra hapart
  exact broken_not_sound hf (hbroken.mpr hapart) hok

def playback1Report : VcCecMessage where
  length := 4
  initiator := .eDVD1
  follower := cecBroadcastAddr
  payload := fun i => [opcodeReportPhysicalAddress, 0x20, 0x00, 0x04].getD i 0

def known : Shared := ((handlerStep playback1Report)^[8] (.boot, .lookup)).1

theorem reachable_known : Reachable known playback1Report .done .done :=
  (Reachable.report playback1Report rfl (.boot playback1Report)).handler_iterate 8

theorem activation_after_report :
    Sound ((race playback1Report).run (start known)
      (List.replicate 10 .report ++ List.replicate 6 .activation)) :=
  (sound_iff_apart reachable_known rfl _).1 (by decide)

/-- The activation looks up Playback 1 between the two stores of `operator[]`. -/
def nullLookedUp : List Party :=
  List.replicate 3 .report ++ .activation :: List.replicate 4 .report

def arrayDeleted : List Party :=
  .activation :: List.replicate 3 .report ++ List.replicate 5 .activation ++
    List.replicate 7 .report

theorem activation_lost_and_stale_read :
    Finished ((race playback1Report).run (start .boot) nullLookedUp) ∧
      ¬ Sound ((race playback1Report).run (start .boot) nullLookedUp) ∧
      Finished ((race playback1Report).run (start known) arrayDeleted) ∧
      ¬ Sound ((race playback1Report).run (start known) arrayDeleted) := by
  refine ⟨⟨rfl, rfl⟩, fun h => ?_, ⟨rfl, rfl⟩, fun h => ?_⟩
  · rcases h.settled ⟨rfl, rfl⟩ with ⟨x, hx, -⟩ | hwant
    · cases hx
    · cases hwant
  · exact h.reads 0 (.tail _ (.head _))

end CecFix.AddressRace
