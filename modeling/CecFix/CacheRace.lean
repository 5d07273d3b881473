import CecFix.CacheSteps
import CecFix.LogMarks

/-!
# Filling the cache against clearing it

`queryPowerStatusCached` stores the status some steps after the exchange that gave
it; `sendOn` and `sendOff` clear the cache some steps after their own exchange. If
the query comes first of the exchanges and its store last of the steps, the status
from before the command stays in the cache. That is the only way: when the cache is
cleared, a status that was asked for before the command is still to be stored.
-/

namespace CecFix.CacheRace
open Lan
open LogMarks (afterFirst afterFirst_unmarked afterFirst_marked)

inductive Party where
  | query
  | command
  deriving DecidableEq

def Local : Party → Type
  | .query => CachedCall
  | .command => PowerPc

structure Setting where
  now : Timespec
  queries : ℕ → SocketScript
  code : Bytes
  commands : ℕ → SocketScript

abbrev Pair := Interleaving Globals Local

def Setting.step (x : Setting) : ∀ p, Globals × Local p → Globals × Local p
  | .query => cachedStep x.now x.queries
  | .command => powerStep x.code x.commands

def race (x : Setting) : Transducer Pair Party Empty := Interleaving.machine x.step

def start (lan : LanState) : Pair where
  shared := ⟨lan, []⟩
  locals
    | .query => CachedCall.start
    | .command => PowerPc.start

def queryCall (s : Pair) : CachedCall := s.locals .query
def commandPc (s : Pair) : PowerPc := s.locals .command

def answered : Mark → Bool
  | .command r => decide (0 ≤ r.retCode)
  | .query _ => false

def status : Mark → Option Int
  | .query r => if 0 ≤ r.retCode then some (statusOf r.response) else none
  | .command _ => none

def CacheCurrent (g : Globals) : Prop :=
  g.lan.lastPowerQueryResult = -1 ∨
    ∃ m ∈ afterFirst answered g.log, status m = some g.lan.lastPowerQueryResult

instance (g : Globals) : Decidable (CacheCurrent g) := inferInstanceAs (Decidable (_ ∨ _))

inductive Phase where
  | reading
  | asking
  | storing (status : Int)
  | stored

def phase : CachedPc → Phase
  | .readResult | .readSec | .readNsec _ => .reading
  | .query _ _ => .asking
  | .storeResult v => .storing v
  | .storeSec | .storeNsec | .readForLog | .readReturn | .done _ => .stored

theorem cachedStep_cases (now : Timespec) (scripts : ℕ → SocketScript) (g : Globals)
    (c : CachedCall) :
    let n := cachedStep now scripts (g, c)
    (phase c.pc = .asking ∧ ∃ r, n.1 = g.after .query r ∧ (phase n.2.pc = .asking ∨
        ∃ v, phase n.2.pc = .storing v ∧ (v = -1 ∨ status (.query r) = some v))) ∨
      (∃ v, phase c.pc = .storing v ∧ phase n.2.pc = .stored ∧ n.1.log = g.log ∧
        n.1.lan.lastPowerQueryResult = v) ∨
      (n.1.log = g.log ∧ n.1.lan.lastPowerQueryResult = g.lan.lastPowerQueryResult ∧
        (phase n.2.pc = phase c.pc ∨
          (phase c.pc = .reading ∧ (phase n.2.pc = .asking ∨ phase n.2.pc = .stored)))) := by
  obtain ⟨pc, wasEmpty⟩ := c
  cases pc with
  | query retry response =>
    refine Or.inl ⟨rfl, ?_⟩
    obtain ⟨r, hr⟩ : ∃ r, sendCommand g.lan.hasActiveConnection g.lan.host queryPowerCommand
      response (scripts retry) = r := ⟨_, rfl⟩
    refine ⟨r, ?_⟩
    by_cases hagain : r.retCode < 0 ∧ retry + 1 < maxRetryCount
    · simp [cachedStep, exchange_again hr hagain.1 hagain.2, phase]
    · have hended : 0 ≤ r.retCode ∨ maxRetryCount ≤ retry + 1 := by omega
      simp only [cachedStep, exchange_ended hr hended]
      refine ⟨trivial, Or.inr ⟨_, rfl, ?_⟩⟩
      by_cases hneg : r.retCode < 0
      · exact Or.inl (if_pos hneg)
      · right
        rw [if_neg hneg, status, if_pos (Int.not_lt.mp hneg)]
  | storeResult v => exact Or.inr (Or.inl ⟨v, rfl, rfl, rfl, rfl⟩)
  | readResult =>
    refine Or.inr (Or.inr ?_)
    by_cases hempty : g.lan.lastPowerQueryResult = -1
    · simp [cachedStep, hempty, phase]
    · simp [cachedStep, hempty, phase]
  | readNsec sec =>
    refine Or.inr (Or.inr ?_)
    by_cases hold : powerQueryTtlMs ≤ msElapsed now ⟨sec, g.lan.lastPowerQuery.tvNsec⟩
    · simp [cachedStep, hold, phase]
    · simp [cachedStep, hold, phase]
  | storeNsec => cases wasEmpty <;> exact Or.inr (Or.inr ⟨rfl, rfl, Or.inl rfl⟩)
  | _ => exact Or.inr (Or.inr ⟨rfl, rfl, Or.inl rfl⟩)

def Follows (r : SendResult) (p : PowerPc) : Prop :=
  (r.retCode < 0 ∧ ((∃ retry response, p = .command retry response) ∨ p = .done r.retCode)) ∨
    (0 ≤ r.retCode ∧ p = .clear)

theorem powerStep_cases (code : Bytes) (scripts : ℕ → SocketScript) (g : Globals) (p : PowerPc) :
    let n := powerStep code scripts (g, p)
    (∃ r retry response, p = .command retry response ∧ n.1 = g.after .command r ∧
        Follows r n.2) ∨
      (p = .clear ∧ n = (⟨queryPowerStatusCacheClear g.lan, g.log⟩, .done 0)) ∨
      (∃ ret, p = .done ret ∧ n = (g, p)) := by
  cases p with
  | command retry response =>
    obtain ⟨r, hr⟩ : ∃ r, sendCommand g.lan.hasActiveConnection g.lan.host code
      response (scripts retry) = r := ⟨_, rfl⟩
    refine Or.inl ⟨r, retry, response, rfl, ?_⟩
    by_cases hagain : r.retCode < 0 ∧ retry + 1 < maxRetryCount
    · simp [powerStep, exchange_again hr hagain.1 hagain.2, Follows, hagain.1]
    · have hended : 0 ≤ r.retCode ∨ maxRetryCount ≤ retry + 1 := by omega
      simp only [powerStep, exchange_ended hr hended]
      by_cases hneg : r.retCode < 0
      · exact ⟨trivial, Or.inl ⟨hneg, Or.inr (if_pos hneg)⟩⟩
      · exact ⟨trivial, Or.inr ⟨Int.not_lt.mp hneg, if_neg hneg⟩⟩
  | clear => exact Or.inr (Or.inl ⟨rfl, rfl⟩)
  | done ret => exact Or.inr (Or.inr ⟨ret, rfl, rfl⟩)

def obtained (g : Globals) : Phase → Int
  | .reading | .asking => -1
  | .storing v => v
  | .stored => g.lan.lastPowerQueryResult

def CommandLogged (log : List Mark) : PowerPc → Prop
  | .command _ _ => ∀ m ∈ log, answered m = false
  | .clear => ∃ m ∈ log, answered m = true
  | .done ret => ret = 0 → ∃ m ∈ log, answered m = true

structure Tracks (g : Globals) (q : Phase) (p : PowerPc) : Prop where
  command : CommandLogged g.log p
  reading : q = .reading → afterFirst answered g.log = []
  obtained : obtained g q = -1 ∨ afterFirst answered g.log = [] ∨
    ∃ m ∈ afterFirst answered g.log, status m = some (obtained g q)
  unstored : p = .done 0 → q ≠ .stored → g.lan.lastPowerQueryResult = -1

def Stale (g : Globals) (q : Phase) (p : PowerPc) : Prop :=
  p = .done 0 ∧ afterFirst answered g.log = [] ∧ obtained g q ≠ -1

/-- When the cache is cleared, no status of a query made before the command is still
to be stored. -/
def ClearInTime (g : Globals) (q : Phase) (p : PowerPc) : Prop :=
  match p, q with
  | .clear, .storing v => v = -1 ∨ afterFirst answered g.log ≠ []
  | _, _ => True

theorem commandLogged_snoc {log : List Mark} {p : PowerPc} (r : SendResult)
    (h : CommandLogged log p) : CommandLogged (log ++ [.query r]) p := by
  have grow : (∃ m ∈ log, answered m = true) → ∃ m ∈ log ++ [.query r], answered m = true :=
    fun ⟨m, hm, hans⟩ => ⟨m, List.mem_append_left _ hm, hans⟩
  cases p with
  | command retry response =>
    intro m hm
    rcases List.mem_append.mp hm with hm | hm
    · exact h m hm
    · rw [List.mem_singleton.mp hm, answered]
  | clear => exact grow h
  | done ret => exact fun hret => grow (h hret)

section Query
variable {now : Timespec} {scripts : ℕ → SocketScript} {g : Globals} {c : CachedCall} {p : PowerPc}

theorem tracks_query (h : Tracks g (phase c.pc) p) :
    Tracks (cachedStep now scripts (g, c)).1 (phase (cachedStep now scripts (g, c)).2.pc) p := by
  rcases cachedStep_cases now scripts g c with
    ⟨hask, r, hg, hn⟩ | ⟨v, hv, hn, hlog, hres⟩ | ⟨hlog, hres, hn⟩
  · have hunstored := fun hp => h.unstored hp (by rw [hask]; exact nofun)
    rw [hg]
    refine ⟨commandLogged_snoc r h.command, ?_, ?_, fun hp _ => hunstored hp⟩
    · rcases hn with hn | ⟨v, hn, -⟩ <;> rw [hn] <;> exact nofun
    · rcases hn with hn | ⟨v, hn, hv⟩
      · rw [hn]
        exact Or.inl rfl
      · rw [hn]
        rcases hv with hv | hv
        · exact Or.inl hv
        · right
          by_cases hcmd : ∃ m ∈ g.log, answered m = true
          · right
            refine ⟨.query r, ?_, hv⟩
            show Mark.query r ∈ afterFirst answered (g.log ++ [.query r])
            rw [afterFirst_marked hcmd]
            simp
          · left
            exact afterFirst_unmarked (by simpa using hcmd) _
  · have hobt := h.obtained
    rw [hv] at hobt
    rw [hn]
    exact
      { command := hlog ▸ h.command
        reading := nofun
        obtained := by simpa only [obtained, hlog, hres] using hobt
        unstored := fun _ hne => absurd rfl hne }
  · have hobt : ∀ q, obtained (cachedStep now scripts (g, c)).1 q = obtained g q := by
      intro q
      cases q <;> simp [obtained, hres]
    rcases hn with hn | ⟨hread, hn⟩
    · rw [hn]
      exact
        { command := hlog ▸ h.command
          reading := hlog ▸ h.reading
          obtained := by rw [hobt, hlog]; exact h.obtained
          unstored := hres ▸ h.unstored }
    · have hsince := h.reading hread
      refine ⟨hlog ▸ h.command, fun _ => hlog ▸ hsince, Or.inr (Or.inl (hlog ▸ hsince)), ?_⟩
      rw [hres]
      exact fun hp _ => h.unstored hp (by rw [hread]; exact nofun)

theorem stale_query (h : Tracks g (phase c.pc) p) :
    Stale (cachedStep now scripts (g, c)).1 (phase (cachedStep now scripts (g, c)).2.pc) p ↔
      Stale g (phase c.pc) p := by
  rcases cachedStep_cases now scripts g c with
    ⟨hask, r, hg, -⟩ | ⟨v, hv, hn, hlog, hres⟩ | ⟨hlog, hres, hn⟩
  · -- An exchange after the command is in the log, so nothing is stale.
    constructor
    · intro hs
      obtain ⟨rfl, hsince, -⟩ := hs
      rw [hg] at hsince
      have hlater := afterFirst_marked (h.command rfl) (.query r)
      exact absurd (hlater.symm.trans hsince) (by simp)
    · intro hs
      obtain ⟨-, -, hne⟩ := hs
      rw [hask] at hne
      exact absurd rfl hne
  · rw [hv, hn]
    simp only [Stale, obtained, hlog, hres]
  · rcases hn with hn | ⟨hread, hn⟩
    · rw [hn]
      cases phase c.pc <;> simp only [Stale, obtained, hlog, hres]
    · rw [hread]
      apply iff_of_false _ fun hs => hs.2.2 rfl
      intro hs
      obtain ⟨hp, -, hne⟩ := hs
      have hres' := h.unstored hp (by rw [hread]; exact nofun)
      rcases hn with hn | hn
      · rw [hn] at hne
        exact hne rfl
      · rw [hn, obtained, hres] at hne
        exact hne hres'

end Query

theorem Follows.ne_done {r : SendResult} {p : PowerPc} (h : Follows r p) : p ≠ .done 0 := by
  rcases h with ⟨hneg, ⟨retry, response, rfl⟩ | rfl⟩ | ⟨-, rfl⟩
  · exact nofun
  · intro hp
    injection hp with hp
    omega
  · exact nofun

theorem Follows.logged {r : SendResult} {p : PowerPc} (h : Follows r p) {log : List Mark}
    (hlog : ∀ m ∈ log, answered m = false) : CommandLogged (log ++ [.command r]) p := by
  rcases h with ⟨hneg, ⟨retry, response, rfl⟩ | rfl⟩ | ⟨hret, rfl⟩
  · intro m hm
    rcases List.mem_append.mp hm with hm | hm
    · exact hlog m hm
    · rw [List.mem_singleton.mp hm]
      simpa [answered] using hneg
  · intro hret
    omega
  · exact ⟨.command r, by simp, by simpa [answered] using hret⟩

section Command
variable {code : Bytes} {scripts : ℕ → SocketScript} {g : Globals} {q : Phase} {p : PowerPc}

theorem tracks_command (h : Tracks g q p) :
    Tracks (powerStep code scripts (g, p)).1 q (powerStep code scripts (g, p)).2 := by
  rcases powerStep_cases code scripts g p with
    ⟨r, retry, response, rfl, hg, hn⟩ | ⟨rfl, hn⟩ | ⟨ret, rfl, hn⟩
  · have hsince : afterFirst answered
        (powerStep code scripts (g, .command retry response)).1.log = [] := by
      rw [hg]
      exact afterFirst_unmarked h.command _
    refine ⟨?_, fun _ => hsince, Or.inr (Or.inl hsince), fun hp => absurd hp hn.ne_done⟩
    rw [hg]
    exact hn.logged h.command
  · rw [hn]
    refine ⟨fun _ => h.command, h.reading, ?_, fun _ _ => rfl⟩
    have hobt := h.obtained
    cases q with
    | stored => exact Or.inl rfl
    | _ => exact hobt
  · rw [hn]
    exact h

theorem stale_command (h : Tracks g q p) :
    Stale (powerStep code scripts (g, p)).1 q (powerStep code scripts (g, p)).2 ↔
      Stale g q p ∨ ¬ ClearInTime g q p := by
  rcases powerStep_cases code scripts g p with
    ⟨r, retry, response, rfl, hg, hn⟩ | ⟨rfl, hn⟩ | ⟨ret, rfl, hn⟩
  · apply iff_of_false
    · intro hs
      exact hn.ne_done hs.1
    · intro hs
      rcases hs with ⟨hp, -⟩ | hlate
      · cases hp
      · exact hlate trivial
  · rw [hn]
    cases q with
    | storing v =>
      have hlate : ¬ ClearInTime g (.storing v) .clear ↔
          v ≠ -1 ∧ afterFirst answered g.log = [] := by
        simp [ClearInTime]
      rw [hlate]
      constructor
      · intro hs
        obtain ⟨-, hsince, hne⟩ := hs
        exact Or.inr ⟨hne, hsince⟩
      · intro hs
        rcases hs with ⟨hp, -⟩ | ⟨hne, hsince⟩
        · cases hp
        · exact ⟨rfl, hsince, hne⟩
    | _ =>
      apply iff_of_false fun hs => hs.2.2 rfl
      intro hs
      rcases hs with ⟨hp, -⟩ | hlate
      · cases hp
      · exact hlate trivial
  · rw [hn]
    simp [ClearInTime]

end Command

def InTime (s : Pair) (p : Party) : Prop :=
  p = .command → ClearInTime s.shared (phase (queryCall s).pc) (commandPc s)

instance (g : Globals) (q : Phase) (p : PowerPc) : Decidable (ClearInTime g q p) := by
  unfold ClearInTime
  split <;> infer_instance

instance (s : Pair) (p : Party) : Decidable (InTime s p) := inferInstanceAs (Decidable (_ → _))

def Tracked (s : Pair) : Prop := Tracks s.shared (phase (queryCall s).pc) (commandPc s)

def IsStale (s : Pair) : Prop := Stale s.shared (phase (queryCall s).pc) (commandPc s)

section Run
variable (x : Setting)

theorem next_query (s : Pair) :
    queryCall ((race x).next s .query) =
        (cachedStep x.now x.queries (s.shared, queryCall s)).2 ∧
      commandPc ((race x).next s .query) = commandPc s :=
  ⟨Interleaving.next_self s .query, Interleaving.next_other s (by decide)⟩

theorem next_command (s : Pair) :
    queryCall ((race x).next s .command) = queryCall s ∧
      commandPc ((race x).next s .command) =
        (powerStep x.code x.commands (s.shared, commandPc s)).2 :=
  ⟨Interleaving.next_other s (by decide), Interleaving.next_self s .command⟩

theorem tracked_next (s : Pair) (p : Party) (h : Tracked s) : Tracked ((race x).next s p) := by
  cases p with
  | query =>
    obtain ⟨hq, hp⟩ := next_query x s
    rw [Tracked, hq, hp]
    exact tracks_query h
  | command =>
    obtain ⟨hq, hp⟩ := next_command x s
    rw [Tracked, hq, hp]
    exact tracks_command h

theorem stale_next (s : Pair) (p : Party) (h : Tracked s) :
    IsStale ((race x).next s p) ↔ IsStale s ∨ ¬ InTime s p := by
  cases p with
  | query =>
    obtain ⟨hq, hp⟩ := next_query x s
    have hin : InTime s .query := nofun
    rw [IsStale, hq, hp, or_iff_left (not_not.mpr hin)]
    exact stale_query h
  | command =>
    obtain ⟨hq, hp⟩ := next_command x s
    have hin : InTime s .command ↔ ClearInTime s.shared (phase (queryCall s).pc) (commandPc s) :=
      ⟨fun h => h rfl, fun h _ => h⟩
    rw [IsStale, hq, hp, hin]
    exact stale_command h

theorem tracked_start (lan : LanState) : Tracked (start lan) where
  command := nofun
  reading _ := rfl
  obtained := Or.inl rfl
  unstored h := nomatch h

theorem stale_run_iff (lan : LanState) (ps : List Party) :
    IsStale ((race x).run (start lan) ps) ↔ ¬ (race x).Along InTime (start lan) ps := by
  have hrun := Transducer.run_iff_not_along (P := IsStale) (tracked_next x) (stale_next x)
    (tracked_start lan) ps
  have hstart : ¬ IsStale (start lan) := fun h => nomatch h.1
  rwa [or_iff_right hstart] at hrun

theorem current_iff {s : Pair} (h : Tracked s) {r : Int} (hquery : (queryCall s).pc = .done r)
    (hcommand : commandPc s = .done 0) : CacheCurrent s.shared ↔ ¬ IsStale s := by
  have hobt := h.obtained
  rw [hquery] at hobt
  rw [CacheCurrent, IsStale, hquery, hcommand]
  constructor
  · intro hcur hs
    obtain ⟨-, hsince, hne⟩ := hs
    rcases hcur with hres | ⟨m, hm, -⟩
    · exact hne hres
    · rw [hsince] at hm
      cases hm
  · intro hs
    by_contra hcur
    rw [not_or] at hcur
    rcases hobt with hres | hsince | hlater
    · exact hcur.1 hres
    · exact hs ⟨rfl, hsince, hcur.1⟩
    · exact hcur.2 hlater

/-- When both calls have returned, the command with success, the cache is empty or has
the status of a query made after the command, exactly if the cache was cleared in time. -/
theorem cache_current_iff (lan : LanState) (ps : List Party)
    (hquery : ∃ r, (queryCall ((race x).run (start lan) ps)).pc = .done r)
    (hcommand : commandPc ((race x).run (start lan) ps) = .done 0) :
    CacheCurrent ((race x).run (start lan) ps).shared ↔
      (race x).Along InTime (start lan) ps := by
  obtain ⟨r, hquery⟩ := hquery
  have htracked := Transducer.run_invariant_of_step (tracked_next x) (tracked_start lan) ps
  rw [current_iff htracked hquery hcommand, stale_run_iff, not_not]

end Run

def turningOn : Setting where
  now := ⟨0, 0⟩
  queries _ := greetingScript (.got ⟨standbyAck, by decide⟩)
  code := onCommand
  commands _ := greetingScript (.got ⟨onOffAck, onOffAck_fits⟩)

theorem cleared_after_query :
    CacheCurrent ((race turningOn).run (start (bootState []))
      [.query, .query, .query, .query, .query, .query, .command, .command]).shared :=
  (cache_current_iff turningOn (bootState []) _ ⟨0, rfl⟩ rfl).mpr (by decide)

/-- The exchange of the query comes before the command, its store after the clearing. -/
def overtaken : List Party :=
  [.query, .query, .command, .command, .query, .query, .query, .query]

theorem overtaken_status_stays :
    let s := (race turningOn).run (start (bootState [])) overtaken
    (queryCall s).pc = .done 0 ∧ commandPc s = .done 0 ∧ ¬ CacheCurrent s.shared :=
  ⟨rfl, rfl, by decide⟩

end CecFix.CacheRace
