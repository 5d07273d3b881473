import CecFix.PowerStatus

/-!
# The power query under every segmentation of the byte stream

The projector answers as it should and no system call fails, but the network
delivers each of its three messages in segments of its own choosing. `sendCommand`
reads once for each message, so that only the first segment of a message counts.
-/

namespace CecFix.Lan

/-- The first segment of a message: any prefix of it but the empty one. -/
structure Cut (message : Bytes) where
  size : ℕ
  pos : 0 < size
  le : size ≤ message.length

namespace Cut
variable {message : Bytes}

def bytes (c : Cut message) : Bytes := message.take c.size

def Whole (c : Cut message) : Prop := c.size = message.length

instance (c : Cut message) : Decidable c.Whole := inferInstanceAs (Decidable (_ = _))

theorem length_bytes (c : Cut message) : c.bytes.length = c.size := by
  simp [bytes, c.le]

theorem bytes_eq_iff (c : Cut message) : c.bytes = message ↔ c.Whole := by
  constructor
  · intro h
    rw [Whole, ← c.length_bytes, h]
  · intro h
    rw [bytes, h, List.take_length]

theorem prefix_bytes_iff (c : Cut message) : message <+: c.bytes ↔ c.Whole := by
  rw [← c.bytes_eq_iff]
  constructor
  · intro h
    exact (h.eq_of_length_le (by rw [c.length_bytes]; exact c.le)).symm
  · intro h
    rw [h]

theorem text_bytes (hm : CString.NulFree message) (c : Cut message) :
    CString.text c.bytes = c.bytes := by
  rw [CString.text, List.takeWhile_eq_self_iff]
  intro b hb
  simpa using hm b (List.mem_of_mem_take hb)

def chunk (c : Cut message) (hm : message.length ≤ maxResponseSize) : Chunk :=
  ⟨c.bytes, by rw [c.length_bytes]; exact c.le.trans hm⟩

end Cut

structure Segmentation (k : Fin 5) where
  sock : ℕ
  connectRet : Int
  connected : 1 ≤ connectRet
  greeting : Cut openGreeting
  ackReply : Cut ack
  answer : Cut (powerAck (statusDigit k))

namespace Segmentation
variable {k : Fin 5}

def script (g : Segmentation k) : SocketScript where
  sock := g.sock
  inetPton := 1
  connectRet := g.connectRet
  greeting := .got (g.greeting.chunk openGreeting_fits)
  ackReply := .got (g.ackReply.chunk ack_fits)
  answer := .got (g.answer.chunk (statusAnswer_fits k))

def HandshakeWhole (g : Segmentation k) : Prop := g.greeting.Whole ∧ g.ackReply.Whole

theorem completes_iff (g : Segmentation k) : g.script.Completes ↔ g.HandshakeWhole := by
  have hopen : g.script.greeting.Says openGreeting ↔ g.greeting.Whole := by
    rw [← g.greeting.bytes_eq_iff]
    show CString.text g.greeting.bytes = openGreeting ↔ _
    rw [Cut.text_bytes (by decide)]
  have hack : g.script.ackReply.Says ack ↔ g.ackReply.Whole := by
    rw [← g.ackReply.bytes_eq_iff]
    show CString.text g.ackReply.bytes = ack ↔ _
    rw [Cut.text_bytes (by decide)]
  constructor
  · intro hcomp
    obtain ⟨c, h, -⟩ := hcomp
    exact ⟨hopen.mp h.greeting, hack.mp h.ackReply⟩
  · intro hwhole
    obtain ⟨hg, ha⟩ := hwhole
    exact ⟨_, ⟨Int.natCast_nonneg _, le_rfl, g.connected, hopen.mpr hg, hack.mpr ha⟩, rfl⟩

end Segmentation

def FirstWhole {k : Fin 5} (segs : ℕ → Segmentation k) (i : ℕ) : Prop :=
  i < maxRetryCount ∧ (segs i).HandshakeWhole ∧ ∀ j < i, ¬ (segs j).HandshakeWhole

theorem firstAnswer_script_iff {k : Fin 5} (segs : ℕ → Segmentation k) (i : ℕ) (c : Chunk) :
    FirstAnswer (fun j => (segs j).script) i c ↔
      FirstWhole segs i ∧ (segs i).script.answer = .got c := by
  constructor
  · intro hfirst
    obtain ⟨hi, hc, hfail⟩ := hfirst
    refine ⟨⟨hi, (segs i).completes_iff.mp ⟨c, hc⟩, fun j hj => ?_⟩, hc.2⟩
    exact mt (segs j).completes_iff.mpr (hfail j hj)
  · intro hfirst
    obtain ⟨⟨hi, hw, hfail⟩, hc⟩ := hfirst
    obtain ⟨d, hd⟩ := (segs i).completes_iff.mpr hw
    exact ⟨hi, ⟨hd.1, hc⟩, fun j hj => mt (segs j).completes_iff.mp (hfail j hj)⟩

/-- The query returns the projector's status exactly if the first attempt whose
greetings arrive whole also receives the whole answer in one segment. -/
theorem query_under_segmentation_iff (k : Fin 5) (s : LanState)
    (hs : s.hasActiveConnection = false) (segs : ℕ → Segmentation k) :
    (queryPowerStatus s fun i => (segs i).script).value = k ↔
      ∃ i, FirstWhole segs i ∧ (segs i).answer.Whole := by
  rcases firstAnswer_or_none fun i => (segs i).script with ⟨i, c, h⟩ | hnone
  · obtain ⟨hwhole, hans⟩ := (firstAnswer_script_iff segs i c).mp h
    have hc : c.bytes = (segs i).answer.bytes := by
      injection hans with hans
      exact congrArg Chunk.bytes hans.symm
    rw [(queryPowerStatus_answers hs h).1, statusOf_eq_iff, hc, Cut.prefix_bytes_iff]
    constructor
    · intro ha
      exact ⟨i, hwhole, ha⟩
    · intro hex
      obtain ⟨j, hj, ha⟩ := hex
      have hans' := (firstAnswer_script_iff segs j _).mpr ⟨hj, rfl⟩
      obtain ⟨rfl, -⟩ := h.unique hans'
      exact ha
  · rw [(queryPowerStatus_unanswered hs hnone).1]
    constructor
    · intro h
      exact absurd h (by omega)
    · intro hex
      obtain ⟨i, hi, -⟩ := hex
      exact absurd ⟨_, ((firstAnswer_script_iff segs i _).mpr ⟨hi, rfl⟩).answers⟩
        (hnone i hi.1)

def cutGreeting (k : Fin 5) (n : ℕ) (pos : 0 < n) (le : n ≤ openGreeting.length) :
    Segmentation k where
  sock := 3
  connectRet := 1
  connected := le_rfl
  greeting := ⟨n, pos, le⟩
  ackReply := ⟨ack.length, by decide, le_rfl⟩
  answer := ⟨(powerAck (statusDigit k)).length, by simp [powerAck], le_rfl⟩

theorem query_unsegmented :
    (queryPowerStatus (bootState []) fun _ => (cutGreeting 3 5 (by decide) (by decide)).script).value
      = (3 : Fin 5) :=
  (query_under_segmentation_iff 3 (bootState []) rfl
    fun _ => cutGreeting 3 5 (by decide) (by decide)).mpr
      ⟨0, ⟨by decide, ⟨rfl, rfl⟩, fun _ hj => absurd hj (Nat.not_lt_zero _)⟩, rfl⟩

theorem query_cut_greeting :
    (queryPowerStatus (bootState [])
      fun _ => (cutGreeting 3 2 (by decide) (by decide)).script).value ≠ (3 : Fin 5) := by
  decide

end CecFix.Lan
