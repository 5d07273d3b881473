import CecFix.FifoSignals
import CecFix.SendCommand

/-!
# C strings in the buffers that are read into

The scans that `sendCommand` and `handleSIGIO` make of what they have read: the
comparisons, and the log lines that format a whole buffer as a C string. A comparison
stops at the end of its literal at the latest. A format stops at a NUL only, and a read
that fills the buffer need not leave one.

Which lines are formatted depends on the log level, that of the program by default
being `debug`.
-/

namespace CecFix.BufferScans
open Lan Fifo

inductive Level where
  | trace
  | debug
  | info
  | warn
  | err
  | critical
  | off

def Level.value : Level → ℕ
  | .trace => 0
  | .debug => 1
  | .info => 2
  | .warn => 3
  | .err => 4
  | .critical => 5
  | .off => 6

def shouldLog (level msg : Level) : Bool := level.value ≤ msg.value

inductive Scan where
  | strcmp (s buf : Bytes)
  | strncmp (buf s : Bytes) (n : ℕ)
  | format (buf : Bytes)

def Scan.Inside : Scan → Prop
  | .strcmp s buf => (CString.strcmp s buf).isSome = true
  | .strncmp buf s n => (CString.strncmp buf s n).isSome = true
  | .format buf => (CString.strlen buf).isSome = true

/-- The arguments of a line that is not logged are not formatted. -/
def logged (level msg : Level) (scans : List Scan) : List Scan :=
  if shouldLog level msg then scans else []

def checkScans (level : Level) (expected buffer : Bytes) (r : ReadResult) (next : List Scan) :
    List Scan :=
  match r with
  | .failed => []
  | .got c =>
    let buffer := CString.memcpy buffer c.bytes
    .strcmp (CString.literal expected) buffer ::
      if CString.strcmp (CString.literal expected) buffer ≠ some 0 then
        logged level .err [.format buffer]
      else next

def ackScans (level : Level) (buffer : Bytes) (s : SocketScript) : List Scan :=
  checkScans level ack buffer s.ackReply []

def greetingScans (level : Level) (buffer : Bytes) (s : SocketScript) : List Scan :=
  -- memset(buffer, 0, sizeof(buffer)) between the two
  checkScans level openGreeting buffer s.greeting
    (ackScans level (CString.zeros buffer.length) s)

def sendCommandScans (level : Level) (active : Bool) (s : SocketScript) : List Scan :=
  if active then []
  else if s.sock < 0 then []
  else if s.inetPton < 1 then []
  else if s.connectRet < 1 then []
  else greetingScans level (CString.zeros maxResponseSize) s

inductive FifoRead where
  | failed
  | got (bytes : Bytes) (fits : bytes.length ≤ fifoCommandSize)

def handleSigioScans (level : Level) (r : FifoRead) : List Scan :=
  match r with
  | .failed => []
  | .got bytes _ =>
    if bytes.length < 1 then []
    else
      let buffer := CString.load fifoCommandSize bytes
      let offCommand := CString.literal [digit .off]
      let onCommand := CString.literal [digit .on]
      logged level .debug [.format buffer] ++ .strncmp buffer offCommand 1 ::
        if CString.strncmp buffer offCommand 1 = some 0 then []
        else .strncmp buffer onCommand 1 ::
          if CString.strncmp buffer onCommand 1 = some 0 then []
          else logged level .warn [.format buffer]

def FillsWith (n : ℕ) (bytes : Bytes) : Prop := bytes.length = n ∧ 0 ∉ bytes

instance (n : ℕ) (bytes : Bytes) : Decidable (FillsWith n bytes) :=
  inferInstanceAs (Decidable (_ ∧ _))

def Unterminated : ReadResult → Prop
  | .failed => False
  | .got c => FillsWith maxResponseSize c.bytes

def StartsWithCommand (bytes : Bytes) : Prop := ∃ c : Command, bytes.head? = some (digit c)

def UnterminatedFifo : FifoRead → Prop
  | .failed => False
  | .got bytes _ => FillsWith fifoCommandSize bytes

def FifoRead.IsCommand : FifoRead → Prop
  | .failed => False
  | .got bytes _ => StartsWithCommand bytes

structure Connected (s : SocketScript) : Prop where
  sock : 0 ≤ s.sock
  resolved : 1 ≤ s.inetPton
  connected : 1 ≤ s.connectRet

theorem format_load_inside {n : ℕ} {bytes : Bytes} (h : bytes.length ≤ n) :
    (Scan.format (CString.load n bytes)).Inside ↔ ¬ FillsWith n bytes := by
  rw [Scan.Inside, CString.strlen_isSome_iff, CString.zero_mem_load_iff h, FillsWith]

theorem logged_inside (level msg : Level) (scans : List Scan) :
    (∀ x ∈ logged level msg scans, x.Inside) ↔
      (shouldLog level msg = true → ∀ x ∈ scans, x.Inside) := by
  rw [logged]
  split_ifs with h
  · simp [h]
  · simp [h]

theorem logged_format_inside (level msg : Level) {n : ℕ} {bytes : Bytes} (h : bytes.length ≤ n) :
    (∀ x ∈ logged level msg [.format (CString.load n bytes)], x.Inside) ↔
      (shouldLog level msg = true → ¬ FillsWith n bytes) := by
  rw [logged_inside, List.forall_mem_singleton, format_load_inside h]

theorem text_of_fills {n : ℕ} {bytes : Bytes} (h : FillsWith n bytes) :
    CString.text bytes = bytes := by
  apply List.takeWhile_eq_self_iff.mpr
  intro b hb
  have hne : b ≠ 0 := fun hzero => h.2 (hzero ▸ hb)
  simpa using hne

theorem not_unterminated_of_says {expected : Bytes} (hlen : expected.length < maxResponseSize)
    {r : ReadResult} (h : r.Says expected) : ¬ Unterminated r := by
  cases r with
  | failed => exact id
  | got c =>
    intro hfills
    have htext : CString.text c.bytes = expected := h
    rw [text_of_fills hfills] at htext
    rw [← htext, hfills.1] at hlen
    exact absurd hlen (lt_irrefl _)

theorem checkScans_got (level : Level) {expected : Bytes} (hfree : CString.NulFree expected)
    (hlen : expected.length < maxResponseSize) (c : Chunk) (next : List Scan) :
    checkScans level expected (CString.zeros maxResponseSize) (.got c) next =
      .strcmp (CString.literal expected) (CString.load maxResponseSize c.bytes) ::
        if (ReadResult.got c).Says expected then next
        else logged level .err [.format (CString.load maxResponseSize c.bytes)] := by
  have hright : CString.strcmp (CString.literal expected) (CString.load maxResponseSize c.bytes) =
      some 0 ↔ (ReadResult.got c).Says expected := CString.strcmp_load hfree c.fits hlen
  rw [checkScans, ← CString.load]
  by_cases hr : (ReadResult.got c).Says expected
  · rw [if_neg (not_not.mpr (hright.mpr hr)), if_pos hr]
  · rw [if_pos (mt hright.mp hr), if_neg hr]

theorem checkScans_inside (level : Level) {expected : Bytes} (hfree : CString.NulFree expected)
    (hlen : expected.length < maxResponseSize) (r : ReadResult) (next : List Scan) :
    (∀ x ∈ checkScans level expected (CString.zeros maxResponseSize) r next, x.Inside) ↔
      (shouldLog level .err = true → ¬ Unterminated r) ∧
        (r.Says expected → ∀ x ∈ next, x.Inside) := by
  cases r with
  | failed => simp [checkScans, Unterminated, ReadResult.Says]
  | got c =>
    have hload := CString.length_load c.fits
    have hcompare : (Scan.strcmp (CString.literal expected)
        (CString.load maxResponseSize c.bytes)).Inside := CString.strcmp_isSome (by omega)
    rw [checkScans_got level hfree hlen, List.forall_mem_cons, and_iff_right hcompare]
    by_cases hr : (ReadResult.got c).Says expected
    · have hterminated := not_unterminated_of_says hlen hr
      rw [if_pos hr]
      simp [hr, hterminated]
    · rw [if_neg hr, logged_format_inside level .err c.fits]
      simp [hr, Unterminated]

theorem sendCommandScans_inside (level : Level) (active : Bool) (s : SocketScript) :
    (∀ x ∈ sendCommandScans level active s, x.Inside) ↔
      (active = false → Connected s → shouldLog level .err = true →
        ¬ Unterminated s.greeting ∧
          (s.greeting.Says openGreeting → ¬ Unterminated s.ackReply)) := by
  have hack : (∀ x ∈ ackScans level (CString.zeros maxResponseSize) s, x.Inside) ↔
      (shouldLog level .err = true → ¬ Unterminated s.ackReply) := by
    rw [ackScans, checkScans_inside level (by decide) (by decide)]
    simp
  rw [sendCommandScans]
  split_ifs with hactive hsock hres hcon
  · simp [hactive]
  · refine iff_of_true (by simp) fun _ h => absurd h.sock (not_le.mpr hsock)
  · refine iff_of_true (by simp) fun _ h => absurd h.resolved (not_le.mpr hres)
  · refine iff_of_true (by simp) fun _ h => absurd h.connected (not_le.mpr hcon)
  · have hconnected : Connected s := ⟨not_lt.mp hsock, not_lt.mp hres, not_lt.mp hcon⟩
    rw [greetingScans, checkScans_inside level (by decide) (by decide), CString.length_zeros, hack]
    simp only [hactive, hconnected, forall_const]
    constructor
    · intro h hlog
      exact ⟨h.1 hlog, fun hright => h.2 hright hlog⟩
    · intro h
      exact ⟨fun hlog => (h hlog).1, fun hright hlog => (h hlog).2 hright⟩

theorem load_cons {b : UInt8} {bs : Bytes} (n : ℕ) :
    CString.load n (b :: bs) = b :: (bs ++ (CString.zeros n).drop (bs.length + 1)) := rfl

theorem strncmp_digit (b : UInt8) (bs : Bytes) (n : ℕ) (c : Command) :
    CString.strncmp (CString.load n (b :: bs)) (CString.literal [digit c]) 1 = some 0 ↔
      b = digit c :=
  CString.strncmp_one_iff b (digit c) _ _

theorem strncmp_digit_inside {b : UInt8} {bs : Bytes} (n : ℕ) (c : Command) :
    (Scan.strncmp (CString.load n (b :: bs)) (CString.literal [digit c]) 1).Inside := by
  rw [Scan.Inside, load_cons, CString.literal, List.cons_append, CString.strncmp_one]
  split_ifs
  · rfl
  · rfl

theorem startsWith_cons {b : UInt8} {bs : Bytes} :
    StartsWithCommand (b :: bs) ↔ b = digit .off ∨ b = digit .on := by
  constructor
  · intro h
    obtain ⟨c, hc⟩ := h
    have hb : b = digit c := Option.some.inj hc
    cases c with
    | off => exact Or.inl hb
    | on => exact Or.inr hb
  · intro h
    rcases h with rfl | rfl
    · exact ⟨.off, rfl⟩
    · exact ⟨.on, rfl⟩

theorem handleSigioScans_inside (level : Level) (r : FifoRead) :
    (∀ x ∈ handleSigioScans level r, x.Inside) ↔
      (UnterminatedFifo r →
        shouldLog level .debug = false ∧ (shouldLog level .warn = true → r.IsCommand)) := by
  cases r with
  | failed => simp [handleSigioScans, UnterminatedFifo]
  | got bytes fits =>
    cases bytes with
    | nil => simp [handleSigioScans, UnterminatedFifo, FillsWith, fifoCommandSize]
    | cons b bs =>
      have hoff := strncmp_digit b bs fifoCommandSize .off
      have hon := strncmp_digit b bs fifoCommandSize .on
      rw [handleSigioScans]
      dsimp only
      rw [if_neg (by simp), List.forall_mem_append, logged_format_inside level .debug fits,
        List.forall_mem_cons, and_iff_right (strncmp_digit_inside fifoCommandSize .off)]
      have hcommand : (FifoRead.got (b :: bs) fits).IsCommand ↔ b = digit .off ∨ b = digit .on :=
        startsWith_cons
      rw [hcommand, UnterminatedFifo]
      by_cases hb : b = digit .off
      · have hyes : b = digit .off ∨ b = digit .on := Or.inl hb
        rw [if_pos (hoff.mpr hb)]
        by_cases hfills : FillsWith fifoCommandSize (b :: bs) <;> simp [hfills, hyes]
      · rw [if_neg (mt hoff.mp hb), List.forall_mem_cons,
          and_iff_right (strncmp_digit_inside fifoCommandSize .on)]
        by_cases hb' : b = digit .on
        · have hyes : b = digit .off ∨ b = digit .on := Or.inr hb'
          rw [if_pos (hon.mpr hb')]
          by_cases hfills : FillsWith fifoCommandSize (b :: bs) <;> simp [hfills, hyes]
        · rw [if_neg (mt hon.mp hb'), logged_format_inside level .warn fits]
          by_cases hfills : FillsWith fifoCommandSize (b :: bs) <;> simp [hfills, hb, hb']

/-- Every scan stays in its array exactly if no line is logged that formats a buffer
which a read has filled without a NUL. -/
theorem scans_inside_iff (level : Level) (active : Bool) (s : SocketScript) (r : FifoRead) :
    ((∀ x ∈ sendCommandScans level active s, x.Inside) ↔
      (active = false → Connected s → shouldLog level .err = true →
        ¬ Unterminated s.greeting ∧
          (s.greeting.Says openGreeting → ¬ Unterminated s.ackReply))) ∧
      ((∀ x ∈ handleSigioScans level r, x.Inside) ↔
        (UnterminatedFifo r →
          shouldLog level .debug = false ∧ (shouldLog level .warn = true → r.IsCommand))) :=
  ⟨sendCommandScans_inside level active s, handleSigioScans_inside level r⟩

def longGreeting : Chunk := ⟨List.replicate maxResponseSize 0x41, by simp⟩

theorem formats_leave_buffers :
    (¬ ∀ x ∈ sendCommandScans .debug false { greetingScript .failed with greeting := .got longGreeting },
      x.Inside) ∧
      ¬ ∀ x ∈ handleSigioScans .debug (.got [0x30, 0x0A] le_rfl), x.Inside := by
  constructor
  · intro h
    have hfills : Unterminated (.got longGreeting) :=
      ⟨List.length_replicate, by simp [longGreeting]⟩
    have hcon : Connected { greetingScript .failed with greeting := .got longGreeting } :=
      ⟨by decide, by decide, by decide⟩
    exact ((sendCommandScans_inside .debug false _).mp h rfl hcon rfl).1 hfills
  · intro h
    have hfills : UnterminatedFifo (.got [0x30, 0x0A] le_rfl) := ⟨rfl, by decide⟩
    exact absurd ((handleSigioScans_inside .debug _).mp h hfills).1 (by decide)

theorem logged_format (level msg : Level) (buf : Bytes) :
    (∃ b, .format b ∈ logged level msg [.format buf]) ↔ shouldLog level msg = true := by
  rw [logged]
  split_ifs with h
  · simp [h]
  · simp [h]

theorem checkScans_format (level : Level) {expected : Bytes} (hfree : CString.NulFree expected)
    (hlen : expected.length < maxResponseSize) (c : Chunk) (next : List Scan) :
    (∃ b, .format b ∈ checkScans level expected (CString.zeros maxResponseSize) (.got c) next) ↔
      if (ReadResult.got c).Says expected then ∃ b, .format b ∈ next
      else shouldLog level .err = true := by
  rw [checkScans_got level hfree hlen,
    ← logged_format level .err (CString.load maxResponseSize c.bytes)]
  split_ifs
  · simp
  · simp

theorem answerStage_retCode (code response : Bytes) (s : SocketScript) :
    (answerStage code response s).retCode ≠ -5 := by
  unfold answerStage
  cases s.answer with
  | failed => simp
  | got c =>
    intro h
    have hlen : (c.bytes.length : Int) = -5 := h
    omega

theorem ackScans_format (level : Level) (code response : Bytes) (s : SocketScript) :
    (∃ b, .format b ∈ ackScans level (CString.zeros maxResponseSize) s) ↔
      shouldLog level .err = true ∧ (ackStage code response s).retCode = -5 := by
  unfold ackScans ackStage
  cases s.ackReply with
  | failed => simp [checkScans]
  | got c =>
    rw [checkScans_format level (by decide) (by decide)]
    dsimp only
    by_cases hr : (ReadResult.got c).Says ack
    · rw [if_pos hr, if_neg (not_not.mpr ((ack_check c).mpr hr))]
      simp [Exchange.after, answerStage_retCode]
    · rw [if_neg hr, if_pos (mt (ack_check c).mp hr)]
      simp

theorem sendCommandScans_format (level : Level) (host code response : Bytes) (s : SocketScript) :
    (∃ b, .format b ∈ sendCommandScans level false s) ↔
      shouldLog level .err = true ∧ (sendCommand false host code response s).retCode = -5 := by
  have hstage : (∃ b, .format b ∈ greetingScans level (CString.zeros maxResponseSize) s) ↔
      shouldLog level .err = true ∧ (greetingStage code response s).retCode = -5 := by
    unfold greetingScans greetingStage
    rw [CString.length_zeros]
    cases s.greeting with
    | failed => simp [checkScans]
    | got c =>
      rw [checkScans_format level (by decide) (by decide), ackScans_format level code response s]
      dsimp only
      by_cases hr : (ReadResult.got c).Says openGreeting
      · rw [if_pos hr, if_neg (not_not.mpr ((greeting_check c).mpr hr))]
        simp [Exchange.after]
      · rw [if_neg hr, if_pos (mt (greeting_check c).mp hr)]
        simp
  simp only [sendCommandScans, sendCommand, exchange, Bool.false_eq_true, if_false]
  split_ifs
  · simp
  · simp
  · simp
  · rw [hstage]
    simp [Exchange.after]

theorem handleSigio_compares (pipe : Bytes) :
    (handleSigio pipe).callback =
      let got := pipe.take fifoCommandSize
      let buffer := CString.load fifoCommandSize got
      if got.length < 1 then none
      else if CString.strncmp buffer (CString.literal [digit .off]) 1 = some 0 then some .off
      else if CString.strncmp buffer (CString.literal [digit .on]) 1 = some 0 then some .on
      else none := by
  cases pipe with
  | nil => rfl
  | cons b rest =>
    have htake : (b :: rest).take fifoCommandSize = b :: rest.take 1 := rfl
    simp only [handleSigio, htake, strncmp_digit]
    rw [load_cons]
    simp only [List.head?_cons, Option.some.injEq]
    split_ifs <;> rfl

end CecFix.BufferScans
