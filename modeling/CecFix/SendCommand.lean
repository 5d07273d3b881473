import CecFix.CString

/-!
# One exchange with the projector

`sendCommand` of `lan.cpp`, over the results of the system calls it makes. A
`SocketScript` fixes these results for one call, in the order in which the call
meets them; a call that leaves early does not look at the rest. The trace lists
the system calls made. `sendCommand` is atomic here; its single steps, and what
other callers do between them, are modelled apart.

The results of `setsockopt` and of both `send` calls are ignored by the source
and decide nothing here either.
-/

abbrev CecFix.Bytes := List UInt8

namespace CecFix.Lan

def maxResponseSize : ℕ := 4096
def maxRetryCount : ℕ := 5

/-- `OPEN`, "PJ_OK" -/
def openGreeting : Bytes := [0x50, 0x4A, 0x5F, 0x4F, 0x4B]
/-- `REQUEST`, "PJREQ" -/
def request : Bytes := [0x50, 0x4A, 0x52, 0x45, 0x51]
/-- `ACK`, "PJACK" -/
def ack : Bytes := [0x50, 0x4A, 0x41, 0x43, 0x4B]

def onCommand : Bytes := [0x21, 0x89, 0x01, 0x50, 0x57, 0x31, 0x0A]
def offCommand : Bytes := [0x21, 0x89, 0x01, 0x50, 0x57, 0x30, 0x0A]
def onOffAck : Bytes := [0x06, 0x89, 0x01, 0x50, 0x57, 0x0A]
def queryPowerCommand : Bytes := [0x3F, 0x89, 0x01, 0x50, 0x57, 0x0A]
def nullCommand : Bytes := [0x21, 0x89, 0x01, 0x00, 0x00, 0x0A]

structure Chunk where
  bytes : Bytes
  fits : bytes.length ≤ maxResponseSize

theorem openGreeting_fits : openGreeting.length ≤ maxResponseSize := by decide
theorem ack_fits : ack.length ≤ maxResponseSize := by decide
theorem onOffAck_fits : onOffAck.length ≤ maxResponseSize := by decide

inductive ReadResult where
  | failed
  | got (c : Chunk)

structure SocketScript where
  sock : Int
  inetPton : Int
  connectRet : Int
  greeting : ReadResult
  ackReply : ReadResult
  answer : ReadResult

inductive SockEvent where
  | socket (sock : Int)
  | inetPton (host : Bytes)
  | connect
  | read (r : ReadResult)
  | send (bytes : Bytes)
  | close (sock : Int)

structure Exchange where
  retCode : Int
  response : Bytes
  events : List SockEvent

def Exchange.after (es : List SockEvent) (x : Exchange) : Exchange :=
  { x with events := es ++ x.events }

def answerStage (code response : Bytes) (s : SocketScript) : Exchange :=
  match s.answer with
  | .failed => ⟨-4, response, [.send code, .read .failed]⟩
  | .got c => ⟨c.bytes.length, CString.memcpy response c.bytes, [.send code, .read (.got c)]⟩

def ackStage (code response : Bytes) (s : SocketScript) : Exchange :=
  match s.ackReply with
  | .failed => ⟨-4, response, [.send request, .read .failed]⟩
  | .got c =>
    if CString.strcmp (CString.literal ack) (CString.load maxResponseSize c.bytes) ≠ some 0 then
      ⟨-5, response, [.send request, .read (.got c)]⟩
    else (answerStage code response s).after [.send request, .read (.got c)]

def greetingStage (code response : Bytes) (s : SocketScript) : Exchange :=
  match s.greeting with
  | .failed => ⟨-4, response, [.read .failed]⟩
  | .got c =>
    if CString.strcmp (CString.literal openGreeting)
        (CString.load maxResponseSize c.bytes) ≠ some 0 then
      ⟨-5, response, [.read (.got c)]⟩
    else (ackStage code response s).after [.read (.got c)]

def exchange (host code response : Bytes) (s : SocketScript) : Exchange :=
  if s.sock < 0 then ⟨-1, response, [.socket s.sock]⟩
  else if s.inetPton < 1 then ⟨-2, response, [.socket s.sock, .inetPton host]⟩
  else if s.connectRet < 1 then
    ⟨-3, response, [.socket s.sock, .inetPton host, .connect]⟩
  else (greetingStage code response s).after [.socket s.sock, .inetPton host, .connect]

structure SendResult where
  retCode : Int
  response : Bytes
  active : Bool
  events : List SockEvent

def sendCommand (active : Bool) (host code response : Bytes) (s : SocketScript) : SendResult :=
  if active then ⟨-9, response, active, []⟩
  else
    let x := exchange host code response s
    ⟨x.retCode, x.response, false, x.events ++ [.close s.sock]⟩

/-- A read whose bytes, cut at the first NUL, are `w`. -/
def ReadResult.Says (w : Bytes) : ReadResult → Prop
  | .failed => False
  | .got c => CString.text c.bytes = w

instance (w : Bytes) : ∀ r : ReadResult, Decidable (r.Says w)
  | .failed => inferInstanceAs (Decidable False)
  | .got c => inferInstanceAs (Decidable (CString.text c.bytes = w))

structure SocketScript.Opened (s : SocketScript) : Prop where
  sock : 0 ≤ s.sock
  resolved : 1 ≤ s.inetPton
  connected : 1 ≤ s.connectRet
  greeting : s.greeting.Says openGreeting

/-- The handshake succeeds, so that the command bytes are sent. -/
structure SocketScript.Greeted (s : SocketScript) : Prop where
  sock : 0 ≤ s.sock
  resolved : 1 ≤ s.inetPton
  connected : 1 ≤ s.connectRet
  greeting : s.greeting.Says openGreeting
  ackReply : s.ackReply.Says ack

def SocketScript.Answers (s : SocketScript) (c : Chunk) : Prop :=
  s.Greeted ∧ s.answer = .got c

def SocketScript.Completes (s : SocketScript) : Prop := ∃ c, s.Answers c

instance (s : SocketScript) : Decidable s.Opened :=
  decidable_of_iff (0 ≤ s.sock ∧ 1 ≤ s.inetPton ∧ 1 ≤ s.connectRet ∧ s.greeting.Says openGreeting)
    ⟨fun ⟨h₁, h₂, h₃, h₄⟩ => ⟨h₁, h₂, h₃, h₄⟩, fun ⟨h₁, h₂, h₃, h₄⟩ => ⟨h₁, h₂, h₃, h₄⟩⟩

instance (s : SocketScript) : Decidable s.Greeted :=
  decidable_of_iff (0 ≤ s.sock ∧ 1 ≤ s.inetPton ∧ 1 ≤ s.connectRet ∧
      s.greeting.Says openGreeting ∧ s.ackReply.Says ack)
    ⟨fun ⟨h₁, h₂, h₃, h₄, h₅⟩ => ⟨h₁, h₂, h₃, h₄, h₅⟩,
      fun ⟨h₁, h₂, h₃, h₄, h₅⟩ => ⟨h₁, h₂, h₃, h₄, h₅⟩⟩

instance (s : SocketScript) : Decidable s.Completes :=
  match h : s.answer with
  | .failed => isFalse (by rintro ⟨c, -, hc⟩; rw [h] at hc; cases hc)
  | .got c => decidable_of_iff s.Greeted
      ⟨fun hg => ⟨c, hg, h⟩, fun ⟨_, hg, _⟩ => hg⟩

theorem SocketScript.Greeted.opened {s : SocketScript} (h : s.Greeted) : s.Opened :=
  ⟨h.sock, h.resolved, h.connected, h.greeting⟩

theorem ack_check (c : Chunk) :
    CString.strcmp (CString.literal ack) (CString.load maxResponseSize c.bytes) = some 0 ↔
      (ReadResult.got c).Says ack :=
  CString.strcmp_load (by decide) c.fits (by decide)

theorem greeting_check (c : Chunk) :
    CString.strcmp (CString.literal openGreeting) (CString.load maxResponseSize c.bytes) = some 0 ↔
      (ReadResult.got c).Says openGreeting :=
  CString.strcmp_load (by decide) c.fits (by decide)

def greetingScript (answer : ReadResult) : SocketScript where
  sock := 3
  inetPton := 1
  connectRet := 1
  greeting := .got ⟨openGreeting, openGreeting_fits⟩
  ackReply := .got ⟨ack, ack_fits⟩
  answer := answer

theorem greetingScript_greeted (answer : ReadResult) : (greetingScript answer).Greeted where
  sock := Int.natCast_nonneg 3
  resolved := Int.le_refl 1
  connected := Int.le_refl 1
  greeting := rfl
  ackReply := rfl

def handshakeEvents (host code : Bytes) (s : SocketScript) : List SockEvent :=
  [.socket s.sock, .inetPton host, .connect, .read s.greeting, .send request, .read s.ackReply,
    .send code]

theorem answerStage_failed {code response : Bytes} {s : SocketScript} (h : s.answer = .failed) :
    answerStage code response s = ⟨-4, response, [.send code, .read .failed]⟩ := by
  simp [answerStage, h]

theorem answerStage_got {code response : Bytes} {s : SocketScript} {c : Chunk}
    (h : s.answer = .got c) : answerStage code response s =
      ⟨c.bytes.length, CString.memcpy response c.bytes, [.send code, .read (.got c)]⟩ := by
  simp [answerStage, h]

theorem ackStage_of_says {code response : Bytes} {s : SocketScript} (h : s.ackReply.Says ack) :
    ackStage code response s =
      (answerStage code response s).after [.send request, .read s.ackReply] := by
  cases har : s.ackReply with
  | failed =>
    rw [har] at h
    exact h.elim
  | got a =>
    rw [har] at h
    simp [ackStage, har, (ack_check a).mpr h]

theorem greetingStage_of_says {code response : Bytes} {s : SocketScript}
    (h : s.greeting.Says openGreeting) :
    greetingStage code response s = (ackStage code response s).after [.read s.greeting] := by
  cases hgr : s.greeting with
  | failed =>
    rw [hgr] at h
    exact h.elim
  | got g =>
    rw [hgr] at h
    simp [greetingStage, hgr, (greeting_check g).mpr h]

theorem exchange_of_opened {host code response : Bytes} {s : SocketScript} (h : s.Opened) :
    exchange host code response s = (ackStage code response s).after
      [.socket s.sock, .inetPton host, .connect, .read s.greeting] := by
  obtain ⟨hsock, hres, hcon, hg⟩ := h
  rw [exchange, if_neg (by omega), if_neg (by omega), if_neg (by omega),
    greetingStage_of_says hg]
  rfl

theorem exchange_of_greeted {host code response : Bytes} {s : SocketScript} (h : s.Greeted) :
    exchange host code response s = (answerStage code response s).after
      [.socket s.sock, .inetPton host, .connect, .read s.greeting, .send request,
        .read s.ackReply] := by
  rw [exchange_of_opened h.opened, ackStage_of_says h.ackReply]
  rfl

theorem exchange_of_not_greeted (host code response : Bytes) {s : SocketScript}
    (h : ¬ s.Greeted) :
    (exchange host code response s).retCode < 0 ∧
      (exchange host code response s).response = response ∧
      ∀ b, .send b ∈ (exchange host code response s).events → b = request := by
  rw [exchange]
  split_ifs with hsock hres hcon
  · simp
  · simp
  · simp
  · unfold greetingStage
    cases hgr : s.greeting with
    | failed => simp [Exchange.after]
    | got g =>
      by_cases hg : (ReadResult.got g).Says openGreeting
      · cases har : s.ackReply with
        | failed => simp [ackStage, har, (greeting_check g).mpr hg, Exchange.after]
        | got a =>
          have ha : ¬ (ReadResult.got a).Says ack := by
            intro ha
            exact h ⟨by omega, by omega, by omega, hgr ▸ hg, har ▸ ha⟩
          simp [ackStage, har, (greeting_check g).mpr hg, mt (ack_check a).mp ha, Exchange.after]
      · simp [mt (greeting_check g).mp hg, Exchange.after]

theorem exchange_of_not_opened {host code response : Bytes} {s : SocketScript}
    (h : ¬ s.Opened) (b : Bytes) : .send b ∉ (exchange host code response s).events := by
  rw [exchange]
  split_ifs with hsock hres hcon
  · simp
  · simp
  · simp
  · unfold greetingStage
    cases hgr : s.greeting with
    | failed => simp [Exchange.after]
    | got g =>
      have hg : ¬ (ReadResult.got g).Says openGreeting := by
        intro hg
        exact h ⟨by omega, by omega, by omega, hgr ▸ hg⟩
      simp [mt (greeting_check g).mp hg, Exchange.after]

theorem sendCommand_active {host code response : Bytes} {s : SocketScript} :
    sendCommand true host code response s = ⟨-9, response, true, []⟩ := rfl

theorem sendCommand_answers {host code response : Bytes} {s : SocketScript} {c : Chunk}
    (h : s.Answers c) : sendCommand false host code response s =
      ⟨c.bytes.length, CString.memcpy response c.bytes, false,
        handshakeEvents host code s ++ [.read (.got c), .close s.sock]⟩ := by
  simp [sendCommand, exchange_of_greeted h.1, answerStage_got h.2, Exchange.after, handshakeEvents]

theorem sendCommand_unanswered {host code response : Bytes} {s : SocketScript}
    (hg : s.Greeted) (h : s.answer = .failed) : sendCommand false host code response s =
      ⟨-4, response, false, handshakeEvents host code s ++ [.read .failed, .close s.sock]⟩ := by
  simp [sendCommand, exchange_of_greeted hg, answerStage_failed h, Exchange.after, handshakeEvents]

theorem sendCommand_of_not_completes (host code response : Bytes) {s : SocketScript}
    (h : ¬ s.Completes) :
    (sendCommand false host code response s).retCode < 0 ∧
      (sendCommand false host code response s).response = response ∧
      (sendCommand false host code response s).active = false := by
  by_cases hg : s.Greeted
  · cases ha : s.answer with
    | failed => simp [sendCommand_unanswered hg ha]
    | got c => exact absurd ⟨c, hg, ha⟩ h
  · obtain ⟨hr, hb, -⟩ := exchange_of_not_greeted host code response hg
    exact ⟨hr, hb, rfl⟩

theorem sendCommand_retCode_nonneg_iff {host code response : Bytes} {s : SocketScript} :
    0 ≤ (sendCommand false host code response s).retCode ↔ s.Completes := by
  constructor
  · intro h
    by_contra hn
    exact absurd (sendCommand_of_not_completes host code response hn).1 (by omega)
  · intro hcomp
    obtain ⟨c, hc⟩ := hcomp
    simp [sendCommand_answers hc]

theorem sendCommand_send_mem {host code response b : Bytes} {s : SocketScript} :
    .send b ∈ (sendCommand false host code response s).events ↔
      .send b ∈ (exchange host code response s).events := by
  simp [sendCommand]

theorem sendCommand_silent_iff {host code response : Bytes} {s : SocketScript} :
    (∀ b, .send b ∉ (sendCommand false host code response s).events) ↔ ¬ s.Opened := by
  constructor
  · intro hsilent hopen
    apply hsilent request
    rw [sendCommand_send_mem, exchange_of_opened hopen]
    unfold ackStage
    split
    · simp [Exchange.after]
    · split_ifs <;> simp [Exchange.after]
  · intro hclosed b
    rw [sendCommand_send_mem]
    exact exchange_of_not_opened hclosed b

@[simp] theorem sendCommand_flag {host code response : Bytes} {s : SocketScript} :
    (sendCommand false host code response s).active = false := rfl

theorem exchange_sends {host code response b : Bytes} {s : SocketScript}
    (h : .send b ∈ (exchange host code response s).events) : b = request ∨ b = code := by
  by_cases hg : s.Greeted
  · rw [exchange_of_greeted hg] at h
    cases ha : s.answer with
    | failed => simpa [answerStage_failed ha, Exchange.after] using h
    | got c => simpa [answerStage_got ha, Exchange.after] using h
  · exact Or.inl ((exchange_of_not_greeted host code response hg).2.2 b h)

theorem sendCommand_sends_iff {host code response : Bytes} {s : SocketScript}
    (hcode : code ≠ request) :
    .send code ∈ (sendCommand false host code response s).events ↔ s.Greeted := by
  constructor
  · intro h
    by_contra hg
    have hs := (exchange_of_not_greeted host code response hg).2.2
    exact hcode (hs code (sendCommand_send_mem.mp h))
  · intro hg
    cases ha : s.answer with
    | failed => simp [sendCommand_unanswered hg ha, handshakeEvents]
    | got c => simp [sendCommand_answers ⟨hg, ha⟩, handshakeEvents]

def isSocket : SockEvent → Bool
  | .socket _ => true
  | _ => false

theorem answerStage_opens (code response : Bytes) (s : SocketScript) :
    (answerStage code response s).events.countP isSocket = 0 := by
  cases ha : s.answer with
  | failed => simp [answerStage, ha, isSocket]
  | got c => simp [answerStage, ha, isSocket]

theorem ackStage_opens (code response : Bytes) (s : SocketScript) :
    (ackStage code response s).events.countP isSocket = 0 := by
  have hanswer := answerStage_opens code response s
  cases ha : s.ackReply with
  | failed => simp [ackStage, ha, isSocket]
  | got c =>
    simp only [ackStage, ha]
    split_ifs
    · simp [isSocket]
    · simpa [Exchange.after, List.countP_cons, isSocket] using hanswer

theorem greetingStage_opens (code response : Bytes) (s : SocketScript) :
    (greetingStage code response s).events.countP isSocket = 0 := by
  have hack := ackStage_opens code response s
  cases hg : s.greeting with
  | failed => simp [greetingStage, hg, isSocket]
  | got c =>
    simp only [greetingStage, hg]
    split_ifs
    · simp [isSocket]
    · simpa [Exchange.after, List.countP_cons, isSocket] using hack

theorem sendCommand_opens (host code response : Bytes) (s : SocketScript) :
    (sendCommand false host code response s).events.countP isSocket = 1 := by
  have hgreeting := greetingStage_opens code response s
  rw [sendCommand, if_neg Bool.false_ne_true]
  simp only [exchange]
  split_ifs
  · rfl
  · rfl
  · rfl
  · simp [Exchange.after, List.countP_cons, isSocket, hgreeting]

end CecFix.Lan
