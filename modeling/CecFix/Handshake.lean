import CecFix.LogMarks
import CecFix.SendCommand

/-!
# `sendCommand` and its buffers

The same function as in `CecFix.SendCommand`, with what that model leaves out: the one
buffer that the greeting and the acknowledgement are read into, the `memset`s between
them, the uninitialised `response_buffer` of the answer, and the results of the `send`
calls, which the source ignores. `abstracts` says that nothing of this shows: forgetting
it gives `sendCommand` again.

What a call does is then fixed by its script: `greetingCalls`, `handshakeCalls` and
`commandCalls` are the system calls it makes when it gets past the greeting, the
acknowledgement and the command.
-/

namespace CecFix.Handshake
open Lan

inductive Syscall where
  | socket (sock : Int)
  | inetPton (host : Bytes)
  | connect
  | read (r : ReadResult)
  | send (bytes : Bytes) (result : Int)
  | close (sock : Int)

/-- What the system makes of one call: `responseBuffer` is what its array holds before
anything is read into it. -/
structure CallScript extends SocketScript where
  requestSent : Int
  codeSent : Int
  responseBuffer : Bytes
  responseBuffer_length : responseBuffer.length = maxResponseSize

structure Left where
  retCode : Int
  response : Bytes
  calls : List Syscall

def Left.after (es : List Syscall) (x : Left) : Left := { x with calls := es ++ x.calls }

def answerStage (code response : Bytes) (s : CallScript) : Left :=
  match s.answer with
  | .failed => ⟨-4, response, [.send code s.codeSent, .read .failed]⟩
  | .got c =>
    let responseBuffer := CString.memcpy s.responseBuffer c.bytes
    let respLen := c.bytes.length
    ⟨respLen, CString.memcpy response (responseBuffer.take respLen),
      [.send code s.codeSent, .read (.got c)]⟩

def ackStage (code response buffer : Bytes) (s : CallScript) : Left :=
  match s.ackReply with
  | .failed => ⟨-4, response, [.send request s.requestSent, .read .failed]⟩
  | .got c =>
    let buffer := CString.memcpy buffer c.bytes
    if CString.strcmp (CString.literal ack) buffer ≠ some 0 then
      ⟨-5, response, [.send request s.requestSent, .read (.got c)]⟩
    else
      (answerStage code response s).after [.send request s.requestSent, .read (.got c)]

def greetingStage (code response buffer : Bytes) (s : CallScript) : Left :=
  match s.greeting with
  | .failed => ⟨-4, response, [.read .failed]⟩
  | .got c =>
    let buffer := CString.memcpy buffer c.bytes
    if CString.strcmp (CString.literal openGreeting) buffer ≠ some 0 then
      ⟨-5, response, [.read (.got c)]⟩
    else
      -- memset(buffer, 0, sizeof(buffer))
      let buffer := CString.zeros buffer.length
      (ackStage code response buffer s).after [.read (.got c)]

def block (host code response : Bytes) (s : CallScript) : Left :=
  let buffer := CString.zeros maxResponseSize
  if s.sock < 0 then ⟨-1, response, [.socket s.sock]⟩
  else if s.inetPton < 1 then ⟨-2, response, [.socket s.sock, .inetPton host]⟩
  else if s.connectRet < 1 then ⟨-3, response, [.socket s.sock, .inetPton host, .connect]⟩
  else
    (greetingStage code response buffer s).after [.socket s.sock, .inetPton host, .connect]

structure Returned where
  retCode : Int
  response : Bytes
  hasActiveConnection : Bool
  calls : List Syscall

def sendCommandBuffered (hasActiveConnection : Bool) (host code response : Bytes)
    (s : CallScript) : Returned :=
  if hasActiveConnection then ⟨-9, response, hasActiveConnection, []⟩
  else
    let x := block host code response s
    ⟨x.retCode, x.response, false, x.calls ++ [.close s.sock]⟩

def Syscall.event : Syscall → SockEvent
  | .socket sock => .socket sock
  | .inetPton host => .inetPton host
  | .connect => .connect
  | .read r => .read r
  | .send bytes _ => .send bytes
  | .close sock => .close sock

def Left.exchange (x : Left) : Exchange := ⟨x.retCode, x.response, x.calls.map Syscall.event⟩

section Abstraction
variable (host code response : Bytes) (s : CallScript)

@[simp] theorem exchange_after (es : List Syscall) (x : Left) :
    (x.after es).exchange = x.exchange.after (es.map Syscall.event) := by
  simp [Left.after, Left.exchange, Exchange.after]

theorem answerStage_exchange :
    (answerStage code response s).exchange = Lan.answerStage code response s.toSocketScript := by
  unfold answerStage Lan.answerStage
  cases s.answer with
  | failed => rfl
  | got c => simp [Left.exchange, CString.memcpy, Syscall.event]

theorem ackStage_exchange :
    (ackStage code response (CString.zeros maxResponseSize) s).exchange =
      Lan.ackStage code response s.toSocketScript := by
  unfold ackStage Lan.ackStage
  cases s.ackReply with
  | failed => rfl
  | got c =>
    dsimp only
    rw [← CString.load]
    split_ifs
    · rfl
    · rw [exchange_after, answerStage_exchange]
      rfl

theorem greetingStage_exchange :
    (greetingStage code response (CString.zeros maxResponseSize) s).exchange =
      Lan.greetingStage code response s.toSocketScript := by
  unfold greetingStage Lan.greetingStage
  cases s.greeting with
  | failed => rfl
  | got c =>
    dsimp only
    rw [← CString.load, CString.length_load c.fits]
    split_ifs
    · rfl
    · rw [exchange_after, ackStage_exchange]
      rfl

theorem block_exchange :
    (block host code response s).exchange = exchange host code response s.toSocketScript := by
  unfold block exchange
  dsimp only
  split_ifs
  · rfl
  · rfl
  · rfl
  · rw [exchange_after, greetingStage_exchange]
    rfl

theorem abstracts (active : Bool) :
    sendCommand active host code response s.toSocketScript =
      ⟨(sendCommandBuffered active host code response s).retCode,
        (sendCommandBuffered active host code response s).response,
        (sendCommandBuffered active host code response s).hasActiveConnection,
        (sendCommandBuffered active host code response s).calls.map Syscall.event⟩ := by
  cases active with
  | true => rfl
  | false =>
    have hblock := block_exchange host code response s
    simp only [sendCommand, sendCommandBuffered, ← hblock]
    simp [Left.exchange, Syscall.event]

end Abstraction

def CallScript.greetingCalls (host : Bytes) (s : CallScript) : List Syscall :=
  [.socket s.sock, .inetPton host, .connect, .read s.greeting]

def CallScript.handshakeCalls (host : Bytes) (s : CallScript) : List Syscall :=
  s.greetingCalls host ++ [.send request s.requestSent, .read s.ackReply]

def CallScript.commandCalls (host code : Bytes) (s : CallScript) : List Syscall :=
  s.handshakeCalls host ++ [.send code s.codeSent, .read s.answer]

def Syscall.opens (fd : Int) : Syscall → Bool
  | .socket sock => sock == fd
  | _ => false

def Syscall.closes (fd : Int) : Syscall → Bool
  | .close sock => sock == fd
  | _ => false

/-- What is wanted of a call that meets the script `s`. Bytes count as sent when `send` is
called with them, whatever it returns. -/
structure Atomic (host code response : Bytes) (s : CallScript) (r : Returned) : Prop where
  script : ∃ n, r.calls = (s.commandCalls host code).take n ++ [.close s.sock]
  order : ∀ before bytes result after, r.calls = before ++ .send bytes result :: after →
    (s.Opened ∧ bytes = request ∧ before = s.greetingCalls host) ∨
      (s.Greeted ∧ bytes = code ∧ before = s.handshakeCalls host)
  whole : s.Greeted → r.calls = s.commandCalls host code ++ [.close s.sock]
  answered : ∀ n : ℕ, r.retCode = n ↔ ∃ c, s.Answers c ∧ c.bytes.length = n
  overwritten : ∀ c, s.Answers c → r.response = c.bytes ++ response.drop c.bytes.length
  kept : r.retCode < 0 → r.response = response
  released : r.hasActiveConnection = false
  closed : ∀ fd, 0 ≤ fd → r.calls.countP (Syscall.opens fd) ≤ 1 ∧
    r.calls.countP (Syscall.closes fd) = r.calls.countP (Syscall.opens fd)

section Exits
variable (host code response : Bytes) (s : CallScript)

inductive Exit : Returned → Prop
  | answered (c : Chunk) (h : s.Answers c) :
    Exit ⟨c.bytes.length, c.bytes ++ response.drop c.bytes.length, false,
      s.commandCalls host code ++ [.close s.sock]⟩
  | unanswered (h : s.Greeted) (hanswer : s.answer = .failed) :
    Exit ⟨-4, response, false, s.commandCalls host code ++ [.close s.sock]⟩
  | refused (h : s.Opened) (hack : ¬ s.Greeted) (ret : Int) (hret : ret < 0) :
    Exit ⟨ret, response, false, s.handshakeCalls host ++ [.close s.sock]⟩
  | unopened (h : ¬ s.Opened) (ret : Int) (hret : ret < 0) (n : ℕ) (hn : n < 4) :
    Exit ⟨ret, response, false, (s.greetingCalls host).take (n + 1) ++ [.close s.sock]⟩

theorem ackStage_cases : (s.ackReply.Says ack ∧
      ackStage code response (CString.zeros maxResponseSize) s = (answerStage code response s).after
        [.send request s.requestSent, .read s.ackReply]) ∨
    (¬ s.ackReply.Says ack ∧ ∃ ret : Int, ret < 0 ∧
      ackStage code response (CString.zeros maxResponseSize) s =
        ⟨ret, response, [.send request s.requestSent, .read s.ackReply]⟩) := by
  unfold ackStage
  cases s.ackReply with
  | failed => exact Or.inr ⟨id, -4, by decide, rfl⟩
  | got c =>
    dsimp only
    rw [← CString.load]
    split_ifs with hack
    · exact Or.inr ⟨mt (ack_check c).mpr hack, -5, by decide, rfl⟩
    · exact Or.inl ⟨(ack_check c).mp (not_not.mp hack), rfl⟩

theorem greetingStage_cases : (s.greeting.Says openGreeting ∧
      greetingStage code response (CString.zeros maxResponseSize) s =
        (ackStage code response (CString.zeros maxResponseSize) s).after [.read s.greeting]) ∨
    (¬ s.greeting.Says openGreeting ∧ ∃ ret : Int, ret < 0 ∧
      greetingStage code response (CString.zeros maxResponseSize) s =
        ⟨ret, response, [.read s.greeting]⟩) := by
  unfold greetingStage
  cases s.greeting with
  | failed => exact Or.inr ⟨id, -4, by decide, rfl⟩
  | got c =>
    dsimp only
    rw [← CString.load, CString.length_load c.fits]
    split_ifs with hopen
    · exact Or.inr ⟨mt (greeting_check c).mpr hopen, -5, by decide, rfl⟩
    · exact Or.inl ⟨(greeting_check c).mp (not_not.mp hopen), rfl⟩

theorem sendCommandBuffered_greeted (h : s.Greeted) :
    Exit host code response s ⟨(answerStage code response s).retCode,
      (answerStage code response s).response, false,
      s.handshakeCalls host ++ (answerStage code response s).calls ++ [.close s.sock]⟩ := by
  unfold answerStage
  cases hanswer : s.answer with
  | failed => simpa [CallScript.commandCalls, hanswer] using Exit.unanswered h hanswer
  | got c =>
    simpa [CallScript.commandCalls, hanswer, CString.memcpy] using Exit.answered c ⟨h, hanswer⟩

theorem sendCommandBuffered_exit :
    Exit host code response s (sendCommandBuffered false host code response s) := by
  rw [sendCommandBuffered, if_neg Bool.false_ne_true]
  unfold block
  dsimp only
  split_ifs with hsock hres hcon
  · exact .unopened (fun h => absurd h.sock (by omega)) (-1) (by decide) 0 (by decide)
  · exact .unopened (fun h => absurd h.resolved (by omega)) (-2) (by decide) 1 (by decide)
  · exact .unopened (fun h => absurd h.connected (by omega)) (-3) (by decide) 2 (by decide)
  · rcases greetingStage_cases code response s with ⟨hopen, hg⟩ | ⟨hopen, ret, hret, hg⟩
    · have hopened : s.Opened := ⟨by omega, by omega, by omega, hopen⟩
      rcases ackStage_cases code response s with ⟨hack, ha⟩ | ⟨hack, ret, hret, ha⟩
      · rw [hg, ha]
        exact sendCommandBuffered_greeted host code response s
          ⟨by omega, by omega, by omega, hopen, hack⟩
      · rw [hg, ha]
        exact .refused hopened (fun h => hack h.ackReply) ret hret
    · rw [hg]
      exact .unopened (fun h => hopen h.greeting) ret hret 3 (by decide)

end Exits

section Wanted
variable {host code response : Bytes} {s : CallScript} {r : Returned}

theorem Exit.script (h : Exit host code response s r) :
    ∃ n, r.calls = (s.commandCalls host code).take (n + 1) ++ [.close s.sock] := by
  cases h with
  | answered c h => exact ⟨7, rfl⟩
  | unanswered h hanswer => exact ⟨7, rfl⟩
  | refused h hack ret hret => exact ⟨5, rfl⟩
  | unopened h ret hret n hn =>
    refine ⟨n, ?_⟩
    have hlen : n + 1 ≤ (s.greetingCalls host).length := hn
    simp only [CallScript.commandCalls, CallScript.handshakeCalls, List.append_assoc,
      List.take_append_of_le_length hlen]

theorem greetingCalls_silent {n : ℕ} {bytes : Bytes} {result : Int} :
    .send bytes result ∉ (s.greetingCalls host).take n ++ [.close s.sock] := by
  intro h
  rcases List.mem_append.mp h with h | h
  · exact absurd (List.mem_of_mem_take h) (by simp [CallScript.greetingCalls])
  · exact absurd h (by simp)

theorem handshakeCalls_cut {before after : List Syscall} {bytes : Bytes} {result : Int}
    (h : s.handshakeCalls host ++ [.close s.sock] = before ++ .send bytes result :: after) :
    bytes = request ∧ before = s.greetingCalls host := by
  have hcut : before = s.greetingCalls host ∧ (bytes = request ∧ result = s.requestSent) ∧
      after = [.read s.ackReply, .close s.sock] := by
    simpa [CallScript.handshakeCalls, CallScript.greetingCalls, List.cons_eq_append_iff] using h
  exact ⟨hcut.2.1.1, hcut.1⟩

theorem commandCalls_cut {before after : List Syscall} {bytes : Bytes} {result : Int}
    (h : s.commandCalls host code ++ [.close s.sock] = before ++ .send bytes result :: after) :
    (bytes = request ∧ before = s.greetingCalls host) ∨
      (bytes = code ∧ before = s.handshakeCalls host) := by
  have hcut : ∃ rest, before = s.greetingCalls host ++ rest ∧
      ((rest = [] ∧ (bytes = request ∧ result = s.requestSent) ∧
          after = [.read s.ackReply, .send code s.codeSent, .read s.answer, .close s.sock]) ∨
        (rest = [.send request s.requestSent, .read s.ackReply] ∧
          (bytes = code ∧ result = s.codeSent) ∧ after = [.read s.answer, .close s.sock])) := by
    simpa [CallScript.commandCalls, CallScript.handshakeCalls, CallScript.greetingCalls,
      List.cons_eq_append_iff] using h
  obtain ⟨rest, rfl, ⟨rfl, hsend, -⟩ | ⟨rfl, hsend, -⟩⟩ := hcut
  · exact Or.inl ⟨hsend.1, List.append_nil _⟩
  · exact Or.inr ⟨hsend.1, rfl⟩

theorem Exit.order (h : Exit host code response s r) {before after : List Syscall} {bytes : Bytes}
    {result : Int} (hcut : r.calls = before ++ .send bytes result :: after) :
    (s.Opened ∧ bytes = request ∧ before = s.greetingCalls host) ∨
      (s.Greeted ∧ bytes = code ∧ before = s.handshakeCalls host) := by
  cases h with
  | answered c h =>
    rcases commandCalls_cut hcut with hsend | hsend
    · exact Or.inl ⟨h.1.opened, hsend⟩
    · exact Or.inr ⟨h.1, hsend⟩
  | unanswered h hanswer =>
    rcases commandCalls_cut hcut with hsend | hsend
    · exact Or.inl ⟨h.opened, hsend⟩
    · exact Or.inr ⟨h, hsend⟩
  | refused h hack ret hret => exact Or.inl ⟨h, handshakeCalls_cut hcut⟩
  | unopened h ret hret n hn =>
    have hmem : .send bytes result ∈ before ++ .send bytes result :: after :=
      List.mem_append_right _ List.mem_cons_self
    rw [← hcut] at hmem
    exact absurd hmem greetingCalls_silent

theorem Exit.whole (h : Exit host code response s r) (hs : s.Greeted) :
    r.calls = s.commandCalls host code ++ [.close s.sock] := by
  cases h with
  | answered c h => rfl
  | unanswered h hanswer => rfl
  | refused h hack ret hret => exact absurd hs hack
  | unopened h ret hret n hn => exact absurd hs.opened h

theorem Exit.result (h : Exit host code response s r) :
    (∃ c, s.Answers c ∧ r.retCode = c.bytes.length ∧
        r.response = c.bytes ++ response.drop c.bytes.length) ∨
      (¬ s.Completes ∧ r.retCode < 0 ∧ r.response = response) := by
  cases h with
  | answered c h => exact Or.inl ⟨c, h, rfl, rfl⟩
  | unanswered h hanswer =>
    refine Or.inr ⟨?_, (by decide : (-4 : Int) < 0), rfl⟩
    rintro ⟨c, -, hc⟩
    rw [hanswer] at hc
    cases hc
  | refused h hack ret hret => exact Or.inr ⟨fun ⟨c, hc⟩ => hack hc.1, hret, rfl⟩
  | unopened h ret hret n hn => exact Or.inr ⟨fun ⟨c, hc⟩ => h hc.1.opened, hret, rfl⟩

theorem Exit.answered_iff (h : Exit host code response s r) (n : ℕ) :
    r.retCode = n ↔ ∃ c, s.Answers c ∧ c.bytes.length = n := by
  rcases h.result with ⟨c, hc, hret, -⟩ | ⟨hcomp, hneg, -⟩
  · rw [hret, Int.natCast_inj]
    constructor
    · exact fun hn => ⟨c, hc, hn⟩
    · rintro ⟨c', hc', hn⟩
      cases hc.2.symm.trans hc'.2
      exact hn
  · refine iff_of_false (fun hn => ?_) fun ⟨c, hc, _⟩ => hcomp ⟨c, hc⟩
    omega

theorem Exit.overwritten (h : Exit host code response s r) {c : Chunk} (hc : s.Answers c) :
    r.response = c.bytes ++ response.drop c.bytes.length := by
  rcases h.result with ⟨c', hc', -, hresponse⟩ | ⟨hcomp, -, -⟩
  · cases hc.2.symm.trans hc'.2
    exact hresponse
  · exact absurd ⟨c, hc⟩ hcomp

theorem Exit.kept (h : Exit host code response s r) (hneg : r.retCode < 0) :
    r.response = response := by
  rcases h.result with ⟨c, -, hret, -⟩ | ⟨-, -, hresponse⟩
  · omega
  · exact hresponse

def bracketed (sock : Int) (mid : List Syscall) : List Syscall :=
  .socket sock :: mid ++ [.close sock]

theorem bracket_closed {fd sock : Int} {mid : List Syscall}
    (hmid : ∀ e ∈ mid, e.opens fd = false ∧ e.closes fd = false) :
    (bracketed sock mid).countP (Syscall.opens fd) ≤ 1 ∧
      (bracketed sock mid).countP (Syscall.closes fd) =
        (bracketed sock mid).countP (Syscall.opens fd) := by
  have hopens : mid.countP (Syscall.opens fd) = 0 :=
    List.countP_eq_zero.mpr fun e he => by simp [(hmid e he).1]
  have hcloses : mid.countP (Syscall.closes fd) = 0 :=
    List.countP_eq_zero.mpr fun e he => by simp [(hmid e he).2]
  by_cases hfd : sock = fd
  · simp [bracketed, hopens, hcloses, Syscall.opens, Syscall.closes, hfd]
  · simp [bracketed, hopens, hcloses, Syscall.opens, Syscall.closes, hfd]

theorem Exit.closed (h : Exit host code response s r) (fd : Int) :
    r.calls.countP (Syscall.opens fd) ≤ 1 ∧
      r.calls.countP (Syscall.closes fd) = r.calls.countP (Syscall.opens fd) := by
  obtain ⟨n, hcalls⟩ := h.script
  have hneither : ∀ e ∈ (s.commandCalls host code).tail,
      e.opens fd = false ∧ e.closes fd = false := by
    simp [CallScript.commandCalls, CallScript.handshakeCalls, CallScript.greetingCalls,
      Syscall.opens, Syscall.closes]
  rw [hcalls]
  exact bracket_closed fun e he => hneither e (List.mem_of_mem_take he)

theorem sendCommand_atomic (host code response : Bytes) (s : CallScript) :
    Atomic host code response s (sendCommandBuffered false host code response s) := by
  have h := sendCommandBuffered_exit host code response s
  obtain ⟨n, hcalls⟩ := h.script
  exact
    { script := ⟨n + 1, hcalls⟩
      order := fun before bytes result after => h.order
      whole := h.whole
      answered := h.answered_iff
      overwritten := fun c => h.overwritten
      kept := h.kept
      released := rfl
      closed := fun fd _ => h.closed fd }

end Wanted

end CecFix.Handshake
