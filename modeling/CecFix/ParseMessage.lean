import CecFix.Daemon

/-!
# Callbacks that are no messages

`parseCECMessage` and the head of `handleCECCallback`. The message is an
uninitialised local: when `vc_cec_param2message` fails, it holds whatever the stack
held, and `parseCECMessage` formats its payload before it looks at the return
code. A read outside the payload array is undefined behaviour, `none` here.
`vc_cec_param2message` itself is a parameter.
-/

namespace CecFix.Cec

structure CallbackParams where
  reason : UInt32
  param1 : UInt32
  param2 : UInt32
  param3 : UInt32
  param4 : UInt32

/-- `vc_cec_param2message`: its return code, and the struct it leaves. -/
abbrev Param2Message := CallbackParams → VcCecMessage → Int × VcCecMessage

/-- `fmt::format("{:X} ", b)` -/
def formatByte (b : UInt8) : List Char :=
  (Nat.toDigits 16 b.toNat).map Char.toUpper ++ [' ']

def appendBytes (array : Bytes) (content : List Char) (i : ℕ) : ℕ → Option (List Char)
  | 0 => some content
  | left + 1 =>
    match array[i]? with
    | none => none
    | some b => appendBytes array (content ++ formatByte b) (i + 1) left

def getOpcodeString (array : Bytes) (length : ℕ) : Option (List Char) :=
  if length = 0 then some [] else (appendBytes array [] 0 length).map List.dropLast

inductive LogLine where
  | translated (initiator follower : CecAllDevices) (length : ℕ) (content : List Char)
  | notValid

structure Parsed where
  success : Bool
  message : VcCecMessage
  log : LogLine

def parseCECMessage (lib : Param2Message) (message : VcCecMessage) (p : CallbackParams) :
    Option Parsed :=
  let (retval, m) := lib p message
  let success := retval = 0
  match getOpcodeString (List.ofFn m.payload) m.length with
  | none => none
  | some content =>
    if success then some ⟨true, m, .translated m.initiator m.follower m.length content⟩
    else some ⟨false, m, .notValid⟩

structure Behaviour where
  acted : Acted
  log : LogLine

/-- The whole callback, from the content of its uninitialised local on. -/
def callbackFrom (lib : Param2Message) (message : VcCecMessage) (p : CallbackParams) (s : Daemon)
    (net : TvInputs) : Option Behaviour :=
  match parseCECMessage lib message p with
  | none => none
  | some r => some ⟨handleCECCallback (if r.success then some r.message else none) s net, r.log⟩

theorem appendBytes_isSome (array : Bytes) (content : List Char) (i left : ℕ)
    (hi : i ≤ array.length) :
    (appendBytes array content i left).isSome = true ↔ i + left ≤ array.length := by
  induction left generalizing content i with
  | zero => simpa [appendBytes] using hi
  | succ left ih =>
    rw [appendBytes]
    by_cases hlt : i < array.length
    · rw [List.getElem?_eq_getElem hlt]
      have hrest := ih (content ++ formatByte array[i]) (i + 1) hlt
      rw [hrest]
      omega
    · rw [List.getElem?_eq_none (not_lt.mp hlt)]
      simp only [Option.isSome_none, Bool.false_eq_true, false_iff]
      omega

theorem getOpcodeString_isSome (array : Bytes) (length : ℕ) :
    (getOpcodeString array length).isSome = true ↔ length ≤ array.length := by
  rw [getOpcodeString]
  split_ifs with h
  · simp [h]
  · rw [Option.isSome_map, appendBytes_isSome array [] 0 length (Nat.zero_le _), Nat.zero_add]

theorem payloadString_isSome (m : VcCecMessage) :
    (getOpcodeString (List.ofFn m.payload) m.length).isSome = true ↔ m.length ≤ 16 := by
  rw [getOpcodeString_isSome, List.length_ofFn]

/-- On `p` the library reports an error and leaves the struct alone. -/
def Fails (lib : Param2Message) (p : CallbackParams) : Prop :=
  ∀ message, (lib p message).1 ≠ 0 ∧ (lib p message).2 = message

structure NoEffect (lib : Param2Message) (message : VcCecMessage) (p : CallbackParams) (s : Daemon)
    (net : TvInputs) : Prop where
  parsed : ∃ r, parseCECMessage lib message p = some r ∧ r.success = false
  idle : callbackFrom lib message p s net = some ⟨⟨s, []⟩, .notValid⟩

section Fails
variable {lib : Param2Message} {p : CallbackParams} (hfail : Fails lib p) (message : VcCecMessage)
include hfail

theorem parse_fails :
    parseCECMessage lib message p =
      if message.length ≤ 16 then some ⟨false, message, .notValid⟩ else none := by
  obtain ⟨hret, hsame⟩ := hfail message
  have hsome := payloadString_isSome message
  simp only [parseCECMessage, hsame]
  cases hc : getOpcodeString (List.ofFn message.payload) message.length with
  | none =>
    rw [hc] at hsome
    rw [if_neg fun hle => by simpa using hsome.mpr hle]
  | some content =>
    rw [hc] at hsome
    simp [hret, hsome.mp rfl]

theorem callback_fails (s : Daemon) (net : TvInputs) :
    callbackFrom lib message p s net =
      if message.length ≤ 16 then some ⟨⟨s, []⟩, .notValid⟩ else none := by
  rw [callbackFrom, parse_fails hfail]
  by_cases hle : message.length ≤ 16
  · simp [hle, handleCECCallback]
  · simp [hle]

theorem noEffect_iff (s : Daemon) (net : TvInputs) :
    NoEffect lib message p s net ↔ message.length ≤ 16 := by
  constructor
  · intro h
    have hidle := h.idle
    rw [callback_fails hfail] at hidle
    by_contra hlong
    rw [if_neg hlong] at hidle
    cases hidle
  · intro hle
    exact
      { parsed := ⟨⟨false, message, .notValid⟩, by rw [parse_fails hfail, if_pos hle], rfl⟩
        idle := by rw [callback_fails hfail, if_pos hle] }

end Fails

/-- A callback that is no message is without effect, and the same from two contents
of the struct, exactly if neither content has a length beyond the payload. -/
theorem failed_callback_iff (lib : Param2Message) (p : CallbackParams) (hfail : Fails lib p)
    (s : Daemon) (net : TvInputs) (message message' : VcCecMessage) :
    (NoEffect lib message p s net ∧ NoEffect lib message' p s net ∧
        callbackFrom lib message p s net = callbackFrom lib message' p s net) ↔
      message.length ≤ 16 ∧ message'.length ≤ 16 := by
  rw [noEffect_iff hfail, noEffect_iff hfail]
  constructor
  · intro h
    exact ⟨h.1, h.2.1⟩
  · intro h
    rw [callback_fails hfail, callback_fails hfail, if_pos h.1, if_pos h.2]
    exact ⟨h.1, h.2, rfl⟩

def notifications : Param2Message := fun p message =>
  if p.reason &&& 0xFFFF = 0x40 ∨ p.reason &&& 0xFFFF = 0x80 then (-1, message) else (0, message)

def logicalAddressChange : CallbackParams := ⟨0x40, 0, 0, 0, 0⟩

theorem notifications_fails : Fails notifications logicalAddressChange := by
  intro message
  have hnotify : notifications logicalAddressChange message = (-1, message) := if_pos (by decide)
  rw [hnotify]
  exact ⟨Int.neg_ne_zero.mpr (by decide), rfl⟩

def stackContent (length : ℕ) : VcCecMessage := ⟨length, .eTV, .eTV, fun _ => 0xCC⟩

theorem notification_without_effect :
    (NoEffect notifications (stackContent 0) logicalAddressChange (boot (Lan.bootState []))
        unreachable ∧
      NoEffect notifications (stackContent 16) logicalAddressChange (boot (Lan.bootState []))
        unreachable ∧
      callbackFrom notifications (stackContent 0) logicalAddressChange (boot (Lan.bootState []))
          unreachable =
        callbackFrom notifications (stackContent 16) logicalAddressChange (boot (Lan.bootState []))
          unreachable) ↔ (stackContent 0).length ≤ 16 ∧ (stackContent 16).length ≤ 16 :=
  failed_callback_iff notifications logicalAddressChange notifications_fails _ _ _ _

theorem notification_reads_beyond_payload :
    Fails notifications logicalAddressChange ∧
      parseCECMessage notifications (stackContent 0xCCCCCCCC) logicalAddressChange = none := by
  refine ⟨notifications_fails, ?_⟩
  rw [parse_fails notifications_fails]
  exact if_neg (by decide)

end CecFix.Cec
