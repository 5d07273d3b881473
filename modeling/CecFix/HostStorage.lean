import CecFix.PowerStatus
import CecFix.Transducer

/-!
# The projector's address in `HOST`

`setHost` copies its argument with `strcpy` into an array of 15 bytes. The longest
dotted quad has 15 characters, and its NUL is the sixteenth byte: it is stored in
whatever lies behind `HOST`, and it is there for whoever that belongs to to overwrite.
Every shorter address ends within the array, out of reach of all other code.

Other objects are memory behind `HOST` here, and other code is any sequence of stores to
them between the calls.
-/

namespace CecFix.HostStorage
open Lan

def hostSize : ℕ := 15

def dot : UInt8 := 0x2E

def isDigit (b : UInt8) : Bool := 0x30 ≤ b && b ≤ 0x39

def decimal (field : Bytes) : ℕ := field.foldl (fun n b => 10 * n + (b.toNat - 0x30)) 0

def isField (field : Bytes) : Bool :=
  1 ≤ field.length && field.length ≤ 3 && field.all isDigit && decimal field ≤ 255

def fields (host : Bytes) : List Bytes := host.splitOn dot

def inetPton4 (host : Bytes) : Bool := (fields host).length == 4 && (fields host).all isField

structure Memory where
  bytes : Bytes
  holdsHost : hostSize ≤ bytes.length

/-- Past the end there is no memory to store to. -/
def Memory.store (m : Memory) (offset : ℕ) (b : UInt8) : Memory :=
  ⟨m.bytes.set offset b, by simpa using m.holdsHost⟩

def strcpyStores (offset : ℕ) : Bytes → List (ℕ × UInt8)
  | [] => [(offset, 0)]
  | b :: bs => (offset, b) :: strcpyStores (offset + 1) bs

def setHost (m : Memory) (host : Bytes) : Memory :=
  (strcpyStores 0 host).foldl (fun m p => m.store p.1 p.2) m

def hostText (m : Memory) : Option Bytes :=
  if 0 ∈ m.bytes then some (CString.text m.bytes) else none

inductive Caller where
  | sendOn
  | sendOff
  | sendNull
  | queryPowerStatus

def Caller.code : Caller → Bytes
  | .sendOn => onCommand
  | .sendOff => offCommand
  | .sendNull => nullCommand
  | .queryPowerStatus => queryPowerCommand

def Caller.run : Caller → LanState → (ℕ → SocketScript) → LanState
  | .sendOn, s, scripts => (Lan.sendOn s scripts).state
  | .sendOff, s, scripts => (Lan.sendOff s scripts).state
  | .sendNull, s, scripts => (Lan.sendNull s scripts).state
  | .queryPowerStatus, s, scripts => (Lan.queryPowerStatus s scripts).state

def hostsGiven (code : Bytes) (s : LanState) (scripts : ℕ → SocketScript) : List Bytes :=
  List.replicate (Retry.calls (attempt s.host code scripts) maxRetryCount
    ⟨CString.zeros maxResponseSize, s.hasActiveConnection, []⟩) s.host

structure Process where
  memory : Memory
  lan : LanState

inductive Step where
  | call (c : Caller) (scripts : ℕ → SocketScript)
  | other (offset : ℕ) (behind : hostSize ≤ offset) (b : UInt8)

/-- `none` is handed over where `HOST` holds no string at all. -/
def process : Transducer Process Step (Option Bytes) where
  next
    | p, .call c scripts =>
      match hostText p.memory with
      | none => p
      | some host => { p with lan := c.run { p.lan with host := host } scripts }
    | p, .other offset _ b => { p with memory := p.memory.store offset b }
  emit
    | p, .call c scripts =>
      match hostText p.memory with
      | none => [none]
      | some host => (hostsGiven c.code { p.lan with host := host } scripts).map some
    | _, .other _ _ _ => []

structure Stored (host : Bytes) (m : Memory) (lan : LanState) : Prop where
  inside : ∀ p ∈ strcpyStores 0 host, p.1 < hostSize
  given : ∀ xs : List Step, ∀ h ∈ (process.outputs ⟨setHost m host, lan⟩ xs).flatten, h = some host

theorem isField_spec {field : Bytes} (h : isField field = true) :
    field.length ≤ 3 ∧ CString.NulFree field := by
  simp only [isField, Bool.and_eq_true, decide_eq_true_eq, List.all_eq_true] at h
  obtain ⟨⟨⟨-, hle⟩, hdigits⟩, -⟩ := h
  refine ⟨hle, fun b hb hzero => ?_⟩
  have hdigit := hdigits b hb
  rw [hzero] at hdigit
  exact absurd hdigit (by decide)

structure Quad (host a b c d : Bytes) : Prop where
  fields : fields host = [a, b, c, d]
  text : host = a ++ dot :: (b ++ dot :: (c ++ dot :: d))
  first : a.length ≤ 3 ∧ CString.NulFree a
  second : b.length ≤ 3 ∧ CString.NulFree b
  third : c.length ≤ 3 ∧ CString.NulFree c
  fourth : d.length ≤ 3 ∧ CString.NulFree d

theorem quad_of_accepted {host : Bytes} (h : inetPton4 host = true) :
    ∃ a b c d, Quad host a b c d := by
  simp only [inetPton4, Bool.and_eq_true, beq_iff_eq, List.all_eq_true] at h
  obtain ⟨hlen, hfields⟩ := h
  obtain ⟨a, b, c, d, hquad⟩ := List.length_eq_four.mp hlen
  have hjoin : [dot].intercalate (fields host) = host := List.intercalate_splitOn dot
  rw [hquad] at hfields hjoin
  exact ⟨a, b, c, d,
    { fields := hquad
      text := by
        rw [← hjoin]
        simp [List.intercalate]
      first := isField_spec (hfields a (by simp))
      second := isField_spec (hfields b (by simp))
      third := isField_spec (hfields c (by simp))
      fourth := isField_spec (hfields d (by simp)) }⟩

theorem fits_iff {host : Bytes} (h : inetPton4 host = true) :
    host.length < hostSize ↔ ∃ f ∈ fields host, f.length < 3 := by
  obtain ⟨a, b, c, d, hquad⟩ := quad_of_accepted h
  have hlen : host.length = a.length + b.length + c.length + d.length + 3 := by
    rw [hquad.text]
    simp only [List.length_append, List.length_cons]
    omega
  have ha := hquad.first.1
  have hb := hquad.second.1
  have hc := hquad.third.1
  have hd := hquad.fourth.1
  rw [hquad.fields]
  simp only [List.mem_cons, List.not_mem_nil, or_false, exists_eq_or_imp, exists_eq_left]
  rw [hlen, hostSize]
  omega

theorem nulFree_of_accepted {host : Bytes} (h : inetPton4 host = true) : CString.NulFree host := by
  obtain ⟨a, b, c, d, hquad⟩ := quad_of_accepted h
  have hdot : dot ≠ 0 := by decide
  rw [hquad.text]
  intro x hx
  simp only [List.mem_append, List.mem_cons] at hx
  rcases hx with hx | rfl | hx | rfl | hx | rfl | hx
  · exact hquad.first.2 x hx
  · exact hdot
  · exact hquad.second.2 x hx
  · exact hdot
  · exact hquad.third.2 x hx
  · exact hdot
  · exact hquad.fourth.2 x hx

theorem strcpyStores_offsets (offset : ℕ) (src : Bytes) :
    (strcpyStores offset src).map Prod.fst = List.range' offset (src.length + 1) := by
  induction src generalizing offset with
  | nil => rfl
  | cons b bs ih =>
    rw [strcpyStores, List.map_cons, ih]
    rfl

theorem stores_inside_iff (src : Bytes) (size : ℕ) :
    (∀ p ∈ strcpyStores 0 src, p.1 < size) ↔ src.length < size := by
  have hmem : (∀ p ∈ strcpyStores 0 src, p.1 < size) ↔
      ∀ i ∈ (strcpyStores 0 src).map Prod.fst, i < size := by simp
  rw [hmem, strcpyStores_offsets]
  constructor
  · intro h
    exact h src.length (by simp)
  · intro h i hi
    simp at hi
    omega

theorem strcpy_bytes (m : Memory) (offset : ℕ) (src : Bytes)
    (hfits : offset + src.length < m.bytes.length) :
    ((strcpyStores offset src).foldl (fun m p => m.store p.1 p.2) m).bytes =
      m.bytes.take offset ++ CString.literal src ++ m.bytes.drop (offset + src.length + 1) := by
  induction src generalizing m offset with
  | nil =>
    simp only [strcpyStores, List.foldl_cons, List.foldl_nil, Memory.store, CString.literal]
    rw [List.set_eq_take_append_cons_drop, if_pos (by simpa using hfits)]
    simp
  | cons b bs ih =>
    have hlt : offset < m.bytes.length := by
      rw [List.length_cons] at hfits
      omega
    rw [strcpyStores, List.foldl_cons, ih (m.store offset b) (offset + 1) (by
      simp only [Memory.store, List.length_set, List.length_cons] at hfits ⊢
      omega)]
    have htake : (m.bytes.set offset b).take (offset + 1) = m.bytes.take offset ++ [b] := by
      rw [List.take_add_one, List.take_set_of_le le_rfl, List.getElem?_set_self hlt]
      rfl
    have hdrop : (m.bytes.set offset b).drop (offset + 1 + bs.length + 1) =
        m.bytes.drop (offset + (bs.length + 1) + 1) := by
      rw [List.drop_set_of_lt (by omega)]
      congr 1
      omega
    simp only [Memory.store, htake, hdrop, CString.literal, List.length_cons, List.append_assoc,
      List.cons_append, List.nil_append]

theorem setHost_prefix {m : Memory} {host : Bytes} (h : host.length < hostSize) :
    CString.literal host <+: (setHost m host).bytes := by
  have hfits : 0 + host.length < m.bytes.length := by
    have := m.holdsHost
    omega
  rw [setHost, strcpy_bytes m 0 host hfits, List.take_zero, List.nil_append]
  exact List.prefix_append _ _

section Resolved
variable (code response : Bytes) (s : SocketScript) (h : Bytes)

theorem answerStage_resolves : .inetPton h ∉ (answerStage code response s).events := by
  unfold answerStage
  cases s.answer <;> simp

theorem ackStage_resolves : .inetPton h ∉ (ackStage code response s).events := by
  unfold ackStage
  cases s.ackReply with
  | failed => simp
  | got c =>
    dsimp only
    split_ifs
    · simp
    · simp [Exchange.after, answerStage_resolves]

theorem greetingStage_resolves : .inetPton h ∉ (greetingStage code response s).events := by
  unfold greetingStage
  cases s.greeting with
  | failed => simp
  | got c =>
    dsimp only
    split_ifs
    · simp
    · simp [Exchange.after, ackStage_resolves]

variable {h} in
theorem sendCommand_resolves {active : Bool} {host : Bytes}
    (hmem : .inetPton h ∈ (sendCommand active host code response s).events) : h = host := by
  have hstage := greetingStage_resolves code response s h
  cases active with
  | true => simp [sendCommand] at hmem
  | false =>
    simp only [sendCommand, exchange, Bool.false_eq_true, if_false] at hmem
    split_ifs at hmem
    · simp at hmem
    · simpa using hmem
    · simpa using hmem
    · simpa [Exchange.after, hstage] using hmem

end Resolved

def Caller.events : Caller → LanState → (ℕ → SocketScript) → List SockEvent
  | .sendOn, s, scripts => (Lan.sendOn s scripts).events
  | .sendOff, s, scripts => (Lan.sendOff s scripts).events
  | .sendNull, s, scripts => (Lan.sendNull s scripts).events
  | .queryPowerStatus, s, scripts => (Lan.queryPowerStatus s scripts).events

theorem caller_events (c : Caller) (s : LanState) (scripts : ℕ → SocketScript) :
    c.events s scripts = (commandHost c.code s scripts).events := by
  cases c with
  | sendOn => exact sendPower_events onCommand s scripts
  | sendOff => exact sendPower_events offCommand s scripts
  | sendNull =>
    simp only [Caller.events, sendNull]
    split_ifs <;> rfl
  | queryPowerStatus => rfl

theorem caller_resolves {c : Caller} {s : LanState} {scripts : ℕ → SocketScript} {h : Bytes}
    (hmem : .inetPton h ∈ c.events s scripts) : h ∈ hostsGiven c.code s scripts := by
  have hgiven : s.host ∈ hostsGiven c.code s scripts :=
    List.mem_replicate.mpr ⟨(Retry.calls_pos (by decide)).ne', rfl⟩
  rw [caller_events, commandHost] at hmem
  cases hactive : s.hasActiveConnection with
  | true => simp [hactive, retry_active] at hmem
  | false =>
    obtain ⟨n, hn⟩ := retry_events s.host c.code (CString.zeros maxResponseSize) scripts
    rw [hactive] at hmem
    simp only [hn, attemptEvents, List.mem_flatMap] at hmem
    obtain ⟨j, -, hj⟩ := hmem
    rwa [sendCommand_resolves _ _ _ hj]

def Holds (host : Bytes) (p : Process) : Prop := CString.literal host <+: p.memory.bytes

theorem hostText_of_holds {host : Bytes} (hfree : CString.NulFree host) {p : Process}
    (h : Holds host p) : hostText p.memory = some host := by
  have hzero : (0 : UInt8) ∈ p.memory.bytes := h.subset (by simp [CString.literal])
  rw [hostText, if_pos hzero, ((CString.literal_prefix_iff_text hfree _).mp h).1]

theorem store_prefix {w bytes : Bytes} (h : w <+: bytes) {offset : ℕ} (hle : w.length ≤ offset)
    (b : UInt8) : w <+: bytes.set offset b := by
  obtain ⟨t, rfl⟩ := h
  rw [List.set_append_right offset b hle]
  exact List.prefix_append _ _

theorem holds_next {host : Bytes} (hfits : host.length < hostSize) (p : Process) (x : Step)
    (h : Holds host p) : Holds host (process.next p x) := by
  cases x with
  | call c scripts =>
    simp only [process]
    cases hostText p.memory with
    | none => exact h
    | some given => exact h
  | other offset behind b =>
    apply store_prefix h
    simp only [CString.literal, List.length_append, List.length_singleton]
    omega

theorem holds_emit {host : Bytes} (hfree : CString.NulFree host) (p : Process) (x : Step)
    (h : Holds host p) : ∀ g ∈ process.emit p x, g = some host := by
  cases x with
  | call c scripts =>
    simp only [process, hostText_of_holds hfree h, hostsGiven]
    simp
  | other offset behind b => simp [process]

/-- An address is stored and handed on as it is exactly if one of its fields has fewer
than three digits. -/
theorem stored_iff (m : Memory) (lan : LanState) {host : Bytes} (h : inetPton4 host = true) :
    Stored host m lan ↔ ∃ f ∈ fields host, f.length < 3 := by
  rw [← fits_iff h]
  constructor
  · intro hs
    exact (stores_inside_iff host hostSize).mp hs.inside
  · intro hfits
    have hfree := nulFree_of_accepted h
    have hstart : Holds host ⟨setHost m host, lan⟩ := setHost_prefix hfits
    refine ⟨(stores_inside_iff host hostSize).mpr hfits, fun xs => ?_⟩
    exact Transducer.outputs_of_invariant (holds_next hfits) (holds_emit hfree) hstart xs

/-- "192.168.1.20" -/
def shortAddress : Bytes := [0x31, 0x39, 0x32, 0x2E, 0x31, 0x36, 0x38, 0x2E, 0x31, 0x2E, 0x32, 0x30]

/-- "255.255.255.255" -/
def longestAddress : Bytes :=
  [0x32, 0x35, 0x35, 0x2E, 0x32, 0x35, 0x35, 0x2E, 0x32, 0x35, 0x35, 0x2E, 0x32, 0x35, 0x35]

def zeroed : Memory := ⟨CString.zeros 32, by simp [hostSize]⟩

theorem stored_short : Stored shortAddress zeroed (bootState []) := by
  have haccepted : inetPton4 shortAddress = true := by decide
  exact (stored_iff zeroed (bootState []) haccepted).mpr ⟨[0x31], by decide, by decide⟩

theorem nul_behind_host :
    inetPton4 longestAddress = true ∧ (hostSize, 0) ∈ strcpyStores 0 longestAddress ∧
      ¬ Stored longestAddress zeroed (bootState []) ∧
      hostText ((setHost zeroed longestAddress).store hostSize 0x39) =
        some (longestAddress ++ [0x39]) := by
  refine ⟨by decide, by decide, fun h => ?_, by decide⟩
  exact absurd (h.inside (hostSize, 0) (by decide)) (by decide)

end CecFix.HostStorage
