import CecFix.ParseMessage

/-!
# Reading the log back

`getOpcodeString` writes bytes in hexadecimal, without leading zeros and with one space in
between. The bytes of every message, and of every address, can be read back from the log.
-/

namespace CecFix.OpcodeText
open Cec

def hexDigits (b : UInt8) : List Char := (Nat.toDigits 16 b.toNat).map Char.toUpper

def digitValue (c : Char) : ℕ := if c.isDigit then c.toNat - '0'.toNat else c.toNat - 'A'.toNat + 10

def hexValue (digits : List Char) : ℕ := digits.foldl (fun n c => 16 * n + digitValue c) 0

def readByte (digits : List Char) : UInt8 := UInt8.ofNat (hexValue digits)

def readOpcodes (content : List Char) : Bytes :=
  if content = [] then [] else (content.splitOn ' ').map readByte

theorem hex_roundtrip : ∀ n < 256,
    hexValue ((Nat.toDigits 16 n).map Char.toUpper) = n ∧
      ' ' ∉ (Nat.toDigits 16 n).map Char.toUpper ∧ (Nat.toDigits 16 n).map Char.toUpper ≠ [] := by
  decide +kernel

theorem readByte_hexDigits (b : UInt8) : readByte (hexDigits b) = b := by
  rw [readByte, hexDigits, (hex_roundtrip b.toNat b.toNat_lt).1]
  exact UInt8.ofNat_toNat

theorem space_not_mem_hexDigits (b : UInt8) : ' ' ∉ hexDigits b :=
  (hex_roundtrip b.toNat b.toNat_lt).2.1

theorem hexDigits_ne_nil (b : UInt8) : hexDigits b ≠ [] := (hex_roundtrip b.toNat b.toNat_lt).2.2

theorem appendBytes_eq {array : Bytes} {left i : ℕ} (content : List Char)
    (h : i + left ≤ array.length) :
    appendBytes array content i left =
      some (content ++ ((array.drop i).take left).flatMap formatByte) := by
  induction left generalizing content i with
  | zero => simp [appendBytes]
  | succ left ih =>
    have hi : i < array.length := by omega
    rw [appendBytes, List.getElem?_eq_getElem hi]
    dsimp only
    rw [ih (content ++ formatByte array[i]) (by omega), List.append_assoc,
      List.drop_eq_getElem_cons hi, List.take_succ_cons, List.flatMap_cons]

/-- The space after the last byte is removed. -/
theorem dropLast_formatted (bytes : Bytes) :
    (bytes.flatMap formatByte).dropLast = [' '].intercalate (bytes.map hexDigits) := by
  induction bytes with
  | nil => rfl
  | cons b bytes ih =>
    have hformat : formatByte b = hexDigits b ++ [' '] := rfl
    rw [List.flatMap_cons, hformat, List.map_cons]
    cases bytes with
    | nil => simp
    | cons c bytes =>
      have hne : (c :: bytes).flatMap formatByte ≠ [] := by
        rw [List.flatMap_cons, formatByte, List.append_assoc]
        simp
      rw [List.dropLast_append_of_ne_nil hne, ih, List.map_cons, List.intercalate_cons_cons]

theorem intercalate_ne_nil {bytes : Bytes} (h : bytes ≠ []) :
    [' '].intercalate (bytes.map hexDigits) ≠ [] := by
  cases bytes with
  | nil => exact absurd rfl h
  | cons b bytes =>
    obtain ⟨d, ds, hd⟩ := List.exists_cons_of_ne_nil (hexDigits_ne_nil b)
    rw [List.map_cons, hd, List.intercalate_cons_cons_left]
    exact List.cons_ne_nil _ _

theorem readOpcodes_intercalate (bytes : Bytes) :
    readOpcodes ([' '].intercalate (bytes.map hexDigits)) = bytes := by
  by_cases hbytes : bytes = []
  · subst hbytes
    rfl
  · have hspaces : ∀ digits ∈ bytes.map hexDigits, ' ' ∉ digits := by
      intro digits hdigits
      obtain ⟨b, -, rfl⟩ := List.mem_map.mp hdigits
      exact space_not_mem_hexDigits b
    have hsplit := List.splitOn_intercalate ' ' hspaces (by simpa using hbytes)
    rw [readOpcodes, if_neg (intercalate_ne_nil hbytes), hsplit, List.map_map]
    exact (List.map_congr_left fun b _ => readByte_hexDigits b).trans (List.map_id bytes)

theorem opcodes_read_back (array : Bytes) (length : ℕ) :
    (getOpcodeString array length).map readOpcodes =
      if length ≤ array.length then some (array.take length) else none := by
  split_ifs with hle
  · rw [getOpcodeString]
    split_ifs with hzero
    · subst hzero
      rfl
    · rw [appendBytes_eq [] (by omega), Option.map_some, Option.map_some, List.nil_append,
        List.drop_zero, dropLast_formatted, readOpcodes_intercalate]
  · have hnone : getOpcodeString array length = none := by
      rw [← Option.not_isSome_iff_eq_none, getOpcodeString_isSome]
      exact hle
    rw [hnone]
    rfl

end CecFix.OpcodeText
