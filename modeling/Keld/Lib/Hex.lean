/-
# `Keld.Lib.Hex` — bytes as hexadecimal text

Two digits a byte, the high one first.  As text the digits are lower-case, and
what the reader takes is what the writer wrote; as bytes they are of either case.
-/
import Keld.Lib.Bytes
import Mathlib.Data.Nat.Basic

namespace Keld

open List

def hexDigits : List Char :=
  ['0', '1', '2', '3', '4', '5', '6', '7', '8', '9', 'a', 'b', 'c', 'd', 'e', 'f']

def hexDigit (n : ℕ) : Char := hexDigits.getD n '0'

def encodeLowerHex : List Byte → List Char
  | [] => []
  | byte :: bytes =>
    hexDigit (byte.toNat / 16) :: hexDigit (byte.toNat % 16) :: encodeLowerHex bytes

/-- `decode_hex_nibble`. -/
def hexNibble (c : Char) : Option ℕ :=
  if '0' ≤ c ∧ c ≤ '9' then some (c.toNat - 48)
  else if 'a' ≤ c ∧ c ≤ 'f' then some (c.toNat - 87)
  else none

def decodePairs : List Char → Option (List Byte)
  | [] => some []
  | [_] => none
  | high :: low :: rest => do
    let h ← hexNibble high
    let l ← hexNibble low
    let bytes ← decodePairs rest
    return UInt8.ofNat (h * 16 + l) :: bytes

/-- `decode_lower_hex`: exactly this many bytes. -/
def decodeLowerHex (count : ℕ) (text : List Char) : Option (List Byte) :=
  if text.length = count * 2 then decodePairs text else none

theorem length_encodeLowerHex (bytes : List Byte) :
    (encodeLowerHex bytes).length = bytes.length * 2 := by
  induction bytes with
  | nil => rfl
  | cons byte bytes ih =>
    rw [encodeLowerHex, length_cons, length_cons, ih, length_cons]
    omega

theorem hexNibble_hexDigit : ∀ n < 16, hexNibble (hexDigit n) = some n := by decide

theorem decodePairs_encodeLowerHex (bytes : List Byte) :
    decodePairs (encodeLowerHex bytes) = some bytes := by
  induction bytes with
  | nil => rfl
  | cons byte bytes ih =>
    have hby : byte.toNat < 256 := byte.toNat_lt
    rw [encodeLowerHex, decodePairs, hexNibble_hexDigit _ (by omega),
      hexNibble_hexDigit _ (Nat.mod_lt _ (by omega)), ih]
    have hnat : byte.toNat / 16 * 16 + byte.toNat % 16 = byte.toNat := Nat.div_add_mod' _ _
    show some (UInt8.ofNat (byte.toNat / 16 * 16 + byte.toNat % 16) :: bytes) = _
    rw [hnat, UInt8.ofNat_toNat]

variable {count : ℕ} {bytes : List Byte} {text : List Char}

theorem decodeLowerHex_encodeLowerHex (hl : bytes.length = count) :
    decodeLowerHex count (encodeLowerHex bytes) = some bytes := by
  rw [decodeLowerHex, if_pos (by rw [length_encodeLowerHex, hl])]
  exact decodePairs_encodeLowerHex bytes

theorem length_decodePairs (h : decodePairs text = some bytes) :
    text.length = bytes.length * 2 := by
  induction text using decodePairs.induct generalizing bytes with
  | case1 =>
    cases h
    rfl
  | case2 c => cases h
  | case3 high low rest ih =>
    rw [decodePairs] at h
    obtain ⟨_, _, h⟩ := Option.bind_eq_some_iff.mp h
    obtain ⟨_, _, h⟩ := Option.bind_eq_some_iff.mp h
    obtain ⟨tail, hta, h⟩ := Option.bind_eq_some_iff.mp h
    cases h
    rw [length_cons, length_cons, length_cons, ih hta]
    omega

theorem length_decodeLowerHex (h : decodeLowerHex count text = some bytes) :
    bytes.length = count := by
  unfold decodeLowerHex at h
  split_ifs at h with hl
  have := length_decodePairs h
  omega

/-! ## Digits as bytes -/

/-- `hex_nibble`, `hex_value`. -/
def hexValue (byte : Byte) : Option ℕ :=
  if 0x30 ≤ byte ∧ byte ≤ 0x39 then some (byte.toNat - 0x30)
  else if 0x61 ≤ byte ∧ byte ≤ 0x66 then some (byte.toNat - 0x61 + 10)
  else if 0x41 ≤ byte ∧ byte ≤ 0x46 then some (byte.toNat - 0x41 + 10)
  else none

theorem hexValue_ascii {byte : Byte} (h : (hexValue byte).isSome) : byte < 0x80 := by
  unfold hexValue at h
  split_ifs at h with hdi hlo hup
  · exact UInt8.lt_of_le_of_lt hdi.2 (by decide)
  · exact UInt8.lt_of_le_of_lt hlo.2 (by decide)
  · exact UInt8.lt_of_le_of_lt hup.2 (by decide)
  · cases h

/-- Pairs of digits, the high one first. -/
def hexPairs : List Byte → Option (List Byte)
  | [] => some []
  | [_] => none
  | high :: low :: rest => do
    let h ← hexValue high
    let l ← hexValue low
    let bytes ← hexPairs rest
    return UInt8.ofNat (h * 16 + l) :: bytes

/-- An even number of digits is read. -/
theorem hexPairs_isSome (hle : bytes.length % 2 = 0) :
    (hexPairs bytes).isSome ↔ ∀ b ∈ bytes, (hexValue b).isSome := by
  induction bytes using hexPairs.induct with
  | case1 => simp [hexPairs]
  | case2 b => cases hle
  | case3 high low rest ih =>
    have hr : rest.length % 2 = 0 := by
      rw [length_cons, length_cons] at hle
      omega
    rw [hexPairs]
    cases hh : hexValue high with
    | none => simp [hh]
    | some h =>
      cases hl : hexValue low with
      | none => simp [hh, hl]
      | some l =>
        rw [forall_mem_cons, forall_mem_cons, ← ih hr, hh, hl]
        cases hexPairs rest <;> simp

end Keld
