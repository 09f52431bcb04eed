/-
# `Keld.Kipc.CallError` — reading postcard strings and refusals

A string is the length of its UTF-8 bytes as a `u32` varint, then those bytes.
The reader hands them to a fatal decoder that keeps a byte-order mark, so it
returns a text on exactly the bytes of that text.  A refused call carries two
strings, a registered code and a message.
-/
import Keld.Kipc.Varint
import Keld.Lib.Text

namespace Keld.Kipc

open List

def decodePostcardStringAt : Decoder String := fun bytes offset => do
  let (len, afterLen) ← decodeVarintAt bytes offset "truncated postcard string" .w32
  let fin := (Ieee.int (afterLen + len)).toNat
  if bytes.length < fin then
    .error ⟨"KELD-IPC-003", "postcard string length does not match payload"⟩
  else
    match fromUtf8 ((bytes.drop afterLen).take len) with
    | some text => .ok (text, fin)
    | none => .error ⟨"KELD-IPC-003", "invalid UTF-8 in postcard string"⟩

structure CallError where
  code : String
  message : String
deriving DecidableEq, Repr

def decodeCallError (payload : List Byte) : Except KipcError CallError := do
  let (code, afterCode) ← decodePostcardStringAt payload 0
  let (message, fin) ← decodePostcardStringAt payload afterCode
  require (fin == payload.length) ⟨"KELD-IPC-003", "trailing bytes after CallError"⟩
  require (code.startsWith "KELD-") ⟨"KELD-IPC-003", "CallError code is not a KELD-* identifier"⟩
  return ⟨code, message⟩

/-- No array is longer than the largest safe integer. -/
def Payload (bytes : List Byte) : Prop := bytes.length < 2 ^ 53

theorem stringEnd (afterLen n : ℕ) :
    (Ieee.int ((afterLen : ℤ) + n)).toNat = afterLen + n ∨
      2 ^ 53 ≤ afterLen + n ∧ 2 ^ 53 ≤ (Ieee.int ((afterLen : ℤ) + n)).toNat := by
  rw [← Nat.cast_add]
  rcases Nat.lt_or_ge (afterLen + n) (2 ^ 53) with hsa | hla
  · rw [int_small hsa, Int.toNat_natCast]
    exact .inl rfl
  · have hi := Ieee.le_int (n := (afterLen + n : ℕ)) (by exact_mod_cast hla)
    exact .inr ⟨hla, by omega⟩

/-- A string's spelling at the front of a list. -/
def StringSpelled (text : String) (here : List Byte) : Prop :=
  ∃ len, Varint 15 5 len (utf8 text).length ∧ here = len ++ utf8 text

/-- What the string reader accepts: a length, and that many bytes of some text. -/
theorem decodePostcardStringAt_ok {bytes : List Byte} {offset : ℕ} {text : String} {fin : ℕ}
    (hs : Payload bytes) (hoff : offset ≤ bytes.length) :
    decodePostcardStringAt bytes offset = .ok (text, fin) ↔
      ∃ here rest, bytes.drop offset = here ++ rest ∧ StringSpelled text here ∧
        fin = offset + here.length := by
  unfold decodePostcardStringAt
  rw [bind_ok]
  constructor
  · rintro ⟨⟨n, mid⟩, hl, h⟩
    obtain ⟨len, rest, hd, hv, rfl⟩ := (decodeVarintAt_ok hoff).mp hl
    have hmid : offset + len.length ≤ bytes.length := by
      have hle := congrArg List.length hd
      rw [length_drop, length_append] at hle
      omega
    have hr : bytes.drop (offset + len.length) = rest := by
      rw [← drop_drop, hd, drop_left]
    unfold Payload at hs
    dsimp only at h
    rw [hr] at h
    split_ifs at h with hov
    have hfin : (Ieee.int (((offset + len.length : ℕ) : ℤ) + n)).toNat =
        offset + len.length + n := by
      rcases stringEnd (offset + len.length) n with hex | ⟨-, hla⟩
      · exact hex
      · omega
    rw [hfin] at h hov
    cases ht : fromUtf8 (rest.take n) with
    | none =>
      rw [ht] at h
      cases h
    | some found =>
      rw [ht] at h
      cases h
      have hby := fromUtf8_eq_some.mp ht
      have hle : (utf8 text).length = n := by
        rw [hby, length_take, ← hr, length_drop]
        omega
      refine ⟨len ++ utf8 text, rest.drop n, ?_, ⟨len, by rw [hle]; exact hv, rfl⟩, ?_⟩
      · rw [hd, hby, append_assoc, take_append_drop]
      · rw [length_append, hle, Nat.add_assoc]
  · rintro ⟨here, rest, hd, ⟨len, hv, rfl⟩, rfl⟩
    rw [append_assoc] at hd
    have hle := congrArg List.length hd
    rw [length_drop, length_append, length_append] at hle
    refine ⟨((utf8 text).length, offset + len.length), ?_, ?_⟩
    · exact (decodeVarintAt_ok hoff).mpr ⟨len, utf8 text ++ rest, hd, hv, rfl⟩
    · have hr : bytes.drop (offset + len.length) = utf8 text ++ rest := by
        rw [← drop_drop, hd, drop_left]
      unfold Payload at hs
      have hfin : (Ieee.int (((offset + len.length : ℕ) : ℤ) + (utf8 text).length)).toNat =
          offset + len.length + (utf8 text).length := by
        rcases stringEnd (offset + len.length) (utf8 text).length with
          hex | ⟨hla, -⟩
        · exact hex
        · omega
      dsimp only
      rw [hfin, hr, take_left, fromUtf8_utf8, if_neg (by omega), length_append, Nat.add_assoc]

end Keld.Kipc
