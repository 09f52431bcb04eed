/-
# `Keld.Lib.Lossy` — decoding with replacement characters

`fromUtf8Lossy` copies the characters of a byte string and puts U+FFFD for every
maximal part that begins a character and is not continued to one, or for a byte
that begins none.  A text is returned as it is; no byte string gets shorter, since
a part that is replaced has at most three bytes; and one that begins in the middle
of a character gets longer (`length_lt_fromUtf8Lossy`).
-/
import Keld.Lib.Utf8

namespace Keld

open List

/-- The character at the front. -/
def decodeChar (bytes : List Byte) : Option Char := bytes.toByteArray.utf8DecodeChar? 0

/-- How many bytes can follow a first byte without completing its character, and the range of the
first of them. -/
def leadRange (b : Byte) : Nat × Byte × Byte :=
  if b = 0xe0 then (1, 0xa0, 0xbf)
  else if b = 0xed then (1, 0x80, 0x9f)
  else if 0xe1 ≤ b ∧ b ≤ 0xef then (1, 0x80, 0xbf)
  else if b = 0xf0 then (2, 0x90, 0xbf)
  else if 0xf1 ≤ b ∧ b ≤ 0xf3 then (2, 0x80, 0xbf)
  else if b = 0xf4 then (2, 0x80, 0x8f)
  else (0, 0, 0)

/-- The bytes that continue an incomplete character. -/
def continuing : Nat → Byte → Byte → List Byte → Nat
  | n + 1, low, high, b :: rest =>
    if low ≤ b ∧ b ≤ high then continuing n 0x80 0xbf rest + 1 else 0
  | _, _, _, _ => 0

/-- The bytes behind a first byte that belong to a character it begins and that is not completed. -/
def incomplete (b : Byte) (rest : List Byte) : Nat :=
  continuing (leadRange b).1 (leadRange b).2.1 (leadRange b).2.2 rest

/-- The encoding of U+FFFD. -/
def replacement : List Byte := String.utf8EncodeChar (Char.ofNat 0xfffd)

/-- The decoder, with the bytes of the current part that are still to be skipped. -/
def lossyFrom : Nat → List Byte → List Byte
  | _, [] => []
  | skip + 1, _ :: rest => lossyFrom skip rest
  | 0, b :: rest =>
    match decodeChar (b :: rest) with
    | some c => String.utf8EncodeChar c ++ lossyFrom (c.utf8Size - 1) rest
    | none => replacement ++ lossyFrom (incomplete b rest) rest

/-- `String::from_utf8_lossy`. -/
def fromUtf8Lossy (bytes : List Byte) : List Byte := lossyFrom 0 bytes

theorem continuing_le (n : Nat) (low high : Byte) (bytes : List Byte) :
    continuing n low high bytes ≤ n := by
  induction n generalizing low high bytes with
  | zero => rfl
  | succ n ih =>
    cases bytes with
    | nil => exact Nat.zero_le _
    | cons b rest =>
      rw [continuing]
      split_ifs
      · exact Nat.succ_le_succ (ih ..)
      · exact Nat.zero_le _

theorem incomplete_le (b : Byte) (rest : List Byte) : incomplete b rest ≤ 2 := by
  have hmo : (leadRange b).1 ≤ 2 := by
    unfold leadRange
    split_ifs <;> decide
  exact (continuing_le ..).trans hmo

/-- A byte that continues a character begins none. -/
theorem incomplete_continuation {b : Byte} (hb : isContinuation b = true) (rest : List Byte) :
    incomplete b rest = 0 := by
  rw [isContinuation, Bool.and_eq_true, decide_eq_true_eq, decide_eq_true_eq] at hb
  have hra : leadRange b = (0, 0, 0) := by
    unfold leadRange
    grind
  rw [incomplete, hra]
  cases rest <;> rfl

theorem lossyFrom_skip (skip : Nat) (bytes : List Byte) :
    lossyFrom skip bytes = lossyFrom 0 (bytes.drop skip) := by
  induction bytes generalizing skip with
  | nil =>
    rw [drop_nil]
    cases skip <;> rfl
  | cons b rest ih =>
    cases skip with
    | zero => rfl
    | succ skip => exact ih skip

/-! ## Characters -/

theorem decodeChar_append (c : Char) (rest : List Byte) :
    decodeChar (String.utf8EncodeChar c ++ rest) = some c := by
  unfold decodeChar
  rw [toByteArray_append]
  exact ByteArray.utf8DecodeChar?_utf8EncodeChar_append

variable {bytes : List Byte} {parts : List (List Byte)}

theorem decodeChar_eq_some {c : Char} (h : decodeChar bytes = some c) :
    bytes = String.utf8EncodeChar c ++ bytes.drop c.utf8Size := by
  have hby := String.toByteArray_utf8EncodeChar_of_utf8DecodeChar?_eq_some h
  have hli := congrArg (·.data.toList) hby
  simp only [toList_data_toByteArray, ByteArray.data_extract, Array.toList_extract,
    extract_eq_take_drop, drop_zero, Nat.sub_zero] at hli
  rw [hli]
  exact (take_append_drop _ _).symm

theorem fromUtf8Lossy_char (c : Char) (tail : List Byte) :
    fromUtf8Lossy (String.utf8EncodeChar c ++ tail) =
      String.utf8EncodeChar c ++ fromUtf8Lossy tail := by
  obtain ⟨lead, conts, hsh, -⟩ := utf8EncodeChar_shape c
  have hs : c.utf8Size - 1 = conts.length := by
    rw [← String.length_utf8EncodeChar, hsh, length_cons, Nat.add_sub_cancel]
  have hde := decodeChar_append c tail
  rw [hsh, cons_append] at hde
  unfold fromUtf8Lossy
  conv_lhs => rw [hsh, cons_append, lossyFrom, hde]
  dsimp only
  rw [lossyFrom_skip, hs, drop_left]

/-- What is taken of a byte string that is not empty: a character, or a part of at most three bytes
that begins no character. -/
theorem lossyFrom_cons (b : Byte) (rest : List Byte) :
    (∃ c tail, b :: rest = String.utf8EncodeChar c ++ tail) ∨
    ∃ taken ≤ 2, (isContinuation b = true → taken = 0) ∧
      fromUtf8Lossy (b :: rest) = replacement ++ fromUtf8Lossy (rest.drop taken) := by
  cases hde : decodeChar (b :: rest) with
  | some c => exact .inl ⟨c, _, decodeChar_eq_some hde⟩
  | none =>
    refine .inr ⟨incomplete b rest, incomplete_le b rest, (incomplete_continuation · rest), ?_⟩
    unfold fromUtf8Lossy
    rw [lossyFrom, hde]
    rw [lossyFrom_skip]

/-- An induction over the parts that the decoder takes. -/
theorem lossyInduction {motive : List Byte → Prop} (nil : motive [])
    (char : ∀ c tail, motive tail → motive (String.utf8EncodeChar c ++ tail))
    (part : ∀ b rest taken, taken ≤ 2 → (isContinuation b = true → taken = 0) →
      fromUtf8Lossy (b :: rest) = replacement ++ fromUtf8Lossy (rest.drop taken) →
      motive (rest.drop taken) → motive (b :: rest)) :
    ∀ bytes, motive bytes := by
  intro bytes
  induction hl : bytes.length using Nat.strong_induction_on generalizing bytes with
  | _ len ih =>
    cases bytes with
    | nil => exact nil
    | cons b rest =>
      rcases lossyFrom_cons b rest with ⟨c, tail, hby⟩ | ⟨taken, hle, hc, hlo⟩
      · have hsh : tail.length < len := by
          rw [← hl, hby, length_append, String.length_utf8EncodeChar]
          exact Nat.lt_add_of_pos_left c.utf8Size_pos
        rw [hby]
        exact char c tail (ih _ hsh tail rfl)
      · refine part b rest taken hle hc hlo (ih _ ?_ _ rfl)
        rw [← hl, length_drop, length_cons]
        omega

/-! ## The decoded text -/

theorem isText_fromUtf8Lossy (bytes : List Byte) : IsText (fromUtf8Lossy bytes) := by
  induction bytes using lossyInduction with
  | nil => exact isText_nil
  | char c tail ih =>
    rw [fromUtf8Lossy_char]
    exact IsText.append ⟨[c], flatMap_singleton _ _⟩ ih
  | part b rest taken _ _ h ih =>
    rw [h]
    exact IsText.append ⟨[Char.ofNat 0xfffd], flatMap_singleton _ _⟩ ih

theorem fromUtf8Lossy_text (h : IsText bytes) : fromUtf8Lossy bytes = bytes := by
  obtain ⟨cs, rfl⟩ := h
  induction cs with
  | nil => rfl
  | cons c cs ih => rw [flatMap_cons, fromUtf8Lossy_char, ih]

theorem length_le_fromUtf8Lossy (bytes : List Byte) :
    bytes.length ≤ (fromUtf8Lossy bytes).length := by
  induction bytes using lossyInduction with
  | nil => exact Nat.zero_le _
  | char c tail ih =>
    rw [fromUtf8Lossy_char, length_append, length_append]
    exact Nat.add_le_add_left ih _
  | part b rest taken hle _ h ih =>
    rw [length_drop] at ih
    rw [h, length_append, length_cons]
    have hre : replacement.length = 3 := by decide
    omega

/-- A byte string that begins in the middle of a character gets longer. -/
theorem length_lt_fromUtf8Lossy (h : startsChar bytes = false) :
    bytes.length < (fromUtf8Lossy bytes).length := by
  cases bytes with
  | nil => exact absurd h (by decide)
  | cons b rest =>
    have hb : isContinuation b = true := by
      rw [startsChar] at h
      simpa using h
    rcases lossyFrom_cons b rest with ⟨c, tail, hby⟩ | ⟨taken, -, hc, hlo⟩
    · obtain ⟨lead, conts, hsh, hle, -⟩ := utf8EncodeChar_shape c
      rw [hsh] at hby
      obtain ⟨rfl, -⟩ := List.cons.inj hby
      exact absurd hb (by rw [hle]; exact Bool.false_ne_true)
    · rw [hc hb, drop_zero] at hlo
      have hr := length_le_fromUtf8Lossy rest
      have hre : replacement.length = 3 := by decide
      rw [hlo, length_append, length_cons]
      omega

/-! ## Text in parts -/

theorem length_flatten_le_lossy (parts : List (List Byte)) :
    parts.flatten.length ≤ (parts.flatMap fromUtf8Lossy).length := by
  induction parts with
  | nil => exact le_rfl
  | cons part parts ih =>
    rw [flatten_cons, flatMap_cons, length_append, length_append]
    exact Nat.add_le_add (length_le_fromUtf8Lossy part) ih

/-- Where decoding part by part adds nothing, every part begins with a character. -/
theorem lossy_parts_start (h : (parts.flatMap fromUtf8Lossy).length ≤ parts.flatten.length) :
    startsChar parts.flatten = true := by
  induction parts with
  | nil => rfl
  | cons part parts ih =>
    have hr := length_flatten_le_lossy parts
    have hp := length_le_fromUtf8Lossy part
    rw [flatten_cons, flatMap_cons, length_append, length_append] at h
    rw [flatten_cons]
    cases part with
    | nil => exact ih (by omega)
    | cons b part =>
      by_contra hcut
      have hlo := @length_lt_fromUtf8Lossy (b :: part) (Bool.eq_false_of_not_eq_true hcut)
      omega

/-- A text that is decoded part by part keeps its length only if it is cut between characters. -/
theorem lossy_parts_text (ht : IsText parts.flatten)
    (h : (parts.flatMap fromUtf8Lossy).length ≤ parts.flatten.length) :
    ∀ part ∈ parts, IsText part := by
  induction parts with
  | nil => exact fun part hp => absurd hp not_mem_nil
  | cons part parts ih =>
    have hp := length_le_fromUtf8Lossy part
    rw [flatten_cons, flatMap_cons, length_append, length_append] at h
    have hr : (parts.flatMap fromUtf8Lossy).length ≤ parts.flatten.length := by omega
    obtain ⟨hf, hl⟩ := IsText.cut ht (lossy_parts_start hr)
    exact forall_mem_cons.mpr ⟨hf, ih hl hr⟩

end Keld
