/-
# `Keld.Lib.FormText` — named fields on one line

A form is a list of fields joined with `&`, a field a key and a value joined with
`=`.  Keys and values are bytes of any kind: `escape` writes them with neither
sign in them, `unescape` reads them back.  Cutting a written form at its signs
therefore finds exactly the fields that were written (`cutField_fieldText`).
-/
import Keld.Lib.Hex

namespace Keld.FormText

open List

def ampersand : Byte := 0x26
def equals : Byte := 0x3d

/-! ## One key or value -/

/-- A letter, a digit, `-`, `_`, `.` or `*`. -/
def kept (byte : Byte) : Bool :=
  (0x41 ≤ byte && byte ≤ 0x5a) || (0x61 ≤ byte && byte ≤ 0x7a) || (0x30 ≤ byte && byte ≤ 0x39) ||
    byte = 0x2d || byte = 0x5f || byte = 0x2e || byte = 0x2a

/-- `0123456789ABCDEF`. -/
def hexUpper (n : ℕ) : Byte :=
  ([0x30, 0x31, 0x32, 0x33, 0x34, 0x35, 0x36, 0x37, 0x38, 0x39,
    0x41, 0x42, 0x43, 0x44, 0x45, 0x46] : List Byte).getD n 0x30

def percent (byte : Byte) : List Byte :=
  [0x25, hexUpper (byte >>> 4).toNat, hexUpper (byte &&& 0x0f).toNat]

/-- A blank is written as `+`. -/
def escapeByte (byte : Byte) : List Byte :=
  if kept byte then [byte] else if byte = 0x20 then [0x2b] else percent byte

def escape (bytes : List Byte) : List Byte := bytes.flatMap escapeByte

def unescape : List Byte → Option (List Byte)
  | [] => some []
  | byte :: rest =>
    if byte = 0x2b then (0x20 :: ·) <$> unescape rest
    else if byte = 0x25 then
      match rest with
      | high :: low :: rest => do
        let h ← hexValue high
        let l ← hexValue low
        let bytes ← unescape rest
        return UInt8.ofNat (h * 16 + l) :: bytes
      | _ => none
    else (byte :: ·) <$> unescape rest

theorem hexValue_hexUpper : ∀ n < 16, hexValue (hexUpper n) = some n := by decide

theorem hexUpper_kept : ∀ n < 16, kept (hexUpper n) = true := by decide

variable {byte : Byte}

theorem unescape_plain (hpl : byte ≠ 0x2b) (hpe : byte ≠ 0x25) (rest : List Byte) :
    unescape (byte :: rest) = (byte :: ·) <$> unescape rest := by
  rw [unescape.eq_def]
  exact (if_neg hpl).trans (if_neg hpe)

theorem unescape_plus (rest : List Byte) :
    unescape (0x2b :: rest) = (0x20 :: ·) <$> unescape rest := by
  rw [unescape.eq_def]
  exact if_pos rfl

theorem unescape_pair {high low : Byte} {h l : ℕ} (hhi : hexValue high = some h)
    (hlow : hexValue low = some l) (rest : List Byte) :
    unescape (0x25 :: high :: low :: rest) = (UInt8.ofNat (h * 16 + l) :: ·) <$> unescape rest := by
  rw [unescape.eq_def]
  refine (if_neg (by decide)).trans ((if_pos rfl).trans ?_)
  show ((hexValue high).bind fun h => (hexValue low).bind fun l => _) = _
  rw [hhi, hlow, Option.bind_some, Option.bind_some]
  cases unescape rest <;> rfl

theorem unescape_percent (byte : Byte) (rest : List Byte) :
    unescape (percent byte ++ rest) = (byte :: ·) <$> unescape rest := by
  have hhi : (byte >>> 4).toNat = byte.toNat / 16 := by
    rw [UInt8.toNat_shiftRight, Nat.shiftRight_eq_div_pow]
    rfl
  have hlow : (byte &&& 0x0f).toNat = byte.toNat % 16 := by
    rw [UInt8.toNat_and]
    exact Nat.and_two_pow_sub_one_eq_mod byte.toNat 4
  have hby : byte.toNat < 256 := byte.toNat_lt
  have hnat : byte.toNat / 16 * 16 + byte.toNat % 16 = byte.toNat := Nat.div_add_mod' _ _
  have hpa := unescape_pair (hexValue_hexUpper (byte.toNat / 16) (by omega))
    (hexValue_hexUpper (byte.toNat % 16) (Nat.mod_lt _ (by omega))) rest
  rw [hnat, UInt8.ofNat_toNat] at hpa
  rw [percent, hhi, hlow]
  exact hpa

theorem unescape_escapeByte (byte : Byte) (rest : List Byte) :
    unescape (escapeByte byte ++ rest) = (byte :: ·) <$> unescape rest := by
  unfold escapeByte
  split_ifs with hk hbl
  · have hpl : byte ≠ 0x2b := by
      rintro rfl
      exact absurd hk (by decide)
    have hpe : byte ≠ 0x25 := by
      rintro rfl
      exact absurd hk (by decide)
    exact unescape_plain hpl hpe rest
  · rw [hbl]
    exact unescape_plus rest
  · exact unescape_percent byte rest

theorem unescape_escape (bytes : List Byte) : unescape (escape bytes) = some bytes := by
  induction bytes with
  | nil => rfl
  | cons byte bytes ih =>
    rw [escape, flatMap_cons, unescape_escapeByte, ← escape, ih]
    rfl

/-! ## The signs that are written -/

/-- Everything an escaped key or value consists of. -/
def Written (byte : Byte) : Prop := kept byte = true ∨ byte = 0x2b ∨ byte = 0x25

theorem mem_escape {bytes : List Byte} : ∀ b ∈ escape bytes, Written b := by
  intro b hb
  obtain ⟨byte, -, hb⟩ := mem_flatMap.mp hb
  unfold escapeByte at hb
  split_ifs at hb with hk
  · rw [mem_singleton.mp hb]
    exact .inl hk
  · exact .inr (.inl (mem_singleton.mp hb))
  · have hdi (n : ℕ) (hn : n < 16) : Written (hexUpper n) := .inl (hexUpper_kept n hn)
    have hby : byte.toNat < 256 := byte.toNat_lt
    rw [percent, mem_cons, mem_cons, mem_singleton] at hb
    rcases hb with rfl | rfl | rfl
    · exact .inr (.inr rfl)
    · refine hdi _ ?_
      rw [UInt8.toNat_shiftRight, Nat.shiftRight_eq_div_pow]
      exact Nat.div_lt_of_lt_mul hby
    · refine hdi _ ?_
      rw [UInt8.toNat_and]
      exact Nat.lt_of_le_of_lt Nat.and_le_right (by decide)

instance : DecidablePred Written := fun _ => inferInstanceAs (Decidable (_ ∨ _ ∨ _))

theorem Written.ascii (h : Written byte) : byte < 0x80 := by
  rcases h with h | rfl | rfl
  · unfold kept at h
    simp only [Bool.or_eq_true, Bool.and_eq_true, decide_eq_true_eq] at h
    rcases h with ((((((h | h) | h) | rfl) | rfl) | rfl) | rfl)
    · exact UInt8.lt_of_le_of_lt h.2 (by decide)
    · exact UInt8.lt_of_le_of_lt h.2 (by decide)
    · exact UInt8.lt_of_le_of_lt h.2 (by decide)
    all_goals decide
  all_goals decide

/-! ## Cutting -/

section CutAt

variable {α : Type*} [DecidableEq α]

/-- What is in front of the first sign, and what is behind it. -/
def cutAt (sign : α) : List α → Option (List α × List α)
  | [] => none
  | a :: l =>
    if a = sign then some ([], l)
    else (fun parts => (a :: parts.1, parts.2)) <$> cutAt sign l

theorem cutAt_append {sign : α} {front : List α} (h : sign ∉ front) (back : List α) :
    cutAt sign (front ++ sign :: back) = some (front, back) := by
  induction front with
  | nil =>
    rw [nil_append, cutAt, if_pos rfl]
  | cons a front ih =>
    obtain ⟨ha, hfr⟩ := not_or.mp (mt mem_cons.mpr h)
    rw [cons_append, cutAt, if_neg (Ne.symm ha), ih hfr]
    rfl

end CutAt

/-! ## The whole form -/

def fieldText (field : List Byte × List Byte) : List Byte :=
  escape field.1 ++ equals :: escape field.2

def formText (fields : List (List Byte × List Byte)) : List Byte :=
  [ampersand].intercalate (fields.map fieldText)

/-- A part without `=` is a key alone. -/
def cutField (part : List Byte) : List Byte × List Byte := (cutAt equals part).getD (part, [])

def cutFields (text : List Byte) : List (List Byte × List Byte) :=
  (text.splitOn ampersand).map cutField

theorem cutField_fieldText (field : List Byte × List Byte) :
    cutField (fieldText field) = (escape field.1, escape field.2) := by
  have hno : ¬ Written equals := by decide
  have hfr : equals ∉ escape field.1 := fun h => hno (mem_escape _ h)
  rw [cutField, fieldText, cutAt_append hfr]
  rfl

theorem notMem_fieldText {sign : Byte} (hw : ¬ Written sign) (hne : sign ≠ equals)
    (field : List Byte × List Byte) : sign ∉ fieldText field := by
  intro h
  rcases mem_append.mp h with h | h
  · exact hw (mem_escape _ h)
  · exact hw (mem_escape _ (mem_of_ne_of_mem hne h))

end Keld.FormText
