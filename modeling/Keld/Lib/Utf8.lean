/-
# `Keld.Lib.Utf8` — cutting and joining UTF-8 at ASCII bytes

`IsText bytes` says that the bytes are the encoding of a text.  An ASCII byte is
never part of a longer encoding, so a text may be cut in front of it and behind
it (`isText_cut`), and texts may be joined (`IsText.append`).  With the two a
program that copies texts and writes ASCII between them needs no decoder to see
that its output is a text.
-/
import Keld.Lib.Text

namespace Keld

open List

/-- The bytes encode a text. -/
def IsText (bytes : List Byte) : Prop :=
  ∃ cs : List Char, cs.flatMap String.utf8EncodeChar = bytes

theorem isText_utf8 (text : String) : IsText (utf8 text) :=
  ⟨text.toList, (utf8_eq_flatMap text).symm⟩

variable {bytes xs ys : List Byte} {b : Byte}

theorem isText_iff : IsText bytes ↔ ∃ text, fromUtf8 bytes = some text := by
  constructor
  · rintro ⟨cs, rfl⟩
    refine ⟨String.ofList cs, fromUtf8_eq_some.mpr ?_⟩
    rw [utf8_eq_flatMap, String.toList_ofList]
  · rintro ⟨text, h⟩
    rw [← fromUtf8_eq_some.mp h]
    exact isText_utf8 text

theorem isText_nil : IsText [] := ⟨[], rfl⟩

theorem IsText.append (hx : IsText xs) (hy : IsText ys) : IsText (xs ++ ys) := by
  obtain ⟨cs, rfl⟩ := hx
  obtain ⟨ds, rfl⟩ := hy
  exact ⟨cs ++ ds, flatMap_append⟩

/-! ## Single characters -/

/-- An ASCII character is one byte, any other has none below `0x80`. -/
theorem utf8EncodeChar_cases (c : Char) :
    (∃ b : Byte, b < 0x80 ∧ String.utf8EncodeChar c = [b]) ∨
      ∀ b ∈ String.utf8EncodeChar c, 0x80 ≤ b := by
  have hhi : ∀ {n : Nat}, n < 128 → (0x80 : UInt8) ≤ UInt8.ofNat (n + 0x80) := by
    intro n hn
    rw [UInt8.le_iff_toNat_le, UInt8.toNat_ofNat', Nat.mod_eq_of_lt (by omega)]
    exact Nat.le_add_left _ _
  unfold String.utf8EncodeChar
  dsimp only
  split_ifs with ho htwo hth
  · refine .inl ⟨_, ?_, rfl⟩
    rw [UInt8.lt_iff_toNat_lt, UInt8.toNat_ofNat', Nat.mod_eq_of_lt (by omega)]
    exact Nat.lt_succ_of_le ho
  all_goals
    -- a lead byte is `0xc0` or above, so it is `0x80` and something more
    refine .inr fun b hb => ?_
    simp only [mem_cons, not_mem_nil, or_false] at hb
  · rcases hb with rfl | rfl
    · exact hhi (n := c.val.toNat / 64 % 32 + 0x40) (by omega)
    · exact hhi (by omega)
  · rcases hb with rfl | rfl | rfl
    · exact hhi (n := c.val.toNat / 4096 % 16 + 0x60) (by omega)
    all_goals exact hhi (by omega)
  · rcases hb with rfl | rfl | rfl | rfl
    · exact hhi (n := c.val.toNat / 262144 % 8 + 0x70) (by omega)
    all_goals exact hhi (by omega)

/-- An ASCII byte alone. -/
theorem isText_ascii (hb : b < 0x80) : IsText [b] := by
  have hnat : b.toNat < 128 := UInt8.lt_iff_toNat_lt.mp hb
  have hv : b.toNat.isValidChar := .inl (by omega)
  have hch : (Char.ofNat b.toNat).val.toNat = b.toNat := by
    rw [Char.ofNat, dif_pos hv]
    exact UInt32.toNat_ofNatLT ..
  refine ⟨[Char.ofNat b.toNat], ?_⟩
  rw [flatMap_singleton]
  unfold String.utf8EncodeChar
  rw [hch, if_pos (by omega), UInt8.ofNat_toNat]

theorem isText_of_ascii (h : ∀ b ∈ bytes, b < 0x80) : IsText bytes := by
  induction bytes with
  | nil => exact isText_nil
  | cons b bytes ih =>
    exact (isText_ascii (h b mem_cons_self)).append (ih fun b hb => h b (mem_cons_of_mem _ hb))

/-! ## Boundaries -/

/-- A byte behind the first of its character. -/
def isContinuation (b : Byte) : Bool := 0x80 ≤ b && b < 0xc0

/-- No character begins in front of these bytes and ends in them. -/
def startsChar : List Byte → Bool
  | [] => true
  | b :: _ => !isContinuation b

/-- `str::is_char_boundary`. -/
def isCharBoundary (bytes : List Byte) (index : Nat) : Bool :=
  index == 0 || decide (index ≤ bytes.length) && startsChar (bytes.drop index)

/-- A character is a first byte and at most three that continue it. -/
theorem utf8EncodeChar_shape (c : Char) :
    ∃ lead conts, String.utf8EncodeChar c = lead :: conts ∧ isContinuation lead = false ∧
      (∀ b ∈ conts, isContinuation b = true) ∧ conts.length ≤ 3 := by
  have hc : ∀ n : Nat, isContinuation (UInt8.ofNat (n % 64 + 0x80)) = true := by
    intro n
    rw [isContinuation, Bool.and_eq_true, decide_eq_true_eq, decide_eq_true_eq,
      UInt8.le_iff_toNat_le, UInt8.lt_iff_toNat_lt, UInt8.toNat_ofNat', Nat.mod_eq_of_lt (by omega)]
    exact ⟨Nat.le_add_left _ _, Nat.add_lt_add_right (Nat.mod_lt _ (by decide)) _⟩
  have hle : ∀ {n : Nat}, n < 256 → n < 0x80 ∨ 0xc0 ≤ n →
      isContinuation (UInt8.ofNat n) = false := by
    intro n hn h
    rw [isContinuation, Bool.and_eq_false_iff, decide_eq_false_iff_not, decide_eq_false_iff_not,
      UInt8.le_iff_toNat_le, UInt8.lt_iff_toNat_lt, UInt8.toNat_ofNat', Nat.mod_eq_of_lt hn]
    exact h.imp Nat.not_le_of_lt Nat.not_lt_of_le
  unfold String.utf8EncodeChar
  dsimp only
  split_ifs with ho htwo hth
  · exact ⟨_, _, rfl, hle (by omega) (.inl (by omega)), by simp, by simp⟩
  all_goals
    refine ⟨_, _, rfl, hle (by omega) (.inr (by omega)), ?_, by simp⟩
    simp only [forall_mem_cons]
  · exact ⟨hc _, forall_mem_nil _⟩
  · exact ⟨hc _, hc _, forall_mem_nil _⟩
  · exact ⟨hc _, hc _, hc _, forall_mem_nil _⟩

theorem IsText.startsChar (h : IsText bytes) : startsChar bytes = true := by
  obtain ⟨cs, rfl⟩ := h
  cases cs with
  | nil => rfl
  | cons c cs =>
    obtain ⟨lead, conts, hc, hle, -⟩ := utf8EncodeChar_shape c
    rw [flatMap_cons, hc, cons_append, Keld.startsChar, hle]
    rfl

/-- A text is cut wherever a character starts. -/
theorem IsText.cut (h : IsText (xs ++ ys)) (hys : Keld.startsChar ys = true) :
    IsText xs ∧ IsText ys := by
  obtain ⟨cs, hcs⟩ := h
  induction cs generalizing xs with
  | nil =>
    obtain ⟨rfl, rfl⟩ := append_eq_nil_iff.mp hcs.symm
    exact ⟨isText_nil, isText_nil⟩
  | cons c cs ih =>
    have hch : IsText (String.utf8EncodeChar c) := ⟨[c], flatMap_singleton _ _⟩
    rw [flatMap_cons] at hcs
    rcases append_eq_append_iff.mp hcs with ⟨front, rfl, hr⟩ | ⟨front, hc, rfl⟩
    · -- the character is in front of the cut
      obtain ⟨hfr, hta⟩ := ih hr
      exact ⟨hch.append hfr, hta⟩
    · obtain ⟨lead, conts, hsh, -, hco, -⟩ := utf8EncodeChar_shape c
      cases xs with
      | nil =>
        rw [nil_append] at hc
        subst hc
        exact ⟨isText_nil, hch.append ⟨cs, rfl⟩⟩
      | cons x xs =>
        cases front with
        | nil =>
          rw [append_nil] at hc
          rw [← hc]
          exact ⟨hch, cs, rfl⟩
        | cons b front =>
          -- the cut would be inside the character
          rw [hsh] at hc
          have hb : b ∈ conts := by
            rw [(List.cons.inj hc).2]
            exact mem_append_right _ mem_cons_self
          rw [cons_append, Keld.startsChar, hco b hb] at hys
          exact absurd hys Bool.false_ne_true

/-- A boundary is never more than three bytes away. -/
theorem IsText.nearBoundary (h : IsText bytes) :
    ∀ index ≤ bytes.length, ∃ skip ≤ 3, index + skip ≤ bytes.length ∧
      Keld.startsChar (bytes.drop (index + skip)) = true := by
  obtain ⟨cs, rfl⟩ := h
  induction cs with
  | nil => exact fun index hid => ⟨0, by decide, hid, by simp [Keld.startsChar]⟩
  | cons c cs ih =>
    intro index hid
    obtain ⟨lead, conts, hc, -, -, hl⟩ := utf8EncodeChar_shape c
    have hr : IsText (cs.flatMap String.utf8EncodeChar) := ⟨cs, rfl⟩
    rw [flatMap_cons, length_append] at hid ⊢
    have hch : (String.utf8EncodeChar c).length ≤ 4 := by
      rw [hc, length_cons]
      omega
    rcases Nat.lt_or_ge index (String.utf8EncodeChar c).length with hin | ho
    · cases index with
      | zero =>
        refine ⟨0, by decide, Nat.zero_le _, ?_⟩
        have h : IsText (String.utf8EncodeChar c ++ cs.flatMap String.utf8EncodeChar) :=
          ⟨c :: cs, flatMap_cons⟩
        exact h.startsChar
      | succ index =>
        refine ⟨(String.utf8EncodeChar c).length - (index + 1), by omega, by omega, ?_⟩
        rw [Nat.add_sub_cancel' (Nat.le_of_lt hin), drop_left]
        exact hr.startsChar
    · obtain ⟨skip, hsk, hle, hst⟩ := ih (index - (String.utf8EncodeChar c).length) (by omega)
      refine ⟨skip, hsk, by omega, ?_⟩
      rw [drop_append, drop_eq_nil_of_le (by omega), nil_append, Nat.sub_add_comm ho]
      exact hst

/-- A text is cut around any of its ASCII bytes. -/
theorem isText_cut (hb : b < 0x80) (h : IsText (xs ++ b :: ys)) : IsText xs ∧ IsText ys := by
  have hs : startsChar (b :: ys) = true := by
    rw [startsChar, isContinuation, decide_eq_false (UInt8.not_le.mpr hb)]
    rfl
  obtain ⟨hxs, cs, hcs⟩ := h.cut hs
  refine ⟨hxs, ?_⟩
  cases cs with
  | nil => exact absurd hcs.symm (cons_ne_nil _ _)
  | cons c cs =>
    rw [flatMap_cons] at hcs
    rcases utf8EncodeChar_cases c with ⟨d, -, hd⟩ | hhi
    · rw [hd] at hcs
      obtain ⟨-, rfl⟩ := List.cons.inj hcs
      exact ⟨cs, rfl⟩
    · -- no byte of a longer character is ASCII
      obtain ⟨lead, conts, hc, -⟩ := utf8EncodeChar_shape c
      rw [hc] at hcs
      obtain ⟨rfl, -⟩ := List.cons.inj hcs
      exact absurd hb (UInt8.not_lt.mpr (hhi lead (by rw [hc]; exact mem_cons_self)))

end Keld
