/-
# `Keld.Archive.Header` — one header, written and read

The producer writes a header field by field into a zeroed block; the parser
checks every byte of it in three passes.  Both come down to the same row of
fields, `headerFields`: `header_eq` says so of the producer, and `headerOf_iff`
that the parser's checks pass on exactly the headers the producer writes.
-/
import Keld.Archive.Parser
import Mathlib.Data.List.Induction
import Mathlib.Data.List.Infix
import Mathlib.Data.List.TakeWhile

namespace Keld.Archive

open Pack List

/-! ## Octal digits -/

@[simp] theorem length_octalDigits (digits value : Nat) :
    (octalDigits digits value).length = digits := by
  induction digits generalizing value with
  | zero => rfl
  | succ digits ih => rw [octalDigits, length_append, ih, length_singleton]

@[simp] theorem length_octal (value width : Nat) : (octal value (width + 1)).length = width + 1 := by
  rw [octal, length_append, length_octalDigits, length_singleton, Nat.add_sub_cancel]

variable {value start : Nat} {byte : Byte} {field check bytes : List Byte} {name : String}
  {member : ArchiveMember} {kind : ArchiveEntryKind}

theorem octalStep_digit {digit : Nat} (hdi : digit < 8) (h : value * 8 + digit < u64Bound) :
    octalStep value (UInt8.ofNat (48 + digit)) = some (value * 8 + digit) := by
  have htoNat : (UInt8.ofNat (48 + digit)).toNat = 48 + digit := by
    rw [UInt8.toNat_ofNat', Nat.mod_eq_of_lt (by omega)]
  have hra : (48 : UInt8) ≤ UInt8.ofNat (48 + digit) ∧ UInt8.ofNat (48 + digit) ≤ 55 := by
    rw [UInt8.le_iff_toNat_le, UInt8.le_iff_toNat_le, htoNat]
    exact ⟨Nat.le_add_right _ _, show 48 + digit ≤ 55 by omega⟩
  unfold octalStep
  rw [if_pos hra, htoNat, Nat.add_sub_cancel_left]
  exact if_pos h

theorem octalStep_some {result : Nat} (h : octalStep value byte = some result) :
    ∃ digit < 8, byte = UInt8.ofNat (48 + digit) ∧ result = value * 8 + digit := by
  unfold octalStep at h
  dsimp only at h
  split_ifs at h with hra hb
  cases h
  rw [UInt8.le_iff_toNat_le, UInt8.le_iff_toNat_le] at hra
  have hlow : 48 ≤ byte.toNat := hra.1
  have hhi : byte.toNat ≤ 55 := hra.2
  refine ⟨byte.toNat - 48, by omega, ?_, rfl⟩
  rw [Nat.add_sub_cancel' hlow, UInt8.ofNat_toNat]

/-- Digits that fit are read back. -/
theorem foldlM_octalDigits {digits : Nat} (hva : value < 8 ^ digits) (hb : 8 ^ digits ≤ u64Bound) :
    (octalDigits digits value).foldlM octalStep 0 = some value := by
  induction digits generalizing value with
  | zero =>
    obtain rfl : value = 0 := by simpa using hva
    rfl
  | succ digits ih =>
    rw [Nat.pow_succ] at hva hb
    have hhi : value / 8 < 8 ^ digits := by omega
    have hr := ih hhi (by omega)
    rw [octalDigits, foldlM_append, hr]
    show (octalStep (value / 8) (UInt8.ofNat (48 + value % 8))).bind _ = _
    rw [octalStep_digit (Nat.mod_lt _ (by decide)) (by omega)]
    refine congrArg some ?_
    omega

/-- What is read is the digits of its value. -/
theorem foldlM_octalStep (h : field.foldlM octalStep 0 = some value) :
    field = octalDigits field.length value ∧ value < 8 ^ field.length := by
  induction field using reverseRecOn generalizing value with
  | nil =>
    cases h
    exact ⟨rfl, by decide⟩
  | append_singleton field byte ih =>
    rw [foldlM_append] at h
    obtain ⟨high, hhi, hl⟩ := Option.bind_eq_some_iff.mp h
    obtain ⟨value', hs, hva⟩ := Option.bind_eq_some_iff.mp hl
    cases hva
    obtain ⟨hf, hlt⟩ := ih hhi
    obtain ⟨digit, hdi, rfl, rfl⟩ := octalStep_some hs
    rw [length_append, length_singleton, octalDigits, Nat.pow_succ]
    have hdiv : (high * 8 + digit) / 8 = high := by omega
    have hmod : (high * 8 + digit) % 8 = digit := by omega
    rw [hdiv, hmod, ← hf]
    exact ⟨rfl, by omega⟩

/-- The twelve bytes of a size or time field. -/
theorem parseOctalField_eq_some :
    parseOctalField field = some value ↔ field = octal value 12 ∧ value < 8 ^ 11 := by
  unfold parseOctalField octal
  constructor
  · intro h
    split_ifs at h with hsh
    rw [not_or, not_not, not_not] at hsh
    obtain ⟨hlen, hcl⟩ := hsh
    obtain ⟨hdi, hva⟩ := foldlM_octalStep h
    have hta : (field.take 11).length = 11 := by rw [length_take, hlen]; rfl
    rw [hta] at hdi hva
    refine ⟨?_, hva⟩
    rw [← hdi]
    obtain ⟨hlt, hg⟩ := List.getElem?_eq_some_iff.mp hcl
    have hd : field.drop 11 = [0] := by
      rw [drop_eq_getElem_cons hlt, hg, drop_eq_nil_of_le hlen.le]
    rw [← hd, take_append_drop]
  · rintro ⟨rfl, hva⟩
    have hdi : (octalDigits 11 value).length = 11 := length_octalDigits _ _
    have hcl : (octalDigits 11 value ++ [0])[11]? = some 0 := by
      rw [getElem?_append_right hdi.le, hdi]
      rfl
    have hsh : ¬ ((octalDigits 11 value ++ [0]).length ≠ 12 ∨
        (octalDigits 11 value ++ [0])[11]? ≠ some 0) := by
      rw [hcl, length_append, hdi]
      exact fun h => h.elim (fun h => h rfl) (fun h => h rfl)
    rw [if_neg hsh, take_left' hdi]
    exact foldlM_octalDigits hva (by decide)

/-! ## The fields of a header -/

/-- What a member must meet for its header to say what it is. -/
structure Admissible (member : ArchiveMember) : Prop where
  named : utf8 member.name ≠ []
  short : (utf8 member.name).length ≤ 100
  noZero : 0 ∉ utf8 member.name
  size : member.size < 8 ^ 11
  directory : member.kind = .directory → member.size = 0

/-- The name with zeros behind it. -/
def nameField (name : String) : List Byte :=
  utf8 name ++ List.replicate (100 - (utf8 name).length) 0

/-- The fields as the parser cuts them, around a checksum field. -/
def headerFields (member : ArchiveMember) (check : List Byte) : List (List Byte) :=
  [nameField member.name, member.kind.mode, zeroField, zeroField, octal member.size 12, octal 0 12,
    check, [member.kind.flag], List.replicate 100 0, ustarMagic, ustarVersion, List.replicate 32 0,
    List.replicate 32 0, zeroField, zeroField, List.replicate 155 0, List.replicate 12 0]

def headerWidths : List Nat := [100, 8, 8, 8, 12, 12, 8, 1, 100, 6, 2, 32, 32, 8, 8, 155, 12]

/-- The sum of a header with eight blanks for its checksum. -/
def blankSum (member : ArchiveMember) : Nat :=
  byteSum (headerFields member (List.replicate 8 32)).flatten

def checkField (member : ArchiveMember) : List Byte := octal (blankSum member) 7 ++ [32]

/-- The header of a member. -/
def headerBytes (member : ArchiveMember) : List Byte :=
  (headerFields member (checkField member)).flatten

@[simp] theorem length_mode (kind : ArchiveEntryKind) : kind.mode.length = 8 := by
  cases kind <;> decide +kernel

@[simp] theorem length_zeroField : zeroField.length = 8 := by decide +kernel

@[simp] theorem length_ustarMagic : ustarMagic.length = 6 := by decide +kernel

@[simp] theorem length_ustarVersion : ustarVersion.length = 2 := by decide +kernel

theorem length_nameField (h : (utf8 name).length ≤ 100) : (nameField name).length = 100 := by
  rw [nameField, length_append, length_replicate]
  omega

@[simp] theorem length_checkField (member : ArchiveMember) : (checkField member).length = 8 := by
  rw [checkField, length_append, length_octal, length_singleton]

theorem headerFields_widths (hn : (utf8 member.name).length ≤ 100) (hch : check.length = 8) :
    (headerFields member check).map List.length = headerWidths := by
  simp only [headerFields, headerWidths, map_cons, map_nil, length_nameField hn,
    length_mode, length_zeroField, length_octal, hch, length_singleton,
    length_replicate, length_ustarMagic, length_ustarVersion]

/-! ## The producer's header -/

/-- The blocks the producer writes one by one. -/
def writtenWidths (name : Nat) : List Nat :=
  [name, 100 - name, 8, 8, 8, 12, 12, 7, 1, 1, 100, 6, 2, 64, 8, 8, 167]

/-- The same row, with the checksum field in its two parts. -/
def writtenFields (member : ArchiveMember) (digits blank : List Byte) : List (List Byte) :=
  [utf8 member.name, List.replicate (100 - (utf8 member.name).length) 0, member.kind.mode, zeroField,
    zeroField, octal member.size 12, octal 0 12, digits, blank, [member.kind.flag],
    List.replicate 100 0, ustarMagic, ustarVersion, List.replicate 64 0, zeroField, zeroField,
    List.replicate 167 0]

theorem flatten_writtenFields (member : ArchiveMember) (digits blank : List Byte) :
    (writtenFields member digits blank).flatten = (headerFields member (digits ++ blank)).flatten := by
  have h64 : List.replicate 64 (0 : Byte) = List.replicate 32 0 ++ List.replicate 32 0 := rfl
  have h167 : List.replicate 167 (0 : Byte) = List.replicate 155 0 ++ List.replicate 12 0 := rfl
  simp only [writtenFields, headerFields, nameField, h64, h167, flatten_cons, flatten_nil,
    append_assoc]

theorem header_eq (hn : (utf8 member.name).length ≤ 100) :
    ∃ bytes, header member = some bytes ∧ bytes.bytes = headerBytes member := by
  have hsum : (writtenWidths (utf8 member.name).length).sum = blockBytes := by
    simp only [writtenWidths, sum_cons, sum_nil, blockBytes]
    omega
  have hs : ∀ i start, 2 ≤ i → ([100, 8, 8, 8, 12, 12, 7, 1, 1, 100, 6, 2, 64, 8, 8, 167].take
      (i - 1)).sum = start → ((writtenWidths (utf8 member.name).length).take i).sum = start := by
    intro i start hi h
    obtain ⟨i, rfl⟩ : ∃ j, i = j + 2 := ⟨i - 2, by omega⟩
    rw [← h]
    show ((utf8 member.name).length :: (100 - (utf8 member.name).length) :: _).sum = (100 :: _).sum
    rw [sum_cons, sum_cons, sum_cons]
    exact (Nat.add_assoc _ _ _).symm.trans (congrArg (· + _) (Nat.add_sub_cancel' hn))
  obtain ⟨b₀, e₀, h₀⟩ := (Chunk.zero_holds hsum).copyAt 0
    (show ((writtenWidths (utf8 member.name).length).take 0).sum = 0 from rfl)
    (show some _ = some (utf8 member.name).length from rfl)
  obtain ⟨b₁, e₁, h₁⟩ := h₀.copyAt 2 (hs 2 100 (by decide) rfl)
    (show some 8 = some member.kind.mode.length by rw [length_mode])
  obtain ⟨b₂, e₂, h₂⟩ := h₁.copyAt 3 (hs 3 108 (by decide) rfl)
    (show some 8 = some zeroField.length by rw [length_zeroField])
  obtain ⟨b₃, e₃, h₃⟩ := h₂.copyAt 4 (hs 4 116 (by decide) rfl)
    (show some 8 = some zeroField.length by rw [length_zeroField])
  obtain ⟨b₄, e₄, h₄⟩ := h₃.copyAt 14 (hs 14 329 (by decide) rfl)
    (show some 8 = some zeroField.length by rw [length_zeroField])
  obtain ⟨b₅, e₅, h₅⟩ := h₄.copyAt 15 (hs 15 337 (by decide) rfl)
    (show some 8 = some zeroField.length by rw [length_zeroField])
  obtain ⟨b₆, e₆, h₆⟩ := h₅.copyAt 5 (hs 5 124 (by decide) rfl)
    (show some 12 = some (octal member.size 12).length by rw [length_octal])
  obtain ⟨b₇, e₇, h₇⟩ := h₆.copyAt 6 (hs 6 136 (by decide) rfl)
    (show some 12 = some (octal 0 12).length by rw [length_octal])
  obtain ⟨b₈, e₈, h₈⟩ := h₇.copyAt 7 (hs 7 148 (by decide) rfl)
    (show some 7 = some (List.replicate 7 (32 : Byte)).length from rfl)
  obtain ⟨b₉, e₉, h₉⟩ := h₈.copyAt 8 (hs 8 155 (by decide) rfl)
    (show some 1 = some [(32 : Byte)].length from rfl)
  obtain ⟨b₁₀, e₁₀, h₁₀⟩ := h₉.copyAt 9 (hs 9 156 (by decide) rfl)
    (show some 1 = some [member.kind.flag].length from rfl)
  obtain ⟨b₁₁, e₁₁, h₁₁⟩ := h₁₀.copyAt 11 (hs 11 257 (by decide) rfl)
    (show some 6 = some ustarMagic.length by rw [length_ustarMagic])
  obtain ⟨b₁₂, e₁₂, h₁₂⟩ := h₁₁.copyAt 12 (hs 12 263 (by decide) rfl)
    (show some 2 = some ustarVersion.length by rw [length_ustarVersion])
  have hbl : b₁₂.bytes = (headerFields member (List.replicate 8 32)).flatten := by
    rw [show List.replicate 8 (32 : Byte) = List.replicate 7 32 ++ [32] from rfl,
      ← flatten_writtenFields, h₁₂.bytes]
    simp only [writtenWidths, map_cons, map_nil, set_cons_zero, set_cons_succ, writtenFields]
  obtain ⟨b₁₃, e₁₃, h₁₃⟩ := h₁₂.copyAt 7 (hs 7 148 (by decide) rfl)
    (show some 7 = some (octal (byteSum b₁₂.bytes) 7).length by rw [length_octal])
  obtain ⟨b₁₄, e₁₄, h₁₄⟩ := h₁₃.copyAt 8 (hs 8 155 (by decide) rfl)
    (show some 1 = some [(32 : Byte)].length from rfl)
  have eblank : b₇.copyAt 148 (List.replicate 8 32) = some b₉ := by
    rw [show List.replicate 8 (32 : Byte) = List.replicate 7 32 ++ [32] from rfl,
      Chunk.copyAt_append (by decide), e₈]
    exact e₉
  refine ⟨b₁₄, ?_, ?_⟩
  · refine Option.bind_eq_some_iff.mpr ⟨b₀, e₀, ?_⟩
    refine Option.bind_eq_some_iff.mpr ⟨b₁, e₁, ?_⟩
    refine Option.bind_eq_some_iff.mpr ⟨b₂, e₂, ?_⟩
    refine Option.bind_eq_some_iff.mpr ⟨b₃, e₃, ?_⟩
    refine Option.bind_eq_some_iff.mpr ⟨b₄, e₄, ?_⟩
    refine Option.bind_eq_some_iff.mpr ⟨b₅, e₅, ?_⟩
    refine Option.bind_eq_some_iff.mpr ⟨b₆, e₆, ?_⟩
    refine Option.bind_eq_some_iff.mpr ⟨b₇, e₇, ?_⟩
    refine Option.bind_eq_some_iff.mpr ⟨b₉, eblank, ?_⟩
    refine Option.bind_eq_some_iff.mpr ⟨b₁₀, e₁₀, ?_⟩
    refine Option.bind_eq_some_iff.mpr ⟨b₁₁, e₁₁, ?_⟩
    refine Option.bind_eq_some_iff.mpr ⟨b₁₂, e₁₂, ?_⟩
    refine Option.bind_eq_some_iff.mpr ⟨b₁₃, e₁₃, ?_⟩
    exact e₁₄
  · rw [headerBytes, checkField, ← flatten_writtenFields, h₁₄.bytes, hbl]
    simp only [writtenWidths, map_cons, map_nil, set_cons_zero, set_cons_succ,
      writtenFields, blankSum]

/-! ## The parser's checks -/

/-- The three passes of the parser over a header. -/
def headerOf (header : List Byte) : Except UpdateError ArchiveMember := do
  verifyHeaderChecksum header
  verifyFixedFields header
  parseHeader header

theorem allZero_iff : allZero bytes = true ↔ bytes = List.replicate bytes.length 0 := by
  unfold allZero
  rw [all_eq_true, eq_replicate_iff]
  simp

theorem byteSum_append (left right : List Byte) :
    byteSum (left ++ right) = byteSum left + byteSum right := by
  simp [byteSum]

/-- The bytes outside the checksum field count as they are. -/
theorem headerSum_outside (h : start + bytes.length ≤ 148 ∨ 156 ≤ start) :
    ((bytes.zipIdx start).map fun (byte, index) =>
      if 148 ≤ index ∧ index < 156 then 32 else byte.toNat).sum = byteSum bytes := by
  induction bytes generalizing start with
  | nil => rfl
  | cons byte bytes ih =>
    rw [length_cons] at h
    have hin : ¬ (148 ≤ start ∧ start < 156) := by omega
    rw [zipIdx_cons, map_cons, sum_cons, ih (by omega)]
    dsimp only
    rw [if_neg hin, byteSum, byteSum, map_cons, sum_cons]

theorem headerSum_inside (hs : 148 ≤ start) (he : start + bytes.length ≤ 156) :
    ((bytes.zipIdx start).map fun (byte, index) =>
      if 148 ≤ index ∧ index < 156 then 32 else byte.toNat).sum = bytes.length * 32 := by
  induction bytes generalizing start with
  | nil => rfl
  | cons byte bytes ih =>
    rw [length_cons] at he
    rw [zipIdx_cons, map_cons, sum_cons, ih (by omega) (by omega)]
    dsimp only
    rw [if_pos ⟨hs, by omega⟩, length_cons]
    omega

theorem headerSum_split {front back : List Byte} (hfr : front.length = 148)
    (hch : check.length = 8) :
    headerSum (front ++ (check ++ back)) = byteSum (front ++ (List.replicate 8 32 ++ back)) := by
  unfold headerSum
  rw [zipIdx_append, zipIdx_append, map_append, map_append, sum_append,
    sum_append, Nat.zero_add, hfr, hch, headerSum_outside (.inl ((Nat.zero_add _).trans hfr).le),
    headerSum_inside (Nat.le_refl 148) (by rw [hch]), headerSum_outside (.inr (Nat.le_refl 156)),
    byteSum_append, byteSum_append, hch]
  rfl

theorem headerSum_fields (hn : (utf8 member.name).length ≤ 100) (hch : check.length = 8) :
    headerSum (headerFields member check).flatten = blankSum member := by
  have hs : ∀ check, (headerFields member check).flatten
      = ((headerFields member check).take 6).flatten
        ++ (check ++ ((headerFields member check).drop 7).flatten) := by
    intro check
    rw [← flatten_cons, ← flatten_append]
    rfl
  have hfr : ((headerFields member check).take 6).flatten.length = 148 := by
    rw [length_flatten, map_take, headerFields_widths hn hch]
    rfl
  rw [hs, headerSum_split hfr hch, blankSum, hs (List.replicate 8 32)]
  rfl

theorem byteSum_le (bytes : List Byte) : byteSum bytes ≤ 255 * bytes.length := by
  induction bytes with
  | nil => exact le_rfl
  | cons byte bytes ih =>
    have hby := byte.toNat_lt
    rw [byteSum, map_cons, sum_cons, length_cons, ← byteSum]
    omega

theorem blankSum_lt (hn : (utf8 member.name).length ≤ 100) : blankSum member < 8 ^ 6 := by
  have hlen : (headerFields member (List.replicate 8 32)).flatten.length = 512 := by
    rw [length_flatten, headerFields_widths hn length_replicate]
    rfl
  have hle := byteSum_le (headerFields member (List.replicate 8 32)).flatten
  rw [hlen] at hle
  exact Nat.lt_of_le_of_lt hle (by decide)

section

variable {header : List Byte} (hlen : header.length = 512)
include hlen

theorem slice_flag : header[156]? = some byte ↔ slice header 156 1 = [byte] := by
  have h156 : 156 < header.length := by omega
  rw [slice_one h156, getD_eq_getElem?_getD, List.getElem?_eq_getElem h156]
  simp

theorem entryKind_iff : entryKind header = .ok kind ↔ slice header 156 1 = [kind.flag] := by
  unfold entryKind
  rw [← slice_flag hlen]
  cases kind <;> split_ifs with hfi hd <;>
    simp_all [ArchiveEntryKind.flag, invalidArchive]

/-- A name field is a name without zero bytes and zeros behind it. -/
theorem parseName_iff :
    parseName header = .ok name ↔ utf8 name ≠ [] ∧ (utf8 name).length ≤ 100 ∧ 0 ∉ utf8 name ∧
      slice header 0 100 = nameField name := by
  have hf : (slice header 0 100).length = 100 := length_slice (by omega)
  unfold parseName nameField
  dsimp only
  constructor
  · intro h
    split_ifs at h with hsh
    · cases h
    rw [orElseError_ok, fromUtf8_eq_some] at h
    rw [not_or, not_not, allZero_iff] at hsh
    obtain ⟨hne, hze⟩ := hsh
    have hs : slice header 0 100 = utf8 name ++ (slice header 0 100).drop (utf8 name).length := by
      rw [h]
      exact prefix_append_drop (List.takeWhile_prefix _)
    have hle := congrArg List.length hs
    rw [length_append, hf] at hle
    refine ⟨?_, by omega, ?_, ?_⟩
    · rw [h]
      simpa using hne
    · intro hz
      rw [h] at hz
      simpa using mem_takeWhile_imp hz
    · rw [← h, length_drop, hf] at hze
      rw [hs, hze]
  · rintro ⟨hne, hsr, hz, hsl⟩
    have hta : (slice header 0 100).takeWhile (· != 0) = utf8 name := by
      have hn : ∀ byte ∈ utf8 name, (byte != 0) = true := by
        intro byte hby
        refine bne_iff_ne.mpr ?_
        rintro rfl
        exact hz hby
      rw [hsl, takeWhile_append_of_pos hn, takeWhile_replicate]
      simp
    have hze : allZero ((slice header 0 100).drop (utf8 name).length) = true := by
      rw [hsl, drop_left, allZero_iff, length_replicate]
    rw [hta, if_neg, fromUtf8_utf8]
    · rfl
    · rw [not_or, not_not]
      exact ⟨by simpa using hne, hze⟩

theorem fixedFields_iff (hk : slice header 156 1 = [kind.flag]) :
    verifyFixedFields header = .ok () ↔
      slice header 100 8 = kind.mode ∧ slice header 108 8 = zeroField ∧
        slice header 116 8 = zeroField ∧ slice header 257 6 = ustarMagic ∧
        slice header 263 2 = ustarVersion ∧ slice header 157 100 = List.replicate 100 0 ∧
        slice header 265 32 = List.replicate 32 0 ∧ slice header 297 32 = List.replicate 32 0 ∧
        slice header 329 8 = zeroField ∧ slice header 337 8 = zeroField ∧
        slice header 345 155 = List.replicate 155 0 ∧ slice header 500 12 = List.replicate 12 0 := by
  have hz : ∀ start width, start + width ≤ 512 → (allZero (slice header start width) = true ↔
        slice header start width = List.replicate width 0) := by
    intro start width h
    rw [allZero_iff, length_slice (by omega)]
  unfold verifyFixedFields
  rw [bind_ok]
  constructor
  · rintro ⟨kind', hk', h⟩
    rw [entryKind_iff hlen, hk] at hk'
    have hki : kind = kind' := by
      cases kind <;> cases kind' <;> first | rfl | cases hk'
    subst hki
    split_ifs at h with hfl
    · cases h
    · simpa only [not_or, not_not, hz _ _ (show 157 + 100 ≤ 512 by decide),
        hz _ _ (show 265 + 32 ≤ 512 by decide), hz _ _ (show 297 + 32 ≤ 512 by decide),
        hz _ _ (show 345 + 155 ≤ 512 by decide), hz _ _ (show 500 + 12 ≤ 512 by decide)]
        using hfl
  · intro h
    refine ⟨kind, (entryKind_iff hlen).mpr hk, if_neg ?_⟩
    simpa only [not_or, not_not, hz _ _ (show 157 + 100 ≤ 512 by decide),
      hz _ _ (show 265 + 32 ≤ 512 by decide), hz _ _ (show 297 + 32 ≤ 512 by decide),
      hz _ _ (show 345 + 155 ≤ 512 by decide), hz _ _ (show 500 + 12 ≤ 512 by decide)]
      using h

theorem parseHeader_iff :
    parseHeader header = .ok member ↔ Admissible member ∧
      slice header 0 100 = nameField member.name ∧ slice header 156 1 = [member.kind.flag] ∧
      slice header 124 12 = octal member.size 12 ∧ slice header 136 12 = octal 0 12 := by
  unfold parseHeader
  simp only [bind_ok, orElseError_ok, parseName_iff hlen, entryKind_iff hlen,
    parseOctalField_eq_some]
  constructor
  · rintro ⟨name, ⟨hne, hsh, hz, hn⟩, kind, hk, size, ⟨hs, hlt⟩, mtime, ⟨hmt, -⟩, h⟩
    split_ifs at h with hset hd
    · cases h
    · cases h
    · cases h
      rw [not_not] at hset
      rw [hset] at hmt
      refine ⟨⟨hne, hsh, hz, hlt, ?_⟩, hn, hk, hs, hmt⟩
      intro hk'
      by_contra hs'
      exact hd ⟨hk', hs'⟩
  · rintro ⟨had, hn, hk, hs, hmt⟩
    refine ⟨member.name, ⟨had.named, had.short, had.noZero, hn⟩,
      member.kind, hk, member.size, ⟨hs, had.size⟩, 0, ⟨hmt, by decide⟩, ?_⟩
    rw [if_neg (not_not.mpr rfl), if_neg]
    rintro ⟨hd, hs'⟩
    exact hs' (had.directory hd)

end

theorem checksum_iff (hn : (utf8 member.name).length ≤ 100) (hch : check.length = 8) :
    verifyHeaderChecksum (headerFields member check).flatten = .ok () ↔
      slice (headerFields member check).flatten 148 8 = checkField member := by
  have hr : blankSum member / 8 ^ 6 = 0 := Nat.div_eq_of_lt (blankSum_lt hn)
  have hf : octalDigits 6 (blankSum member) ++ [0, 32] = checkField member := by
    rw [checkField, octal, append_assoc]
    rfl
  unfold verifyHeaderChecksum
  rw [headerSum_fields hn hch]
  dsimp only
  rw [hr, hf]
  constructor
  · intro h
    split_ifs at h with hbad
    · cases h
    · rw [not_or, not_not, not_not] at hbad
      exact hbad.2
  · intro h
    refine if_neg ?_
    rw [not_or, not_not, not_not]
    exact ⟨rfl, h⟩

/-- The parser's three passes accept the headers the producer writes, and no others. -/
theorem headerOf_iff {header : List Byte} (hlen : header.length = 512) :
    headerOf header = .ok member ↔ Admissible member ∧ header = headerBytes member := by
  unfold headerOf
  simp only [bind_unit_ok, parseHeader_iff hlen]
  constructor
  · rintro ⟨hsum, hfi, had, hn, hk, hs, hmt⟩
    refine ⟨had, ?_⟩
    obtain ⟨hmo, huid, hgid, hma, hver, hli, hus, hg, hmj, hmi, hta, hpad⟩ :=
      (fixedFields_iff hlen hk).mp hfi
    have hch : (slice header 148 8).length = 8 := length_slice (by omega)
    have hh : header = (headerFields member (slice header 148 8)).flatten := by
      rw [← slices_eq_iff hlen (headerFields_widths had.short hch)]
      show [slice header 0 100, slice header 100 8, slice header 108 8, slice header 116 8,
        slice header 124 12, slice header 136 12, slice header 148 8, slice header 156 1,
        slice header 157 100, slice header 257 6, slice header 263 2, slice header 265 32,
        slice header 297 32, slice header 329 8, slice header 337 8, slice header 345 155,
        slice header 500 12] = _
      rw [hn, hmo, huid, hgid, hs, hmt, hk, hli, hma, hver, hus, hg, hmj, hmi, hta, hpad]
      rfl
    have hdi : slice header 148 8 = checkField member := by
      rw [hh, checksum_iff had.short hch, ← hh] at hsum
      exact hsum
    rw [hdi] at hh
    exact hh
  · rintro ⟨had, hh⟩
    have hwi := headerFields_widths had.short (length_checkField member)
    have hsl := (slices_eq_iff hlen hwi).mpr hh
    simp only [slices, headerWidths, headerFields, List.cons.injEq] at hsl
    obtain ⟨hn, hmo, huid, hgid, hs, hmt, hch, hk, hli, hma, hver, hus,
      hg, hmj, hmi, hta, hpad, -⟩ := hsl
    refine ⟨?_, (fixedFields_iff hlen hk).mpr ⟨hmo, huid, hgid, hma, hver, hli, hus,
      hg, hmj, hmi, hta, hpad⟩, had, hn, hk, hs, hmt⟩
    rw [hh, headerBytes, checksum_iff had.short (length_checkField member)]
    rw [hh] at hch
    exact hch

theorem length_headerBytes (h : (utf8 member.name).length ≤ 100) :
    (headerBytes member).length = blockBytes := by
  rw [headerBytes, length_flatten, headerFields_widths h (length_checkField member)]
  rfl

theorem headerBytes_not_zero (member : ArchiveMember) : allZero (headerBytes member) = false := by
  have hm : member.kind.flag ∈ headerBytes member := by
    refine mem_flatten.mpr ⟨[member.kind.flag], ?_, mem_singleton.mpr rfl⟩
    simp [headerFields]
  have hfl : member.kind.flag ≠ 0 := by
    cases member.kind <;> decide
  refine eq_false_of_ne_true ?_
  intro hz
  exact hfl (beq_iff_eq.mp (all_eq_true.mp hz _ hm))

end Keld.Archive
