/-
# `Keld.Pack.HostIdentityLaw` — what the container reader accepts, and what it overlooks

For every byte string the reader comes to an end without an overflow: all it adds
are fields of 32 bits and the size of the table.  What it accepts has one section
of the name, the last one, whose raw data is a canonical payload and zeros.

Signing writes the checksum and the entry of the certificate table and appends
the table.  The checks read none of the first two but for the entry itself, and
the ranges they admit stay inside the image, so the result stays as it was.  The
two images are read side by side (`carries_admitStructure`, `carries_readLayout`).
-/
import Keld.Pack.HostIdentity

namespace Keld.Pack.HostIdentity

open List

/-! ## Reading and adding -/

variable {a b count start nt rawEnd : ℕ} {bytes dos back : List Byte} {beyond : Stop} {test : Bool}
  {detail : String} {earlier sections front behind : List Section} {layout : Layout}
  {container : Section}

theorem add64_eq (h : a + b < u64Bound) : add64 a b = .ok (a + b) := if_pos h

theorem le_roundUp {value : ℕ} {alignment : UInt32} (hva : value < u64Bound) :
    value ≤ roundUp value alignment := by
  rw [roundUp]
  split_ifs <;> omega

theorem readAt_some {image : List Byte} {offset : ℕ} :
    readAt image offset count = some bytes ↔
      (offset + count < u64Bound ∧ offset + count ≤ image.length) ∧
        slice image offset count = bytes := by
  rw [readAt]
  split_ifs with h
  · rw [Option.some_inj, and_iff_right h]
  · exact iff_of_false nofun fun h' => h h'.1

theorem readExact_ok {image : List Byte} {offset : ℕ} :
    readExact image offset count beyond = .ok bytes ↔
      (offset + count < u64Bound ∧ offset + count ≤ image.length) ∧
        slice image offset count = bytes := by
  rw [readExact, orElseError_ok, readAt_some]

theorem readAt_edited {image image' : List Byte} {len offset : ℕ}
    (h : Edited image image' start len) (hin : offset + count ≤ image.length)
    (ho : offset + count ≤ start ∨ start + len ≤ offset) :
    readAt image' offset count = readAt image offset count := by
  rw [readAt, readAt, h.slice hin ho]
  have hin' := Nat.le_trans hin h.grows
  simp only [hin, hin', and_true]

/-- Where the length is the same, a range beyond the end is so in both. -/
theorem carries_readExact {image image' : List Byte} {len offset : ℕ} {excused : Prop}
    (h : Edited image image' start len) (hl : ¬ excused → image'.length = image.length)
    (ho : offset + count ≤ start ∨ start + len ≤ offset) (beyond : Stop) :
    Carries excused (fun a b => b = a) (readExact image offset count beyond)
      (readExact image' offset count beyond) := by
  by_cases hin : offset + count ≤ image.length
  · rw [readExact, readExact, readAt_edited h hin ho]
    exact .refl _
  · have hn : readAt image offset count = none := if_neg fun h => hin h.2
    rw [readExact, hn]
    by_cases hexc : excused
    · cases readExact image' offset count beyond with
      | ok bytes => exact hexc
      | error err => exact .inl hexc
    · have hn' : readAt image' offset count = none := if_neg fun h => hin (hl hexc ▸ h.2)
      rw [readExact, hn']
      exact .inr rfl

/-! ## No overflow -/

/-- A refusal, not an overflow. -/
def Refuses (err : Stop) : Prop := err ≠ .overflow

theorem refuses_invalid (detail : String) : Refuses (invalid detail) := nofun

theorem refuses_containerInvalid (detail : String) : Refuses (containerInvalid detail) := nofun

theorem errors_readExact {image : List Byte} {offset : ℕ} (h : Refuses beyond) :
    ErrorsOf Refuses (readExact image offset count beyond) := .orElseError h

theorem errors_add64 (h : a + b < u64Bound) : ErrorsOf Refuses (add64 a b) := by
  rw [add64_eq h]
  exact .ok _

theorem errors_splitBuffer {capacity : ℕ} (h : count ≤ capacity) :
    ErrorsOf Refuses (splitBuffer capacity count) := by
  rw [splitBuffer, require_ok.mpr (decide_eq_true h)]
  exact .ok _

theorem errors_require :
    ErrorsOf Refuses (require test (invalid detail)) := .require (refuses_invalid detail)

theorem errors_requireContainer : ErrorsOf Refuses (require test (containerInvalid detail)) :=
  .require (refuses_containerInvalid detail)

theorem admitDos_ok (h : admitDos dos = .ok nt) :
    nt = (le32 dos eLfanew).toNat ∧ dosHeaderBytes ≤ nt := by
  obtain ⟨-, h⟩ := bind_unit_ok.mp h
  obtain ⟨hnt, h⟩ := bind_unit_ok.mp h
  cases h
  exact ⟨rfl, of_decide_eq_true (require_ok.mp hnt)⟩

theorem errors_admitDos (dos : List Byte) : ErrorsOf Refuses (admitDos dos) :=
  errors_require.bind fun _ => errors_require.bind fun _ => .ok _

theorem errors_admitCoff (coff : List Byte) : ErrorsOf Refuses (admitCoff coff) :=
  errors_require.bind fun _ => errors_require.bind fun _ => errors_require.bind fun _ =>
    errors_require

theorem errors_admitOptional (len : ℕ) (coff optional : List Byte) :
    ErrorsOf Refuses (admitOptional len coff optional) :=
  errors_require.bind fun _ => errors_require.bind fun _ => errors_require.bind fun _ =>
    errors_require.bind fun _ => errors_require.bind fun _ => errors_require.bind fun _ => .ok _

/-- What the later stages use of admitted headers. -/
structure HeadersOf (image : List Byte) (headers : Headers) : Prop where
  nt : headers.nt = (le32 (slice image 0 dosHeaderBytes) eLfanew).toNat
  nt_lt : headers.nt < 2 ^ 32
  nt_ge : dosHeaderBytes ≤ headers.nt
  optional : headers.optional = slice image (headers.nt + coffEnd) optionalHeaderBytes
  within : headers.nt + coffEnd + optionalHeaderBytes ≤ image.length
  count : headers.count ≤ loaderMaxSections
  sizeOfHeaders : (le32 headers.optional sizeOfHeaders).toNat ≤ image.length

theorem admitOptional_ok {len : ℕ} {coff optional : List Byte}
    (h : admitOptional len coff optional = .ok count) :
    (le32 optional sizeOfHeaders).toNat ≤ len ∧ count ≤ loaderMaxSections := by
  obtain ⟨-, h⟩ := bind_unit_ok.mp h
  obtain ⟨-, h⟩ := bind_unit_ok.mp h
  obtain ⟨-, h⟩ := bind_unit_ok.mp h
  obtain ⟨-, h⟩ := bind_unit_ok.mp h
  obtain ⟨hhe, h⟩ := bind_unit_ok.mp h
  obtain ⟨hc, h⟩ := bind_unit_ok.mp h
  cases h
  exact ⟨(of_decide_eq_true (require_ok.mp hhe)).2, (of_decide_eq_true (require_ok.mp hc)).2⟩

theorem nt_lt (h : admitDos dos = .ok nt) : nt < 2 ^ 32 := by
  rw [(admitDos_ok h).1]
  exact UInt32.toNat_lt _

theorem admitHeaders_ok {image : List Byte} {headers : Headers}
    (h : admitHeaders image = .ok headers) : HeadersOf image headers := by
  obtain ⟨dos, hdos, h⟩ := bind_ok.mp h
  obtain ⟨nt, hnt, h⟩ := bind_ok.mp h
  obtain ⟨coff, hco, h⟩ := bind_ok.mp h
  obtain ⟨-, h⟩ := bind_unit_ok.mp h
  obtain ⟨start, hs, h⟩ := bind_ok.mp h
  obtain ⟨optional, hop, h⟩ := bind_ok.mp h
  obtain ⟨count, hc, h⟩ := bind_ok.mp h
  cases h
  have hlt := nt_lt hnt
  rw [add64_eq (by rw [coffEnd, u64Bound]; omega)] at hs
  cases hs
  obtain ⟨-, rfl⟩ := readExact_ok.mp hdos
  obtain ⟨⟨-, hwi⟩, rfl⟩ := readExact_ok.mp hop
  exact ⟨(admitDos_ok hnt).1, hlt, (admitDos_ok hnt).2, rfl, hwi, (admitOptional_ok hc).2,
    (admitOptional_ok hc).1⟩

theorem errors_admitHeaders (image : List Byte) : ErrorsOf Refuses (admitHeaders image) := by
  refine (errors_readExact (refuses_invalid _)).bind fun dos => ?_
  refine (errors_admitDos dos).bindOf fun nt hnt => ?_
  refine (errors_readExact (refuses_invalid _)).bind fun coff => ?_
  refine (errors_admitCoff coff).bind fun _ => ?_
  have hlt := nt_lt hnt
  refine (errors_add64 (by rw [coffEnd, u64Bound]; omega)).bind fun start => ?_
  refine (errors_readExact (refuses_invalid _)).bind fun optional => ?_
  exact (errors_admitOptional _ coff optional).bind fun count => .ok _

theorem errors_admitRawRanges (sizeOfHeaders fileAlignment : UInt32) (len : ℕ)
    (sections earlier : List Section) (rawEnd : ℕ) :
    ErrorsOf Refuses
      (admitRawRangesFrom sizeOfHeaders fileAlignment len earlier rawEnd sections) := by
  have hro (earlier : List Section) (rawEnd : ℕ) (s : Section) :
      ErrorsOf Refuses (admitRawRange sizeOfHeaders fileAlignment len earlier rawEnd s) := by
    rw [admitRawRange]
    split_ifs
    · exact .ok _
    · exact errors_require.bind fun _ => errors_require.bind fun _ => errors_require.bind fun _ =>
        errors_require.bind fun _ => errors_require.bind fun _ => .ok _
  induction sections generalizing earlier rawEnd with
  | nil => exact .ok _
  | cons s sections ih => exact (hro earlier rawEnd s).bind fun rawEnd => ih _ rawEnd

theorem errors_admitVirtualLayout (sections : List Section)
    (sectionAlignment sizeOfImage : UInt32) :
    ErrorsOf Refuses (admitVirtualLayout sections sectionAlignment sizeOfImage) := by
  have hro (virtualEnd : Option ℕ) (s : Section) :
      ErrorsOf Refuses (admitVirtualRange sectionAlignment virtualEnd s) := by
    have hsum : s.virtualAddress.toNat + s.virtualSize.toNat < u64Bound := by
      have := s.virtualAddress.toNat_lt
      have := s.virtualSize.toNat_lt
      rw [u64Bound]
      omega
    exact errors_require.bind fun _ => errors_require.bind fun _ => errors_require.bind fun _ =>
      (errors_add64 hsum).bind fun _ => .ok _
  have hl (virtualEnd : Option ℕ) :
      ErrorsOf Refuses (sections.foldlM (admitVirtualRange sectionAlignment) virtualEnd) := by
    induction sections generalizing virtualEnd with
    | nil => exact .ok _
    | cons s sections ih => exact (hro virtualEnd s).bind ih
  exact (hl none).bind fun virtualEnd => errors_require

theorem errors_admitStructure (image : List Byte) : ErrorsOf Refuses (admitStructure image) := by
  refine (errors_admitHeaders image).bindOf fun headers hhe => ?_
  have hof := admitHeaders_ok hhe
  have hnt := hof.nt_lt
  have hc : headers.count ≤ 96 := hof.count
  have hs : headers.nt + (coffEnd + optionalHeaderBytes) < u64Bound := by
    rw [coffEnd, optionalHeaderBytes, u64Bound]
    omega
  have he : headers.nt + (coffEnd + optionalHeaderBytes) +
      headers.count * sectionHeaderBytes < u64Bound := by
    rw [coffEnd, optionalHeaderBytes, sectionHeaderBytes, u64Bound]
    omega
  rw [add64_eq hs]
  show ErrorsOf Refuses (add64 _ _ >>= fun _ => _)
  rw [add64_eq he]
  refine errors_require.bind fun _ => ?_
  refine (errors_splitBuffer (Nat.mul_le_mul_right _ hof.count)).bind fun _ => ?_
  refine (errors_readExact (refuses_invalid _)).bind fun table => ?_
  refine (errors_admitRawRanges _ _ _ _ _ _).bind fun rawEnd => ?_
  exact (errors_admitVirtualLayout _ _ _).bind fun _ => .ok _

/-! ## What is admitted -/

/-- A raw range lies behind the headers and inside the image. -/
def RawWithin (sizeOfHeaders : UInt32) (len : ℕ) (s : Section) : Prop :=
  s.hasRawRange = true → sizeOfHeaders.toNat ≤ s.rawPointer.toNat ∧ s.rawEnd ≤ len

/-- The entry of the certificate table in the optional header at `start`. -/
def certificateOf (image : List Byte) (start : ℕ) : UInt32 × UInt32 :=
  (le32 (slice image start optionalHeaderBytes) certificateTable,
    le32 (slice image start optionalHeaderBytes) (certificateTable + 4))

/-- What the later stages use of an admitted structure. -/
structure LayoutOf (image : List Byte) (layout : Layout) : Prop where
  nt : layout.nt = (le32 (slice image 0 dosHeaderBytes) eLfanew).toNat
  nt_ge : dosHeaderBytes ≤ layout.nt
  len : layout.len = image.length
  optional : layout.nt + (coffEnd + optionalHeaderBytes) ≤ layout.sizeOfHeaders.toNat
  headers : layout.sizeOfHeaders.toNat ≤ image.length
  raw : ∀ s ∈ layout.sections, RawWithin layout.sizeOfHeaders image.length s
  certificate : layout.certificate = certificateOf image (layout.nt + coffEnd)

theorem admitRawRange_ok {sizeOfHeaders fileAlignment : UInt32} {len next : ℕ} {s : Section}
    (h : admitRawRange sizeOfHeaders fileAlignment len earlier rawEnd s = .ok next) :
    RawWithin sizeOfHeaders len s := by
  intro hr
  rw [admitRawRange, hr] at h
  obtain ⟨-, h⟩ := bind_unit_ok.mp h
  obtain ⟨-, h⟩ := bind_unit_ok.mp h
  obtain ⟨hs, h⟩ := bind_unit_ok.mp h
  obtain ⟨he, h⟩ := bind_unit_ok.mp h
  exact ⟨UInt32.le_iff_toNat_le.mp (of_decide_eq_true (require_ok.mp hs)),
    of_decide_eq_true (require_ok.mp he)⟩

theorem admitRawRangesFrom_ok {sizeOfHeaders fileAlignment : UInt32} {len result : ℕ}
    (h : admitRawRangesFrom sizeOfHeaders fileAlignment len earlier rawEnd sections = .ok result) :
    ∀ s ∈ sections, RawWithin sizeOfHeaders len s := by
  induction sections generalizing earlier rawEnd with
  | nil => exact nofun
  | cons s sections ih =>
    obtain ⟨next, hn, h⟩ := bind_ok.mp h
    exact forall_mem_cons.mpr ⟨admitRawRange_ok hn, ih h⟩

theorem admitStructure_ok {image : List Byte} (h : admitStructure image = .ok layout) :
    LayoutOf image layout := by
  obtain ⟨headers, hhe, h⟩ := bind_ok.mp h
  have hof := admitHeaders_ok hhe
  obtain ⟨tableStart, hs, h⟩ := bind_ok.mp h
  obtain ⟨tableEnd, he, h⟩ := bind_ok.mp h
  obtain ⟨ht, h⟩ := bind_unit_ok.mp h
  obtain ⟨-, h⟩ := bind_unit_ok.mp h
  obtain ⟨table, -, h⟩ := bind_ok.mp h
  obtain ⟨rawEnd, hr, h⟩ := bind_ok.mp h
  obtain ⟨-, h⟩ := bind_unit_ok.mp h
  cases h
  have hle := of_decide_eq_true (require_ok.mp ht)
  have hnt := hof.nt_lt
  rw [add64_eq (by rw [coffEnd, optionalHeaderBytes, u64Bound]; omega)] at hs
  cases hs
  rw [add64] at he
  split_ifs at he
  cases he
  exact ⟨hof.nt, hof.nt_ge, rfl, Nat.le_trans (Nat.le_add_right _ _) hle, hof.sizeOfHeaders,
    admitRawRangesFrom_ok hr, by rw [certificateOf, ← hof.optional]⟩

/-! ## The container that is accepted -/

theorem findContainer_ok (h : findContainer sections = .ok (front, container, behind)) :
    sections = front ++ container :: behind ∧ (∀ s ∈ front, s.name ≠ sectionName) ∧
      container.name = sectionName ∧ ∀ s ∈ behind, s.name ≠ sectionName := by
  rw [findContainer] at h
  cases hba : sections.dropWhile fun s => s.name ≠ sectionName with
  | nil =>
    rw [hba] at h
    cases h
  | cons s rest =>
    rw [hba] at h
    dsimp only at h
    split_ifs at h with hany
    cases h
    refine ⟨?_, fun s hs => ?_, ?_, fun s hs hn => hany ?_⟩
    · rw [← hba, takeWhile_append_dropWhile]
    · exact of_decide_eq_true
        (mem_takeWhile_imp (p := fun s : Section => decide (s.name ≠ sectionName)) hs)
    · have hh := head?_dropWhile_not (fun s => decide (s.name ≠ sectionName)) sections
      rw [hba] at hh
      simpa using hh
    · exact any_eq_true.mpr ⟨s, hs, decide_eq_true hn⟩

theorem errors_findContainer (sections : List Section) :
    ErrorsOf Refuses (findContainer sections) := by
  rw [findContainer]
  split
  · rintro _ ⟨⟩
    exact nofun
  · split_ifs
    · rintro _ ⟨⟩
      exact nofun
    · exact .ok _

/-- The canonical form of the container among its sections. -/
structure Canonical (layout : Layout) (front : List Section) (container : Section) : Prop where
  notAlone : front ≠ []
  characteristics : container.characteristics = containerCharacteristics
  lines : container.relocationsPointer = 0 ∧ container.lineNumbersPointer = 0 ∧
    container.relocationCount = 0 ∧ container.lineNumberCount = 0
  virtualSize : minPayloadBytes ≤ container.virtualSize.toNat ∧
    container.virtualSize.toNat ≤ maxPayloadBytes
  rawSize : container.rawSize.toNat = roundUp container.virtualSize.toNat layout.fileAlignment
  last : ∀ earlier ∈ front, earlier.rawEnd ≤ container.rawPointer.toNat

/-- The certificate table is absent, or behind the container and inside the image. -/
def CertificateFits (layout : Layout) (container : Section) : Prop :=
  layout.certificate = (0, 0) ∨ (container.rawEnd ≤ layout.certificate.1.toNat ∧
    layout.certificate.1.toNat + layout.certificate.2.toNat ≤ layout.len)

theorem certificate_lt (layout : Layout) :
    layout.certificate.1.toNat + layout.certificate.2.toNat < u64Bound := by
  have := layout.certificate.1.toNat_lt
  have := layout.certificate.2.toNat_lt
  rw [u64Bound]
  omega

theorem admitContainer_ok (h : admitContainer layout front container behind = .ok ()) :
    behind = [] ∧ Canonical layout front container ∧ CertificateFits layout container := by
  obtain ⟨hbeh, h⟩ := bind_unit_ok.mp h
  obtain ⟨hfr, h⟩ := bind_unit_ok.mp h
  obtain ⟨hfl, h⟩ := bind_unit_ok.mp h
  obtain ⟨hli, h⟩ := bind_unit_ok.mp h
  obtain ⟨hs, h⟩ := bind_unit_ok.mp h
  obtain ⟨hr, h⟩ := bind_unit_ok.mp h
  obtain ⟨hl, h⟩ := bind_unit_ok.mp h
  rw [add64_eq (certificate_lt layout)] at h
  have hf := of_decide_eq_true (require_ok.mp h)
  refine ⟨of_decide_eq_true (require_ok.mp hbeh), ⟨of_decide_eq_true (require_ok.mp hfr),
    of_decide_eq_true (require_ok.mp hfl), of_decide_eq_true (require_ok.mp hli),
    of_decide_eq_true (require_ok.mp hs), of_decide_eq_true (require_ok.mp hr), ?_⟩, hf⟩
  intro earlier hea
  have hn := require_ok.mp hl
  rw [Bool.not_eq_true', any_eq_false] at hn
  exact Nat.not_lt.mp fun hlt => hn earlier hea (decide_eq_true hlt)

theorem errors_admitContainer (layout : Layout) (front behind : List Section)
    (container : Section) : ErrorsOf Refuses (admitContainer layout front container behind) :=
  errors_requireContainer.bind fun _ => errors_requireContainer.bind fun _ =>
    errors_requireContainer.bind fun _ => errors_requireContainer.bind fun _ =>
    errors_requireContainer.bind fun _ => errors_requireContainer.bind fun _ =>
    errors_requireContainer.bind fun _ => (errors_add64 (certificate_lt layout)).bind fun _ =>
    errors_requireContainer

theorem rawEnd_lt (s : Section) : s.rawEnd < 2 ^ 33 := by
  have := s.rawPointer.toNat_lt
  have := s.rawSize.toNat_lt
  rw [Section.rawEnd]
  omega

/-- The loop ends at the raw end, and everything up to there is zero. -/
theorem checkPadding_ok {image : List Byte} {offset : ℕ} (hle : offset ≤ rawEnd)
    (h : checkPadding image offset rawEnd = .ok ()) :
    slice image offset (rawEnd - offset) = List.replicate (rawEnd - offset) 0 := by
  induction hl : rawEnd - offset using Nat.strong_induction_on generalizing offset with
  | _ n ih =>
    rw [checkPadding] at h
    split_ifs at h with hlt
    case neg =>
      have hz : n = 0 := by omega
      rw [hz]
      exact take_zero
    obtain ⟨-, h⟩ := bind_unit_ok.mp h
    obtain ⟨padding, hpad, h⟩ := bind_ok.mp h
    obtain ⟨⟨-, hin⟩, rfl⟩ := readExact_ok.mp hpad
    obtain ⟨hze, h⟩ := bind_unit_ok.mp h
    obtain ⟨_, -, h⟩ := bind_ok.mp h
    have hpos : 0 < paddingChunkBytes := by decide
    have hn := ih (rawEnd - (offset + min (rawEnd - offset) paddingChunkBytes)) (by omega)
      (by omega) h rfl
    have ha : slice image offset (min (rawEnd - offset) paddingChunkBytes) =
        List.replicate (min (rawEnd - offset) paddingChunkBytes) 0 := by
      refine eq_replicate_iff.mpr ⟨length_slice hin, fun b hb => ?_⟩
      exact of_decide_eq_true (all_eq_true.mp (require_ok.mp hze) b hb)
    have hs : n = min (rawEnd - offset) paddingChunkBytes +
        (rawEnd - (offset + min (rawEnd - offset) paddingChunkBytes)) := by omega
    rw [hs, ← slice_append_slice, ha, hn, replicate_append_replicate]

theorem errors_checkPadding {image : List Byte} {offset : ℕ} (he : rawEnd < u64Bound) :
    ErrorsOf Refuses (checkPadding image offset rawEnd) := by
  induction hl : rawEnd - offset using Nat.strong_induction_on generalizing offset with
  | _ n ih =>
    have hpos : 0 < paddingChunkBytes := by decide
    rw [checkPadding]
    split_ifs with hlt
    · refine (errors_splitBuffer (Nat.min_le_right _ _)).bind fun _ => ?_
      refine (errors_readExact (refuses_containerInvalid _)).bind fun padding => ?_
      refine errors_requireContainer.bind fun _ => ?_
      refine (errors_add64 (by omega)).bind fun _ => ?_
      exact ih (rawEnd - (offset + min (rawEnd - offset) paddingChunkBytes)) (by omega) rfl
    · exact .ok _

theorem errors_readLayout (image : List Byte) (layout : Layout) :
    ErrorsOf Refuses (readLayout image layout) := by
  refine (errors_findContainer layout.sections).bind ?_
  rintro ⟨front, container, behind⟩
  refine (errors_admitContainer layout front behind container).bindOf fun _ ha => ?_
  refine (errors_splitBuffer (admitContainer_ok ha).2.1.virtualSize.2).bind fun _ => ?_
  refine (errors_readExact (refuses_containerInvalid _)).bind fun payload => ?_
  have hsum : container.rawPointer.toNat + container.virtualSize.toNat < u64Bound := by
    have := container.rawPointer.toNat_lt
    have := container.virtualSize.toNat_lt
    rw [u64Bound]
    omega
  have he : container.rawEnd < u64Bound := Nat.lt_trans (rawEnd_lt container) (by decide)
  refine (errors_add64 hsum).bind fun offset => ?_
  refine (errors_checkPadding he).bind fun _ => ?_
  exact .mapError nofun

/-- The payload and zeros are all of the container's raw data. -/
structure Holds (image : List Byte) (layout : Layout) (payload : ExpectedAppIdentityPayload)
    (front : List Section) (container : Section) : Prop where
  sections : layout.sections = front ++ [container]
  name : container.name = sectionName
  single : ∀ s ∈ front, s.name ≠ sectionName
  canonical : Canonical layout front container
  certificate : CertificateFits layout container
  length : container.virtualSize.toNat = payload.encode.length
  raw : slice image container.rawPointer.toNat container.rawSize.toNat =
    payload.encode ++ List.replicate (container.rawSize.toNat - payload.encode.length) 0

theorem Canonical.virtual_le_raw (h : Canonical layout front container) :
    container.virtualSize.toNat ≤ container.rawSize.toNat := by
  rw [h.rawSize]
  exact le_roundUp (Nat.lt_trans container.virtualSize.toNat_lt (by decide))

theorem readLayout_ok {image : List Byte} {payload : ExpectedAppIdentityPayload}
    (h : readLayout image layout = .ok payload) :
    ∃ front container, Holds image layout payload front container := by
  obtain ⟨⟨front, container, behind⟩, hf, h⟩ := bind_ok.mp h
  obtain ⟨ha, h⟩ := bind_unit_ok.mp h
  obtain ⟨-, h⟩ := bind_unit_ok.mp h
  obtain ⟨bytes, hby, h⟩ := bind_ok.mp h
  obtain ⟨offset, hoff, h⟩ := bind_ok.mp h
  obtain ⟨hpad, hde⟩ := bind_unit_ok.mp h
  obtain ⟨hse, hsi, hn, -⟩ := findContainer_ok hf
  obtain ⟨rfl, hcan, hce⟩ := admitContainer_ok ha
  obtain ⟨⟨-, hin⟩, hsl⟩ := readExact_ok.mp hby
  have henc := payload_codec.canonical (mapError_ok.mp hde)
  have hl : container.virtualSize.toNat = payload.encode.length := by
    rw [henc, ← hsl, length_slice hin]
  have hr := hcan.virtual_le_raw
  rw [add64] at hoff
  split_ifs at hoff
  cases hoff
  have hze := checkPadding_ok (Nat.add_le_add_left hr _) hpad
  refine ⟨front, container, hse, hn, hsi, hcan, hce, hl, ?_⟩
  rw [Nat.add_sub_add_left] at hze
  calc slice image container.rawPointer.toNat container.rawSize.toNat
      = slice image container.rawPointer.toNat (container.virtualSize.toNat +
          (container.rawSize.toNat - container.virtualSize.toNat)) := by
        rw [Nat.add_sub_cancel' hr]
    _ = payload.encode ++ List.replicate (container.rawSize.toNat - payload.encode.length) 0 := by
        rw [← slice_append_slice, hsl, hze, henc, hl, henc]

/-! ## A change in place, or behind the end -/

/-- The fields of the optional header that the structure is admitted by. -/
def readFields : List (ℕ × ℕ) :=
  [(magic, 2), (sizeOfInitializedData, 4), (sectionAlignment, 4), (fileAlignment, 4),
    (sizeOfImage, 4), (sizeOfHeaders, 4), (numberOfRvaAndSizes, 4), (boundImport, 8)]

/-- Where the image says that its PE signature is. -/
def ntOf (image : List Byte) : ℕ := (le32 (slice image 0 dosHeaderBytes) eLfanew).toNat

/-- A range of the optional header is written over that no admitted field lies in. -/
structure Overlooks (image image' : List Byte) (offset len : ℕ) : Prop where
  edited : Edited image image' (ntOf image + coffEnd + offset) len
  within : offset + len ≤ optionalHeaderBytes
  fields : ∀ field ∈ readFields, field.1 + field.2 ≤ offset ∨ offset + len ≤ field.1
  signature : dosHeaderBytes ≤ ntOf image + coffEnd + offset

/-- The layout of the same sections in a longer image. -/
def Layout.grown (layout : Layout) (size : ℕ) (certificate : UInt32 × UInt32) : Layout :=
  { layout with len := size, certificate }

section Overlooks

variable {image image' : List Byte} {offset len : ℕ} {excused : Prop}

variable {count size size' start : ℕ} {optional optional' : List Byte} {layout : Layout}
  {container : Section} {certificate : UInt32 × UInt32}

theorem Overlooks.slice_optional (h : Overlooks image image' offset len) {field : ℕ}
    (hin : ntOf image + coffEnd + optionalHeaderBytes ≤ image.length)
    (hf : field + count ≤ optionalHeaderBytes)
    (ho : field + count ≤ offset ∨ offset + len ≤ field) :
    slice (slice image' (ntOf image + coffEnd) optionalHeaderBytes) field count =
      slice (slice image (ntOf image + coffEnd) optionalHeaderBytes) field count := by
  rw [slice_slice hf, slice_slice hf]
  exact h.edited.slice (by omega) (by omega)

/-- What is read of an optional header is the same of another. -/
def SameFields (optional optional' : List Byte) : Prop :=
  ∀ field ∈ readFields, slice optional' field.1 field.2 = slice optional field.1 field.2

theorem Overlooks.sameFields (h : Overlooks image image' offset len)
    (hin : ntOf image + coffEnd + optionalHeaderBytes ≤ image.length) :
    SameFields (slice image (ntOf image + coffEnd) optionalHeaderBytes)
      (slice image' (ntOf image + coffEnd) optionalHeaderBytes) := by
  have hfi : ∀ field ∈ readFields, field.1 + field.2 ≤ optionalHeaderBytes := by decide
  intro field hf
  exact h.slice_optional hin (hfi field hf) (h.fields field hf)

theorem SameFields.le32 (h : SameFields optional optional') (field : ℕ)
    (hf : (field, 4) ∈ readFields) :
    le32 optional' field = le32 optional field := congrArg u32Le (h _ hf)

theorem carries_admitOptional (h : SameFields optional optional') (hle : size ≤ size')
    (hs : ¬ excused → size' = size) (coff : List Byte) :
    Carries excused (fun a b => b = a) (admitOptional size coff optional)
      (admitOptional size' coff optional') := by
  have hma : le16 optional' magic = le16 optional magic := congrArg u16Le (h (magic, 2) (by decide))
  rw [admitOptional, admitOptional, hma, h.le32 numberOfRvaAndSizes (by decide),
    h.le32 fileAlignment (by decide), h.le32 sectionAlignment (by decide),
    h.le32 sizeOfHeaders (by decide)]
  refine (Carries.refl _).bind fun _ _ _ _ => (Carries.refl _).bind fun _ _ _ _ =>
    (Carries.refl _).bind fun _ _ _ _ => (Carries.refl _).bind fun _ _ _ _ =>
    (Carries.require ?_ ?_).bind fun _ _ _ _ => (Carries.refl _).bind fun _ _ _ _ =>
    Carries.pure rfl
  · simp only [decide_eq_true_eq]
    exact fun h => ⟨h.1, Nat.le_trans h.2 hle⟩
  · intro hno
    rw [hs hno]
    exact id

/-- A range that may be written over. -/
theorem carries_readExact_over (hl : image.length ≤ image'.length)
    (hs : ¬ excused → image'.length = image.length) (beyond : Stop) :
    Carries excused
      (fun a b => a = slice image start count ∧ b = slice image' start count ∧
        start + count ≤ image.length)
      (readExact image start count beyond) (readExact image' start count beyond) := by
  rw [readExact, readExact]
  by_cases hin : start + count < u64Bound ∧ start + count ≤ image.length
  · have hr := readAt_some.mpr ⟨hin, rfl⟩
    have hr' := readAt_some.mpr
      (⟨⟨hin.1, Nat.le_trans hin.2 hl⟩, rfl⟩ : (_ ∧ start + count ≤ image'.length) ∧ _)
    rw [hr, hr']
    exact Carries.pure ⟨rfl, rfl, hin.2⟩
  · have hr : readAt image start count = none := if_neg hin
    rw [hr]
    by_cases hexc : excused
    · cases orElseError (readAt image' start count) beyond with
      | ok bytes => exact hexc
      | error err => exact .inl hexc
    · have hr' : readAt image' start count = none := if_neg fun h => hin (hs hexc ▸ h)
      rw [hr']
      exact .inr rfl

theorem carries_admitHeaders (h : Overlooks image image' offset len)
    (hsa : ¬ excused → image'.length = image.length) :
    Carries excused
      (fun a b => b = { a with optional := slice image' (a.nt + coffEnd) optionalHeaderBytes })
      (admitHeaders image) (admitHeaders image') := by
  have hgr := h.edited.grows
  refine (carries_readExact h.edited hsa (.inl (by rw [Nat.zero_add]; exact h.signature)) _).bind ?_
  rintro _ dos hdos rfl
  refine (Carries.refl (admitDos dos)).bind ?_
  rintro _ nt hnt rfl
  obtain ⟨-, hsl⟩ := readExact_ok.mp hdos
  have hntOf : nt = ntOf image := by
    rw [(admitDos_ok hnt).1, ← hsl]
    rfl
  subst hntOf
  refine (carries_readExact h.edited hsa (.inl (by omega)) _).bind ?_
  rintro _ coff - rfl
  refine (Carries.refl (admitCoff coff)).bind fun _ _ _ _ => ?_
  refine (Carries.refl (add64 (ntOf image) coffEnd)).bind ?_
  rintro _ start hs rfl
  rw [add64] at hs
  split_ifs at hs
  cases hs
  refine (carries_readExact_over hgr hsa _).bind ?_
  rintro optional optional' - ⟨rfl, rfl, hin⟩
  refine (carries_admitOptional (h.sameFields hin) hgr hsa coff).bind ?_
  rintro _ count - rfl
  exact Carries.pure rfl

theorem carries_admitRawRanges (hle : size ≤ size') (hs : ¬ excused → size' = size)
    (sizeOfHeaders fileAlignment : UInt32) (sections earlier : List Section) (rawEnd : ℕ) :
    Carries excused (fun a b => b = a)
      (admitRawRangesFrom sizeOfHeaders fileAlignment size earlier rawEnd sections)
      (admitRawRangesFrom sizeOfHeaders fileAlignment size' earlier rawEnd sections) := by
  have hro (earlier : List Section) (rawEnd : ℕ) (s : Section) : Carries excused (fun a b => b = a)
        (admitRawRange sizeOfHeaders fileAlignment size earlier rawEnd s)
        (admitRawRange sizeOfHeaders fileAlignment size' earlier rawEnd s) := by
    rw [admitRawRange, admitRawRange]
    split_ifs
    · exact Carries.pure rfl
    · refine (Carries.refl _).bind fun _ _ _ _ => (Carries.refl _).bind fun _ _ _ _ =>
        (Carries.refl _).bind fun _ _ _ _ => (Carries.require ?_ ?_).bind fun _ _ _ _ =>
        (Carries.refl _).bind fun _ _ _ _ => Carries.pure rfl
      · simp only [decide_eq_true_eq]
        exact fun h => Nat.le_trans h hle
      · intro hno
        rw [hs hno]
        exact id
  induction sections generalizing earlier rawEnd with
  | nil => exact Carries.pure rfl
  | cons s sections ih =>
    refine (hro earlier rawEnd s).bind ?_
    rintro _ next - rfl
    exact ih _ next

theorem carries_admitStructure (h : Overlooks image image' offset len)
    (hsa : ¬ excused → image'.length = image.length) :
    Carries excused
      (fun a b => b = a.grown image'.length (certificateOf image' (ntOf image + coffEnd)))
      (admitStructure image) (admitStructure image') := by
  refine (carries_admitHeaders h hsa).bind ?_
  rintro headers _ hhe rfl
  have hof := admitHeaders_ok hhe
  have hnt : headers.nt = ntOf image := hof.nt
  have hfl := h.sameFields (hnt ▸ hof.within)
  rw [← hnt, ← hof.optional] at hfl
  dsimp only
  rw [hfl.le32 sizeOfHeaders (by decide), hfl.le32 fileAlignment (by decide),
    hfl.le32 sectionAlignment (by decide),
    hfl.le32 sizeOfImage (by decide),
    hfl.le32 sizeOfInitializedData (by decide),
    hfl (boundImport, 8) (by decide)]
  have hbeh := h.within
  refine (Carries.refl (add64 headers.nt _)).bind ?_
  rintro _ tableStart hs rfl
  rw [add64] at hs
  split_ifs at hs
  cases hs
  refine (Carries.refl (add64 _ _)).bind ?_
  rintro _ tableEnd - rfl
  refine (Carries.refl (require _ _)).bind fun _ _ _ _ => ?_
  refine (Carries.refl (splitBuffer _ _)).bind fun _ _ _ _ => ?_
  refine (carries_readExact h.edited hsa (.inr (by omega)) _).bind ?_
  rintro _ table - rfl
  refine (carries_admitRawRanges h.edited.grows hsa _ _ _ _ _).bind ?_
  rintro _ rawEnd - rfl
  refine (Carries.refl (admitVirtualLayout _ _ _)).bind fun _ _ _ _ => ?_
  refine Carries.pure ?_
  rw [hnt]
  rfl

/-! ## Behind the structure -/

theorem carries_checkPadding {rawEnd : ℕ} (h : Edited image image' start count) {from' : ℕ}
    (hfr : start + count ≤ from') (he : rawEnd ≤ image.length) :
    Carries excused (fun a b => b = a) (checkPadding image from' rawEnd)
      (checkPadding image' from' rawEnd) := by
  induction hl : rawEnd - from' using Nat.strong_induction_on generalizing from' with
  | _ n ih =>
    have hpos : 0 < paddingChunkBytes := by decide
    rw [checkPadding.eq_1 image from', checkPadding.eq_1 image' from']
    split_ifs with hlt
    · rw [readExact, readExact, readAt_edited h (by omega) (.inr hfr)]
      refine (Carries.refl (splitBuffer _ _)).bind fun _ _ _ _ => ?_
      refine (Carries.refl _).bind ?_
      rintro _ padding - rfl
      refine (Carries.refl _).bind fun _ _ _ _ => (Carries.refl _).bind fun _ _ _ _ => ?_
      exact ih (rawEnd - (from' + min (rawEnd - from') paddingChunkBytes)) (by omega) (by omega) rfl
    · exact Carries.pure rfl

theorem RawWithin.rawEnd_le {sizeOfHeaders : UInt32} {s : Section}
    (h : RawWithin sizeOfHeaders size s) : s.rawEnd ≤ size := by
  by_cases hr : s.hasRawRange
  · exact (h hr).2
  · rw [Section.hasRawRange, Bool.or_eq_true, not_or] at hr
    simp only [decide_eq_true_eq, not_not, ne_eq] at hr
    rw [Section.rawEnd, hr.1, hr.2]
    exact Nat.zero_le _

/-- The payload is behind the headers, and its section has raw data. -/
theorem Canonical.behind_headers {front : List Section} (h : Canonical layout front container)
    (hwi : RawWithin layout.sizeOfHeaders size container) :
    layout.sizeOfHeaders.toNat ≤ container.rawPointer.toNat := by
  have hpos : 0 < minPayloadBytes := by decide
  have hs : 0 < container.rawSize.toNat :=
    Nat.lt_of_lt_of_le hpos (Nat.le_trans h.virtualSize.1 h.virtual_le_raw)
  refine (hwi ?_).1
  rw [Section.hasRawRange, Bool.or_eq_true]
  refine .inl (decide_eq_true fun hz => ?_)
  rw [hz] at hs
  exact Nat.lt_irrefl 0 hs

/-- What fits the one layout fits the other, and what does not is excused or does not fit it. -/
def FitsToo (excused : Prop) (layout layout' : Layout) (size : ℕ) : Prop :=
  ∀ container : Section, container.rawEnd ≤ size →
    (CertificateFits layout container → CertificateFits layout' container) ∧
    (¬ excused → CertificateFits layout' container → CertificateFits layout container)

theorem carries_admitContainer (hf : FitsToo excused layout (layout.grown size' certificate) size)
    (front behind : List Section) (he : container.rawEnd ≤ size) :
    Carries excused (fun _ _ => True) (admitContainer layout front container behind)
      (admitContainer (layout.grown size' certificate) front container behind) := by
  have hbo := hf container he
  refine (Carries.refl _).bind fun _ _ _ _ => (Carries.refl _).bind fun _ _ _ _ =>
    (Carries.refl _).bind fun _ _ _ _ => (Carries.refl _).bind fun _ _ _ _ =>
    (Carries.refl _).bind fun _ _ _ _ => (Carries.refl _).bind fun _ _ _ _ =>
    (Carries.refl _).bind fun _ _ _ _ => ?_
  rw [add64_eq (certificate_lt layout), add64_eq (certificate_lt (layout.grown size' certificate))]
  refine Carries.require ?_ ?_
  · simp only [decide_eq_true_eq]
    exact hbo.1
  · simp only [decide_eq_true_eq]
    exact hbo.2

theorem carries_readLayout (h : Edited image image' start count) (hof : LayoutOf image layout)
    (hhe : start + count ≤ layout.sizeOfHeaders.toNat)
    (hfi : FitsToo excused layout (layout.grown size' certificate) image.length) :
    Carries excused (fun a b => b = a) (readLayout image layout)
      (readLayout image' (layout.grown size' certificate)) := by
  refine (Carries.refl (findContainer layout.sections)).bind ?_
  rintro _ ⟨front, container, behind⟩ hf rfl
  have hse := (findContainer_ok hf).1
  have hwi := hof.raw container (hse ▸ mem_append_right _ mem_cons_self)
  have he := hwi.rawEnd_le
  refine (carries_admitContainer hfi front behind he).bind fun _ _ ha _ => ?_
  obtain ⟨-, hcan, -⟩ := admitContainer_ok ha
  have hbeh := hcan.behind_headers hwi
  have hr := hcan.virtual_le_raw
  rw [Section.rawEnd] at he
  refine (Carries.refl (splitBuffer _ _)).bind fun _ _ _ _ => ?_
  rw [readExact, readExact, readAt_edited h (by omega) (.inr (by omega))]
  refine (Carries.refl _).bind ?_
  rintro _ payload - rfl
  refine (Carries.refl (add64 _ _)).bind ?_
  rintro _ offset hoff rfl
  rw [add64] at hoff
  split_ifs at hoff
  cases hoff
  refine (carries_checkPadding h (by omega) hwi.rawEnd_le).bind fun _ _ _ _ => ?_
  exact .refl _

end Overlooks

/-! ## Signing -/

/-- The entry of the certificate table that was written. -/
theorem certificateOf_written {front entry table : List Byte}
    (hfr : front.length = start + certificateTable) (he : entry.length = 8) :
    certificateOf (front ++ (entry ++ back) ++ table) start = (le32 entry 0, le32 entry 4) := by
  have hf (k : ℕ) (hk : k + 4 ≤ 8) (hin : certificateTable + k + 4 ≤ optionalHeaderBytes) :
      le32 (slice (front ++ (entry ++ back) ++ table) start optionalHeaderBytes)
        (certificateTable + k) = le32 entry k := by
    have hcut : slice ((entry ++ (back ++ table)).take entry.length) k 4 =
        slice (entry ++ (back ++ table)) k 4 := slice_take (by omega)
    rw [le32, slice_slice hin, ← Nat.add_assoc, ← hfr, append_assoc, ← slice_drop,
      drop_left, append_assoc, ← hcut, take_left]
    rfl
  exact Prod.ext (hf 0 (by omega) (by decide)) (hf 4 (by omega) (by decide))

theorem Overlooks.before_headers {image image' : List Byte} {offset len : ℕ}
    (h : Overlooks image image' offset len) (hof : LayoutOf image layout) :
    ntOf image + coffEnd + offset + len ≤ layout.sizeOfHeaders.toNat := by
  have hnt : layout.nt = ntOf image := hof.nt
  have hop := hof.optional
  have hwi := h.within
  omega

theorem readContainer_checksum {front old new : List Byte}
    (hfr : front.length = ntOf (front ++ (old ++ back)) + coffEnd + checksum)
    (ho : old.length = 4) (hn : new.length = 4) :
    readContainer (front ++ (new ++ back)) = readContainer (front ++ (old ++ back)) := by
  have hov : Overlooks (front ++ (old ++ back)) (front ++ (new ++ back)) checksum 4 := by
    refine ⟨?_, by decide, by decide, ?_⟩
    · have hed := edited_append front back (ho.trans hn.symm) []
      rw [append_nil, ho, hfr] at hed
      exact hed
    · rw [coffEnd, checksum, dosHeaderBytes]
      omega
  have hl : (front ++ (new ++ back)).length = (front ++ (old ++ back)).length := by
    simp only [length_append, ho, hn]
  refine Carries.eq ((carries_admitStructure hov fun _ => hl).bind ?_)
  rintro layout _ hla rfl
  have hof := admitStructure_ok hla
  have hnt : layout.nt = ntOf (front ++ (old ++ back)) := hof.nt
  have hin := Nat.le_trans hof.optional hof.headers
  rw [← Nat.add_assoc, hnt] at hin
  have hce : certificateOf (front ++ (new ++ back))
      (ntOf (front ++ (old ++ back)) + coffEnd) = layout.certificate := by
    rw [hof.certificate, hnt]
    exact Prod.ext (congrArg u32Le (hov.slice_optional hin (by decide) (by decide)))
      (congrArg u32Le (hov.slice_optional hin (by decide) (by decide)))
  refine carries_readLayout hov.edited hof (hov.before_headers hof) ?_
  rw [hce, hl, ← hof.len]
  exact fun container _ => ⟨id, fun _ => id⟩

/-- What signing makes of an image: the entry covers the bytes behind the end. -/
def Signed (image signed : List Byte) : Prop :=
  ∃ front old entry back table : List Byte,
    image = front ++ (old ++ back) ∧ signed = front ++ (entry ++ back) ++ table ∧
    front.length = ntOf image + coffEnd + certificateTable ∧
    old.length = 8 ∧ entry.length = 8 ∧
    (le32 entry 0).toNat = image.length ∧ (le32 entry 4).toNat = table.length

/-- Growth excuses a refusal; where the structure stands and no table was there, it need not. -/
theorem Signed.carries {image signed : List Byte} (h : Signed image signed)
    (hla : admitStructure image = .ok layout) {excused : Prop}
    (hb : ¬ excused → layout.certificate = (0, 0)) :
    Carries excused (fun a b => b = a) (readLayout image layout) (readContainer signed) := by
  obtain ⟨front, old, entry, back, table, hig, rfl, hfr, ho, he, hs, hc⟩ := h
  subst hig
  have hov : Overlooks (front ++ (old ++ back)) (front ++ (entry ++ back) ++ table)
      certificateTable 8 := by
    refine ⟨?_, by decide, by decide, ?_⟩
    · have hed := edited_append front back (ho.trans he.symm) table
      rw [ho, hfr] at hed
      exact hed
    · rw [coffEnd, certificateTable, dosHeaderBytes]
      omega
  have hof := admitStructure_ok hla
  have hgr : ¬ True → (front ++ (entry ++ back) ++ table).length =
      (front ++ (old ++ back)).length := fun hno => (hno trivial).elim
  obtain ⟨_, hsi, rfl⟩ := (carries_admitStructure hov hgr).ok hla
  rw [readContainer, hsi]
  refine carries_readLayout hov.edited hof (hov.before_headers hof) fun container hen => ?_
  refine ⟨fun _ => .inr ?_, fun hno _ => .inl (hb hno)⟩
  rw [certificateOf_written hfr he, Layout.grown, hs, hc]
  refine ⟨hen, Nat.le_of_eq ?_⟩
  simp only [length_append, ho, he]

/-- For every image the reader comes to an end in range and without an overflow, it accepts only
a canonical container in the last section, and the checksum and a certificate table behind the
end make no difference to it. -/
theorem readContainer_stable (image : List Byte) :
    readContainer image ≠ .error .overflow ∧
    (∀ offset count beyond bytes, readExact image offset count beyond = .ok bytes →
      offset + count ≤ image.length ∧ bytes = slice image offset count) ∧
    (∀ payload, readContainer image = .ok payload → ∃ layout front container,
      admitStructure image = .ok layout ∧ Holds image layout payload front container) ∧
    (∀ front old new back, image = front ++ (old ++ back) →
      front.length = ntOf image + coffEnd + checksum → old.length = 4 → new.length = 4 →
      readContainer (front ++ (new ++ back)) = readContainer image) ∧
    (∀ signed, Signed image signed →
      (∀ payload, readContainer image = .ok payload → readContainer signed = .ok payload) ∧
      ∀ layout, admitStructure image = .ok layout → layout.certificate = (0, 0) →
        readContainer signed = readContainer image) := by
  refine ⟨fun hov => ?_, ?_, fun payload h => ?_, ?_, fun signed hsi => ⟨fun payload h => ?_,
    fun layout hla hb => ?_⟩⟩
  · exact (errors_admitStructure image).bind (errors_readLayout image) _ hov rfl
  · intro offset count beyond bytes h
    obtain ⟨⟨-, hin⟩, rfl⟩ := readExact_ok.mp h
    exact ⟨hin, rfl⟩
  · obtain ⟨layout, hla, h⟩ := bind_ok.mp h
    obtain ⟨front, container, hh⟩ := readLayout_ok h
    exact ⟨layout, front, container, hla, hh⟩
  · rintro front old new back rfl hfr ho hn
    exact readContainer_checksum hfr ho hn
  · obtain ⟨layout, hla, h⟩ := bind_ok.mp h
    have ht : ¬ True → layout.certificate = (0, 0) := fun hno => (hno trivial).elim
    obtain ⟨_, hr, rfl⟩ := (hsi.carries hla ht).ok h
    exact hr
  · have ht : ¬ False → layout.certificate = (0, 0) := fun _ => hb
    rw [(hsi.carries hla ht).eq, readContainer, hla]
    rfl

end Keld.Pack.HostIdentity
