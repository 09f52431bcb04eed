/-
# `Keld.Pack.HostIdentity` — the identity container in a host image

A host image carries its identity in a section of its own.  `readContainer` admits
the image's headers, its section table and the ranges they name, and only then
takes the payload out of the container.

The arithmetic of the source is on `u64`.  A sum that does not fit would stop the
program, and so would a count beyond the buffer it is split off from, so here both
are an outcome of their own, `Stop.overflow`; `u16` and `u32` fields are widened
before they are added.
-/
import Keld.Lib.Edit
import Keld.Pack.Identity
import Mathlib.Data.List.TakeWhile

namespace Keld.Pack.HostIdentity

/-! ## Constants -/

def sectionName : List Byte := utf8 ".keldeai"

def containerCharacteristics : UInt32 := 0x40000040

def dosHeaderBytes : ℕ := 64
def eLfanew : ℕ := 0x3c
def coffEnd : ℕ := 24
def optionalHeaderBytes : ℕ := 240
def sectionHeaderBytes : ℕ := 40
def loaderMaxSections : ℕ := 96
def sectionTableMaxBytes : ℕ := loaderMaxSections * sectionHeaderBytes
def machineAmd64 : UInt16 := 0x8664
def fileExecutableImage : UInt16 := 0x0002
def fileDll : UInt16 := 0x2000
def pe32PlusMagic : UInt16 := 0x20b
def dataDirectoryCount : UInt32 := 16
def minFileAlignment : UInt32 := 512
def maxFileAlignment : UInt32 := 65536
def minSectionAlignment : UInt32 := 4096
def paddingChunkBytes : ℕ := 4096

/-- Offsets in the signature and the COFF header. -/
def machine : ℕ := 4
def numberOfSections : ℕ := 6
def sizeOfOptionalHeader : ℕ := 20
def characteristics : ℕ := 22

/-- Offsets in the optional header. -/
def magic : ℕ := 0
def sizeOfInitializedData : ℕ := 8
def sectionAlignment : ℕ := 32
def fileAlignment : ℕ := 36
def sizeOfImage : ℕ := 56
def sizeOfHeaders : ℕ := 60
def checksum : ℕ := 64
def numberOfRvaAndSizes : ℕ := 108
def certificateTable : ℕ := 144
def boundImport : ℕ := 200

/-! ## Reading and adding -/

inductive Stop where
  /-- A sum beyond `u64`, or a count beyond its buffer. -/
  | overflow
  | refused (error : PackError)
deriving DecidableEq

def invalid (detail : String) : Stop := .refused (.hostImageInvalid detail)

def containerInvalid (detail : String) : Stop := .refused (.identityContainerInvalid detail)

def u64Bound : ℕ := 2 ^ 64

/-- `+` on `u64`. -/
def add64 (a b : ℕ) : Except Stop ℕ := if a + b < u64Bound then .ok (a + b) else .error .overflow

/-- `split_at_mut` on a buffer of `capacity` bytes. -/
def splitBuffer (capacity count : ℕ) : Except Stop Unit := require (count ≤ capacity) .overflow

/-- `checked_next_multiple_of`, or `u64::MAX`. -/
def roundUp (value : ℕ) (alignment : UInt32) : ℕ :=
  let rest := value % alignment.toNat
  let next := if rest = 0 then value else value + (alignment.toNat - rest)
  if alignment = 0 ∨ u64Bound ≤ next then u64Bound - 1 else next

def le16 (bytes : List Byte) (offset : ℕ) : UInt16 := u16Le (slice bytes offset 2)

def le32 (bytes : List Byte) (offset : ℕ) : UInt32 := u32Le (slice bytes offset 4)

def readAt (image : List Byte) (offset count : ℕ) : Option (List Byte) :=
  if offset + count < u64Bound ∧ offset + count ≤ image.length then some (slice image offset count)
  else none

def readExact (image : List Byte) (offset count : ℕ) (beyond : Stop) : Except Stop (List Byte) :=
  orElseError (readAt image offset count) beyond

def isPowerOfTwo (n : UInt32) : Bool := n ≠ 0 && (n &&& (n - 1)) = 0

def isMultipleOf (n alignment : UInt32) : Bool := n.toNat % alignment.toNat = 0

/-! ## Sections -/

structure Section where
  name : List Byte
  virtualSize : UInt32
  virtualAddress : UInt32
  rawSize : UInt32
  rawPointer : UInt32
  relocationsPointer : UInt32
  lineNumbersPointer : UInt32
  relocationCount : UInt16
  lineNumberCount : UInt16
  characteristics : UInt32
deriving DecidableEq

namespace Section

def parse (header : List Byte) : Section where
  name := slice header 0 8
  virtualSize := le32 header 8
  virtualAddress := le32 header 12
  rawSize := le32 header 16
  rawPointer := le32 header 20
  relocationsPointer := le32 header 24
  lineNumbersPointer := le32 header 28
  relocationCount := le16 header 32
  lineNumberCount := le16 header 34
  characteristics := le32 header 36

def hasRawRange (s : Section) : Bool := s.rawSize ≠ 0 || s.rawPointer ≠ 0

/-- The sum of two numbers below `2 ^ 32`. -/
def rawEnd (s : Section) : ℕ := s.rawPointer.toNat + s.rawSize.toNat

end Section

structure Layout where
  len : ℕ
  nt : ℕ
  sections : List Section
  fileAlignment : UInt32
  sectionAlignment : UInt32
  sizeOfHeaders : UInt32
  sizeOfImage : UInt32
  sizeOfInitializedData : UInt32
  certificate : UInt32 × UInt32
  boundImport : Bool
  rawEnd : ℕ
deriving DecidableEq

/-! ## The structure of an image -/

/-- What the DOS header is read for: where the PE signature is. -/
def admitDos (dos : List Byte) : Except Stop ℕ := do
  require (slice dos 0 2 = [0x4d, 0x5a]) (invalid "missing MZ signature")
  let nt := (le32 dos eLfanew).toNat
  require (dosHeaderBytes ≤ nt) (invalid "e_lfanew points inside the DOS header")
  return nt

def admitCoff (coff : List Byte) : Except Stop Unit := do
  require (slice coff 0 4 = [0x50, 0x45, 0, 0]) (invalid "missing PE signature")
  require (le16 coff machine = machineAmd64) (invalid "machine is not AMD64")
  let flags := le16 coff characteristics
  require (flags &&& fileExecutableImage ≠ 0 ∧ flags &&& fileDll = 0)
    (invalid "image is not an executable image or is a DLL")
  require ((le16 coff sizeOfOptionalHeader).toNat = optionalHeaderBytes)
    (invalid "SizeOfOptionalHeader is not 240")

/-- The rest of `admit_headers`, which returns the admitted section count. -/
def admitOptional (len : ℕ) (coff optional : List Byte) : Except Stop ℕ := do
  require (le16 optional magic = pe32PlusMagic) (invalid "optional header is not PE32+")
  require (le32 optional numberOfRvaAndSizes = dataDirectoryCount)
    (invalid "NumberOfRvaAndSizes is not 16")
  let fileAlignment := le32 optional fileAlignment
  require (isPowerOfTwo fileAlignment ∧ minFileAlignment ≤ fileAlignment ∧
      fileAlignment ≤ maxFileAlignment)
    (invalid "FileAlignment is not a power of two from 512 to 65536")
  let sectionAlignment := le32 optional sectionAlignment
  require (isPowerOfTwo sectionAlignment ∧ minSectionAlignment ≤ sectionAlignment ∧
      fileAlignment ≤ sectionAlignment)
    (invalid "SectionAlignment is not a power of two of at least 4096 and FileAlignment")
  let sizeOfHeaders := le32 optional sizeOfHeaders
  require (isMultipleOf sizeOfHeaders fileAlignment ∧ sizeOfHeaders.toNat ≤ len)
    (invalid "SizeOfHeaders is not FileAlignment-aligned inside the image")
  let count := (le16 coff numberOfSections).toNat
  require (count ≠ 0 ∧ count ≤ loaderMaxSections) (invalid "NumberOfSections is not 1 to 96")
  return count

structure Headers where
  nt : ℕ
  count : ℕ
  optional : List Byte

def admitHeaders (image : List Byte) : Except Stop Headers := do
  let dos ← readExact image 0 dosHeaderBytes (invalid "image is shorter than the DOS header")
  let nt ← admitDos dos
  let coff ← readExact image nt coffEnd
    (invalid "PE signature or COFF header lies beyond the end of the image")
  admitCoff coff
  let start ← add64 nt coffEnd
  let optional ← readExact image start optionalHeaderBytes
    (invalid "optional header lies beyond the end of the image")
  let count ← admitOptional image.length coff optional
  return { nt, count, optional }

/-- One round of the loop of `admit_raw_ranges`; the sections in front of it have been seen. -/
def admitRawRange (sizeOfHeaders fileAlignment : UInt32) (len : ℕ) (earlier : List Section)
    (rawEnd : ℕ) (s : Section) : Except Stop ℕ :=
  if !s.hasRawRange then .ok rawEnd
  else do
    require (s.rawSize ≠ 0 ∧ s.rawPointer ≠ 0)
      (invalid "section has exactly one of SizeOfRawData and PointerToRawData zero")
    require (isMultipleOf s.rawPointer fileAlignment ∧ isMultipleOf s.rawSize fileAlignment)
      (invalid "section raw data is not FileAlignment-aligned")
    require (sizeOfHeaders ≤ s.rawPointer)
      (invalid "section raw data starts before SizeOfHeaders")
    require (s.rawEnd ≤ len) (invalid "section raw data lies beyond the end of the image")
    require (!(earlier.filter Section.hasRawRange).any fun other =>
        s.rawPointer.toNat < other.rawEnd && other.rawPointer.toNat < s.rawEnd)
      (invalid "section raw ranges overlap")
    return max rawEnd s.rawEnd

def admitRawRangesFrom (sizeOfHeaders fileAlignment : UInt32) (len : ℕ) (earlier : List Section)
    (rawEnd : ℕ) : List Section → Except Stop ℕ
  | [] => .ok rawEnd
  | s :: sections => do
    let rawEnd ← admitRawRange sizeOfHeaders fileAlignment len earlier rawEnd s
    admitRawRangesFrom sizeOfHeaders fileAlignment len (earlier ++ [s]) rawEnd sections

def admitRawRanges (sections : List Section) (sizeOfHeaders fileAlignment : UInt32) (len : ℕ) :
    Except Stop ℕ :=
  admitRawRangesFrom sizeOfHeaders fileAlignment len [] sizeOfHeaders.toNat sections

/-- One round of the loop of `admit_virtual_layout`. -/
def admitVirtualRange (sectionAlignment : UInt32) (virtualEnd : Option ℕ) (s : Section) :
    Except Stop (Option ℕ) := do
  require (s.virtualSize ≠ 0) (invalid "section VirtualSize is zero")
  require (isMultipleOf s.virtualAddress sectionAlignment)
    (invalid "section VirtualAddress is not SectionAlignment-aligned")
  require (virtualEnd.all (· = s.virtualAddress.toNat))
    (invalid "section virtual addresses are not ascending and adjacent")
  let sum ← add64 s.virtualAddress.toNat s.virtualSize.toNat
  return some (roundUp sum sectionAlignment)

def admitVirtualLayout (sections : List Section) (sectionAlignment sizeOfImage : UInt32) :
    Except Stop Unit := do
  let virtualEnd ← sections.foldlM (admitVirtualRange sectionAlignment) none
  require (virtualEnd = some sizeOfImage.toNat)
    (invalid "SizeOfImage is not the last section's virtual end rounded up to SectionAlignment")

/-- The headers of the section table. -/
def parseTable (table : List Byte) (count : ℕ) : List Section :=
  (List.range count).map fun i =>
    Section.parse (slice table (i * sectionHeaderBytes) sectionHeaderBytes)

def admitStructure (image : List Byte) : Except Stop Layout := do
  let headers ← admitHeaders image
  let optional := headers.optional
  let tableStart ← add64 headers.nt (coffEnd + optionalHeaderBytes)
  let tableBytes := headers.count * sectionHeaderBytes
  let tableEnd ← add64 tableStart tableBytes
  require (tableEnd ≤ (le32 optional sizeOfHeaders).toNat)
    (invalid "section table ends after SizeOfHeaders")
  splitBuffer sectionTableMaxBytes tableBytes
  let table ← readExact image tableStart tableBytes
    (invalid "section table lies beyond the end of the image")
  let sections := parseTable table headers.count
  let rawEnd ← admitRawRanges sections (le32 optional sizeOfHeaders) (le32 optional fileAlignment)
    image.length
  admitVirtualLayout sections (le32 optional sectionAlignment) (le32 optional sizeOfImage)
  return {
    len := image.length
    nt := headers.nt
    sections := sections
    fileAlignment := le32 optional fileAlignment
    sectionAlignment := le32 optional sectionAlignment
    sizeOfHeaders := le32 optional sizeOfHeaders
    sizeOfImage := le32 optional sizeOfImage
    sizeOfInitializedData := le32 optional sizeOfInitializedData
    certificate := (le32 optional certificateTable, le32 optional (certificateTable + 4))
    boundImport := (slice optional boundImport 8).any (· ≠ 0)
    rawEnd := rawEnd }

/-! ## The container -/

/-- Step 2: the first section of the name, if it is the only one, with those in front and behind. -/
def findContainer (sections : List Section) :
    Except Stop (List Section × Section × List Section) :=
  match sections.dropWhile fun s => s.name ≠ sectionName with
  | [] => .error (.refused .identityContainerMissing)
  | container :: behind =>
    if behind.any fun s => s.name = sectionName then
      .error (.refused .identityContainerDuplicate)
    else .ok (sections.takeWhile (fun s => s.name ≠ sectionName), container, behind)

/-- Step 3: the canonical form. -/
def admitContainer (layout : Layout) (front : List Section) (container : Section)
    (behind : List Section) : Except Stop Unit := do
  require (behind = []) (containerInvalid "the container is not the last section header")
  require (front ≠ []) (containerInvalid "the container is the only section")
  require (container.characteristics = containerCharacteristics)
    (containerInvalid "the container Characteristics are not 0x40000040")
  require (container.relocationsPointer = 0 ∧ container.lineNumbersPointer = 0 ∧
      container.relocationCount = 0 ∧ container.lineNumberCount = 0)
    (containerInvalid "the container relocation or line-number fields are not zero")
  require (minPayloadBytes ≤ container.virtualSize.toNat ∧
      container.virtualSize.toNat ≤ maxPayloadBytes)
    (containerInvalid "the container VirtualSize is outside the payload length bounds")
  require (container.rawSize.toNat = roundUp container.virtualSize.toNat layout.fileAlignment)
    (containerInvalid
      "the container SizeOfRawData is not VirtualSize rounded up to FileAlignment")
  require (!front.any fun earlier => container.rawPointer.toNat < earlier.rawEnd)
    (containerInvalid "the container raw data is not the last raw data in the image")
  let certificateEnd ← add64 layout.certificate.1.toNat layout.certificate.2.toNat
  require (layout.certificate = (0, 0) ∨
      (container.rawEnd ≤ layout.certificate.1.toNat ∧ certificateEnd ≤ layout.len))
    (containerInvalid "the certificate table overlaps the container or ends beyond the image")

/-- The loop of step 4. -/
def checkPadding (image : List Byte) (offset rawEnd : ℕ) : Except Stop Unit :=
  if offset < rawEnd then do
    splitBuffer paddingChunkBytes (min (rawEnd - offset) paddingChunkBytes)
    let padding ← readExact image offset (min (rawEnd - offset) paddingChunkBytes)
      (containerInvalid "the container raw data ends beyond the image")
    require (padding.all (· = 0)) (containerInvalid "the container padding is not zero")
    let _ ← add64 offset (min (rawEnd - offset) paddingChunkBytes)
    checkPadding image (offset + min (rawEnd - offset) paddingChunkBytes) rawEnd
  else .ok ()
termination_by rawEnd - offset
decreasing_by
  rw [paddingChunkBytes]
  omega

/-- Steps 2 to 5, behind the admitted structure. -/
def readLayout (image : List Byte) (layout : Layout) : Except Stop ExpectedAppIdentityPayload := do
  let (front, container, behind) ← findContainer layout.sections
  admitContainer layout front container behind
  splitBuffer maxPayloadBytes container.virtualSize.toNat
  let payload ← readExact image container.rawPointer.toNat container.virtualSize.toNat
    (containerInvalid "the container raw data ends beyond the image")
  let offset ← add64 container.rawPointer.toNat container.virtualSize.toNat
  checkPadding image offset container.rawEnd
  (ExpectedAppIdentityPayload.decode payload).mapError .refused

def readContainer (image : List Byte) : Except Stop ExpectedAppIdentityPayload := do
  let layout ← admitStructure image
  readLayout image layout

end Keld.Pack.HostIdentity
