/-
# `Keld.Archive.Parser` — the preflight of a canonical archive

`parseContentArchive` reads an archive once, from its position to its end, and
checks every byte on the way: header fields, checksums, sizes, padding, the two
zero blocks, the tree of names and, when all bytes are known to be the expected
ones, the policy and the updater helper.  It returns the members with the places
of their data.

The input may cut its reads as it likes and fail at any of them.
-/
import Keld.Pack.Producer
import Keld.Update.Records

namespace Keld.Archive

open Pack Proc

/-! ## Receipts and errors -/

structure ContentIdentity where
  identity : Update.ArtifactIdentity
  contentSize : Nat
  contentBlake3 : Chunk 32

structure ArchiveEntry where
  name : String
  kind : ArchiveEntryKind
  size : Nat
  dataOffset : Nat
deriving DecidableEq, Repr

structure ValidatedArchive where
  identity : Update.ArtifactIdentity
  contentSize : Nat
  contentBlake3 : Chunk 32
  entries : List ArchiveEntry
deriving DecidableEq

/-- The refusals of the update that the preflight can return. -/
inductive UpdateError
  | archiveInvalid (detail : String)
  | artifactSizeMismatch (expected : Nat) (observed : String)
  | artifactDigestMismatch (expected actual : Chunk 32)
  | artifactProcessing (stage detail : String)
deriving DecidableEq, Repr

def invalidArchive {α : Type} (detail : String) : Except UpdateError α :=
  .error (.archiveInvalid detail)

/-- A canonical-member refusal keeps its detail. -/
def packMetadataRefusal : PackError → UpdateError
  | .invalidMetadata detail => .archiveInvalid detail
  | _ => .archiveInvalid "canonical archive metadata is invalid"

/-! ## The reader -/

/-- What the input does besides holding its bytes. -/
structure InputEnv where
  /-- the nth call that asks for or sets the position fails -/
  seek : Nat → Except IoError Unit
  /-- the nth read returns at most one byte more than this -/
  most : Nat → Nat
  /-- the nth read fails -/
  fault : Nat → Option IoError
  blake3 : List Byte → Chunk 32
  /-- what the system says of the names of a package -/
  nls : List String → Bool

/-- `HashingReader` over the bytes up to its limit. -/
structure HashingReader where
  left : List Byte
  reads : Nat
  /-- what went through the hasher -/
  hashed : List Byte
  bytesRead : Nat
deriving DecidableEq, Repr

/-- `u64::MAX + 1`. -/
def u64Bound : Nat := 2 ^ 64

def HashingReader.read (env : InputEnv) (count : Nat) : Proc HashingReader IoError (List Byte) :=
  fun reader =>
    match env.fault reader.reads with
    | some err => (.error err, { reader with reads := reader.reads + 1 })
    | none =>
      let most := min count (env.most reader.reads + 1)
      let out := reader.left.take most
      let reader := { reader with left := reader.left.drop most, reads := reader.reads + 1 }
      if reader.bytesRead + out.length < u64Bound then
        (.ok out,
          { reader with
            hashed := reader.hashed ++ out
            bytesRead := reader.bytesRead + out.length })
      else (.error "canonical archive byte count overflow", reader)

/-- Why `read_exact` has not filled its buffer. -/
inductive ReadExactError
  | unexpectedEof
  | failed (err : IoError)
deriving DecidableEq, Repr

/-- `read_exact`; every turn reads at least one byte or ends it. -/
def readExactLoop (env : InputEnv) :
    Nat → List Byte → Nat → Proc HashingReader ReadExactError (List Byte)
  | _, got, 0 => pure got
  | 0, _, _ + 1 => fail .unexpectedEof
  | turns + 1, got, need + 1 => do
    let out ← (HashingReader.read env (need + 1)).mapError .failed
    if out.isEmpty then fail .unexpectedEof
    else readExactLoop env turns (got ++ out) (need + 1 - out.length)

abbrev ArchiveIo := Proc HashingReader UpdateError

def shortRead (expected bytesRead : Nat) : UpdateError :=
  if bytesRead = expected then .archiveInvalid "archive ended before both terminal blocks"
  else .artifactSizeMismatch expected
    (if bytesRead > expected then "at least " ++ toString bytesRead else toString bytesRead)

def readExactCanonical (env : InputEnv) (count expected : Nat) : ArchiveIo (List Byte) :=
  fun reader =>
    match readExactLoop env count [] count reader with
    | (.ok bytes, reader) => (.ok bytes, reader)
    | (.error .unexpectedEof, reader) => (.error (shortRead expected reader.bytesRead), reader)
    | (.error (.failed err), reader) =>
      (.error (.artifactProcessing "canonical archive read" err), reader)

/-! ## Headers -/

def allZero (bytes : List Byte) : Bool := bytes.all (· == 0)

/-- The sum of a header with its checksum field taken as blanks. -/
def headerSum (header : List Byte) : Nat :=
  (header.zipIdx.map fun (byte, index) =>
    if 148 ≤ index ∧ index < 156 then 32 else byte.toNat).sum

def verifyHeaderChecksum (header : List Byte) : Except UpdateError Unit :=
  let sum := headerSum header
  let canonical := octalDigits 6 sum ++ [0, 32]
  let remaining := sum / 8 ^ 6
  if remaining ≠ 0 ∨ slice header 148 8 ≠ canonical then
    invalidArchive "header checksum is not canonical"
  else .ok ()

/-- The type flag of a header. -/
def entryKind (header : List Byte) : Except UpdateError ArchiveEntryKind :=
  if header[156]? = some 48 then .ok .file
  else if header[156]? = some 53 then .ok .directory
  else invalidArchive "entry type is not a regular file or directory"

def verifyFixedFields (header : List Byte) : Except UpdateError Unit := do
  let kind ← entryKind header
  if slice header 100 8 ≠ kind.mode ∨ slice header 108 8 ≠ zeroField ∨
      slice header 116 8 ≠ zeroField ∨ slice header 257 6 ≠ ustarMagic ∨
      slice header 263 2 ≠ ustarVersion ∨ ¬ allZero (slice header 157 100) ∨
      ¬ allZero (slice header 265 32) ∨ ¬ allZero (slice header 297 32) ∨
      slice header 329 8 ≠ zeroField ∨ slice header 337 8 ≠ zeroField ∨
      ¬ allZero (slice header 345 155) ∨ ¬ allZero (slice header 500 12) then
    invalidArchive "header fields are not canonical v0 values"
  else .ok ()

/-- One more octal digit, within 64 bits. -/
def octalStep (value : Nat) (byte : Byte) : Option Nat :=
  if 48 ≤ byte ∧ byte ≤ 55 then
    let value := value * 8 + (byte.toNat - 48)
    if value < u64Bound then some value else none
  else none

def parseOctalField (field : List Byte) : Option Nat :=
  if field.length ≠ 12 ∨ field[11]? ≠ some 0 then none
  else (field.take 11).foldlM octalStep 0

/-- The name field up to its first zero byte. -/
def parseName (header : List Byte) : Except UpdateError String :=
  let nameField := slice header 0 100
  let name := nameField.takeWhile (· != 0)
  if name.isEmpty ∨ ¬ allZero (nameField.drop name.length) then
    invalidArchive "name field is empty or has nonzero tail bytes"
  else orElseError (fromUtf8 name) (.archiveInvalid "entry name is not UTF-8")

def parseHeader (header : List Byte) : Except UpdateError ArchiveMember := do
  let name ← parseName header
  let kind ← entryKind header
  let size ← orElseError (parseOctalField (slice header 124 12))
    (.archiveInvalid "size field is not canonical octal")
  let mtime ← orElseError (parseOctalField (slice header 136 12))
    (.archiveInvalid "mtime field is not canonical octal")
  if mtime ≠ 0 then invalidArchive "mtime must be zero"
  else if kind = .directory ∧ size ≠ 0 then invalidArchive "directory size must be zero"
  else .ok ⟨name, kind, size⟩

/-! ## The body -/

def streamBufferBytes : Nat := 16384

/-- Reads over a length in buffers, each of them checked. -/
def skipLoop (env : InputEnv) (expected : Nat) (check : List Byte → Except UpdateError Unit) :
    Nat → Nat → ArchiveIo Unit
  | _, 0 => pure ()
  | 0, _ + 1 => pure ()
  | turns + 1, remaining + 1 => do
    let length := min (remaining + 1) streamBufferBytes
    let bytes ← readExactCanonical env length expected
    ofExcept (check bytes)
    skipLoop env expected check turns (remaining + 1 - length)

def skipData (env : InputEnv) (size expected : Nat) : ArchiveIo Unit :=
  skipLoop env expected (fun _ => .ok ()) size size

def skipZeroPadding (env : InputEnv) (length expected : Nat) : ArchiveIo Unit :=
  skipLoop env expected (fun bytes =>
    require (allZero bytes) (.archiveInvalid "entry data padding is nonzero")) length length

/-- The policy member: whether it is the exact required file. -/
def readPolicy (env : InputEnv) (kind : ArchiveEntryKind) (size expected : Nat) :
    ArchiveIo Bool :=
  if kind ≠ .file ∨ size ≠ noMigrationPolicy.length then do
    skipData env size expected
    return false
  else do
    let bytes ← readExactCanonical env noMigrationPolicy.length expected
    return bytes == noMigrationPolicy

/-- What the loop has found so far. -/
structure Found where
  entries : List ArchiveEntry
  policySeen : Bool
  policyValid : Bool
deriving DecidableEq, Repr

/-- One member behind its header. -/
def parseMember (env : InputEnv) (expected : Nat) (header : List Byte) (found : Found) :
    ArchiveIo Found := do
  ofExcept (verifyHeaderChecksum header)
  ofExcept (verifyFixedFields header)
  let member ← ofExcept (parseHeader header)
  let reader ← state
  let entry : ArchiveEntry := ⟨member.name, member.kind, member.size, reader.bytesRead⟩
  if member.name == updatePolicyPath then do
    let valid ← readPolicy env member.kind member.size expected
    skipZeroPadding env (padding member.size) expected
    return ⟨found.entries ++ [entry], true, valid⟩
  else do
    skipData env member.size expected
    skipZeroPadding env (padding member.size) expected
    return { found with entries := found.entries ++ [entry] }

/-- The second zero block, and nothing behind it. -/
def readTerminator (env : InputEnv) (expected : Nat) : ArchiveIo Unit := do
  let second ← readExactCanonical env blockBytes expected
  ofExcept (require (allZero second)
    (.archiveInvalid "archive must end with two zero blocks"))
  let trailing ← (HashingReader.read env 1).mapError fun err =>
    .artifactProcessing "canonical archive read" err
  let reader ← state
  if trailing.isEmpty then pure ()
  else if reader.bytesRead > expected then
    fail (.artifactSizeMismatch expected ("at least " ++ toString reader.bytesRead))
  else fail (.archiveInvalid "archive has trailing bytes")

/-- The loop over the members; every turn reads a block, so there are enough of them. -/
def parseLoop (env : InputEnv) (expected : Nat) : Nat → Found → ArchiveIo Found
  | 0, _ => fail (.archiveInvalid "archive ended before both terminal blocks")
  | turns + 1, found => do
    let header ← readExactCanonical env blockBytes expected
    if allZero header then do
      readTerminator env expected
      return found
    else do
      let found ← parseMember env expected header found
      parseLoop env expected turns found

def archiveMembers (entries : List ArchiveEntry) : List ArchiveMember :=
  entries.map fun entry => ⟨entry.name, entry.kind, entry.size⟩

def validateArchiveMembers (env : InputEnv) (members : List ArchiveMember) :
    Except UpdateError Unit := do
  (validateV0Members members).mapError packMetadataRefusal
  require (windowsPackagePaths env.nls (members.map ArchiveMember.name))
    (.archiveInvalid "Windows package namespace is invalid")

/-- The checks behind the last byte. -/
def admitFound (env : InputEnv) (receipt : ContentIdentity) (found : Found)
    (reader : HashingReader) : Except UpdateError ValidatedArchive := do
  require (reader.bytesRead == receipt.contentSize)
    (.artifactSizeMismatch receipt.contentSize (toString reader.bytesRead))
  let members := archiveMembers found.entries
  validateArchiveMembers env members
  let actualDigest := env.blake3 reader.hashed
  require (actualDigest == receipt.contentBlake3)
    (.artifactDigestMismatch receipt.contentBlake3 actualDigest)
  require found.policySeen (.archiveInvalid "required no-migration policy is missing")
  require found.policyValid
    (.archiveInvalid "no-migration policy is not the exact required regular file")
  (requireUpdaterHelper members).mapError packMetadataRefusal
  return ⟨receipt.identity, receipt.contentSize, actualDigest, found.entries⟩

def parseFrom (env : InputEnv) (receipt : ContentIdentity) : ArchiveIo ValidatedArchive := do
  let found ← parseLoop env receipt.contentSize (receipt.contentSize + 1) ⟨[], false, false⟩
  let reader ← state
  ofExcept (admitFound env receipt found reader)

/-- A seekable input at a position. -/
structure Input where
  bytes : List Byte
  position : Nat
deriving DecidableEq, Repr

def seekFailed (stage : String) (err : IoError) : UpdateError := .artifactProcessing stage err

/-- `HashingReader::new`, with the limit one byte past the expected end. -/
def HashingReader.new (input : Input) (expected : Nat) : Except UpdateError HashingReader :=
  if expected + 1 < u64Bound then
    .ok ⟨(input.bytes.drop input.position).take (expected + 1), 0, [], 0⟩
  else .error (.artifactProcessing "canonical archive bound" "byte limit overflow")

def parseContentArchive (env : InputEnv) (receipt : ContentIdentity) (input : Input) :
    Except UpdateError ValidatedArchive := do
  (env.seek 0).mapError (seekFailed "canonical archive position")
  (env.seek 1).mapError (seekFailed "canonical archive length")
  require (input.position ≤ input.bytes.length)
    (.artifactProcessing "canonical archive length" "end precedes input position")
  let remaining := input.bytes.length - input.position
  require (remaining == receipt.contentSize)
    (.artifactSizeMismatch receipt.contentSize (toString remaining))
  (env.seek 2).mapError (seekFailed "canonical archive rewind")
  let reader ← HashingReader.new input receipt.contentSize
  (parseFrom env receipt reader).1

end Keld.Archive
