/-
# `Keld.Pack.Producer` — the canonical archive, written

`plan` checks all metadata before any source is read or any byte written;
`produce` then streams headers, file contents, padding and two zero blocks into
the content writer.  What is written there is the canonical archive: it goes
through the hasher on its way into the compressor, which is not modelled beyond
what it may answer to a write.

A source is a list of what its reads do; every read of a longer delivery takes
what fits its buffer and leaves the rest.
-/
import Keld.Pack.Members
import Keld.Lib.Layout
import Keld.Lib.Proc
import Mathlib.Data.List.Sort

namespace Keld.Pack

open Proc

/-! ## Headers -/

/-- The low octal digits of a value, the highest first. -/
def octalDigits : Nat → Nat → List Byte
  | 0, _ => []
  | digits + 1, value => octalDigits digits (value / 8) ++ [UInt8.ofNat (48 + value % 8)]

/-- `octal` over a field of a width: digits and a closing zero byte. -/
def octal (value width : Nat) : List Byte := octalDigits (width - 1) value ++ [0]

/-- The zero bytes behind a member's data. -/
def padding (size : Nat) : Nat := (blockBytes - size % blockBytes) % blockBytes

def ArchiveEntryKind.mode : ArchiveEntryKind → List Byte
  | .file => utf8 "0000644\x00"
  | .directory => utf8 "0000755\x00"

/-- `b'0'` and `b'5'`. -/
def ArchiveEntryKind.flag : ArchiveEntryKind → Byte
  | .file => 48
  | .directory => 53

/-- A numeric field that is zero. -/
def zeroField : List Byte := utf8 "0000000\x00"

def ustarMagic : List Byte := utf8 "ustar\x00"

def ustarVersion : List Byte := utf8 "00"

def byteSum (bytes : List Byte) : Nat := (bytes.map UInt8.toNat).sum

/-- A name that does not fit has no header: the slice would be out of range. -/
def header (member : ArchiveMember) : Option (Chunk blockBytes) := do
  let bytes ← (Chunk.zero blockBytes).copyAt 0 (utf8 member.name)
  let bytes ← bytes.copyAt 100 member.kind.mode
  let bytes ← bytes.copyAt 108 zeroField
  let bytes ← bytes.copyAt 116 zeroField
  let bytes ← bytes.copyAt 329 zeroField
  let bytes ← bytes.copyAt 337 zeroField
  let bytes ← bytes.copyAt 124 (octal member.size 12)
  let bytes ← bytes.copyAt 136 (octal 0 12)
  let bytes ← bytes.copyAt 148 (List.replicate 8 32)
  let bytes ← bytes.copyAt 156 [member.kind.flag]
  let bytes ← bytes.copyAt 257 ustarMagic
  let bytes ← bytes.copyAt 263 ustarVersion
  let sum := byteSum bytes.bytes
  let bytes ← bytes.copyAt 148 (octal sum 7)
  bytes.copyAt 155 [32]

/-! ## Sources -/

/-- What one read of a source does. -/
inductive SourceRead
  | bytes (data : List Byte)
  | interrupted
  | failed (err : IoError)
  /-- the reader claims more than the buffer holds -/
  | overrun
deriving DecidableEq, Repr

inductive PackageEntry
  | directory (name : String)
  | file (name : String) (size : Nat) (input : List SourceRead)
deriving DecidableEq, Repr

def processing (stage : String) (source : IoError) : PackError := .processing stage source

/-- `read_source` into a buffer of a length, with what is left; a source that is done stays so. -/
def readSource : List SourceRead → Nat → Except PackError (List Byte × List SourceRead)
  | [], _ => .ok ([], [])
  | .interrupted :: rest, count => readSource rest count
  | .failed err :: _, _ => .error (processing "source read" err)
  | .overrun :: _, _ =>
    .error (processing "source read" "reader exceeded the supplied buffer")
  | .bytes data :: rest, count =>
    .ok (data.take count,
      if data.length ≤ count then rest else .bytes (data.drop count) :: rest)

/-! ## The content writer -/

/-- What the compressor does with one write. -/
inductive SinkWrite
  | takes (most : Nat)
  | failed (err : IoError)
  /-- it claims more than it was given -/
  | overrun
deriving DecidableEq, Repr

/-- Everything around the producer. -/
structure PackEnv where
  /-- the creation of the encoder -/
  init : Except IoError Unit
  /-- the nth write into the encoder -/
  write : Nat → SinkWrite
  /-- the compressed bytes of a content, when the encoder finishes -/
  finish : List Byte → Except IoError (List Byte)
  blake3 : List Byte → Chunk 32
  /-- what the system says of the names of a package -/
  nls : List String → Bool

/-- The `HashingWriter` around the encoder: the bytes it took are the bytes it hashed. -/
structure Sink where
  content : List Byte
  count : Nat
  writes : Nat
deriving DecidableEq, Repr

def Sink.fresh : Sink := ⟨[], 0, 0⟩

/-- Why the producer has no receipt. -/
inductive PackHalt
  | refused (err : PackError)
  | panicked
deriving DecidableEq, Repr

abbrev PackIo := Proc Sink PackHalt

def Sink.write (env : PackEnv) (bytes : List Byte) : Proc Sink IoError Nat := fun sink =>
  if sink.count + bytes.length > maxArtifactBytes then
    (.error "artifact exceeds the signed size domain", sink)
  else
    let sink' := { sink with writes := sink.writes + 1 }
    match env.write sink.writes with
    | .failed err => (.error err, sink')
    | .overrun => (.error "writer exceeded the supplied buffer", sink')
    | .takes most =>
      let written := min bytes.length most
      (.ok written,
        { sink' with
          content := sink.content ++ bytes.take written
          count := sink.count + bytes.length - (bytes.length - written) })

/-- `write_all`; every turn but the last takes at least one byte. -/
def Sink.writeLoop (env : PackEnv) : Nat → List Byte → Proc Sink IoError Unit
  | _, [] => pure ()
  | 0, _ :: _ => pure ()
  | turns + 1, bytes => do
    let written ← Sink.write env bytes
    if written = 0 then fail "failed to write whole buffer"
    else Sink.writeLoop env turns (bytes.drop written)

def writeAll (env : PackEnv) (stage : String) (bytes : List Byte) : PackIo Unit :=
  (Sink.writeLoop env bytes.length bytes).mapError fun source =>
    .refused (processing stage source)

/-! ## Copying a source -/

/-- `16 * 1024`. -/
def bufferBytes : Nat := 16384

def sourceSize (member : ArchiveMember) (observed : Nat) : PackHalt :=
  .refused (.sourceSizeMismatch member.name member.size observed)

/-- The loop of `copy_exact`; every turn reads at least one byte. -/
def copyLoop (env : PackEnv) (member : ArchiveMember) :
    Nat → Nat → List SourceRead → PackIo (Nat × List SourceRead)
  | 0, observed, input => pure (observed, input)
  | turns + 1, observed, input =>
    if observed < member.size then do
      let (data, input) ← ofExcept
        ((readSource input (min (member.size - observed) bufferBytes)).mapError .refused)
      if data.isEmpty then fail (sourceSize member observed)
      else do
        writeAll env "archive data write" data
        copyLoop env member turns (observed + data.length) input
    else pure (observed, input)

def copyExact (env : PackEnv) (member : ArchiveMember) (input : List SourceRead) : PackIo Unit := do
  let (observed, input) ← copyLoop env member member.size 0 input
  let (extra, _) ← ofExcept ((readSource input 1).mapError .refused)
  if extra.isEmpty then pure () else fail (sourceSize member (observed + 1))

/-! ## The plan -/

def PackageEntry.member : PackageEntry → ArchiveMember
  | .directory name => ⟨name, .directory, 0⟩
  | .file name size _ => ⟨name, .file, size⟩

/-- A member and the entry its content comes from; the producer's own members have none. -/
abbrev PlannedMember := ArchiveMember × Option Nat

/-- The loop over the caller's entries: whether the policy's parent is among them. -/
def planEntries : List PackageEntry → Nat → Except PackError (List PlannedMember × Bool)
  | [], _ => .ok ([], false)
  | entry :: rest, index => do
    let member := entry.member
    if member.name == updatePolicyPath then
      invalid "update policy is reserved to the producer"
    else if member.name == policyParent ∧ member.kind ≠ .directory then
      invalid "update policy parent must be a directory"
    else do
      let (plan, hasPolicyParent) ← planEntries rest (index + 1)
      return ((member, some index) :: plan, member.name == policyParent || hasPolicyParent)

def parentMember : ArchiveMember := ⟨policyParent, .directory, 0⟩

def policyMember : ArchiveMember := ⟨updatePolicyPath, .file, noMigrationPolicy.length⟩

/-- The order of the plan. -/
def PlannedMember.le (left right : PlannedMember) : Prop :=
  utf8 left.1.name ≤ utf8 right.1.name

instance : DecidableRel PlannedMember.le := fun left right =>
  inferInstanceAs (Decidable (utf8 left.1.name ≤ utf8 right.1.name))

def checkedAdd (left right : Nat) : Option Nat :=
  if left + right < 2 ^ 64 then some (left + right) else none

/-- One step of the size fold. -/
def addMember (total : Nat) (member : ArchiveMember) : Except PackError Nat :=
  let next := do
    let total ← checkedAdd total blockBytes
    let total ← checkedAdd total member.size
    let total ← checkedAdd total (padding member.size)
    if total ≤ maxArtifactBytes then some total else none
  orElseError next (.invalidMetadata "canonical archive exceeds the signed size domain")

def plan (nls : List String → Bool) (entries : List PackageEntry) :
    Except PackError (List PlannedMember × Nat) := do
  let (planned, hasPolicyParent) ← planEntries entries 0
  let parent := if hasPolicyParent then [] else [(parentMember, none)]
  let plan := (planned ++ parent ++ [(policyMember, none)]).insertionSort PlannedMember.le
  let members := plan.map Prod.fst
  validateV0Members members
  require (windowsPackagePaths nls (members.map ArchiveMember.name))
    (.invalidMetadata "Windows package namespace is invalid")
  requireUpdaterHelper members
  let size ← members.foldlM addMember (blockBytes * 2)
  return (plan, size)

/-! ## The producer -/

structure ProducedFull where
  compressedSize : Nat
  compressedBlake3 : Chunk 32
  contentSize : Nat
  contentBlake3 : Chunk 32
deriving DecidableEq, Repr

def writeHeader (env : PackEnv) (member : ArchiveMember) : PackIo Unit :=
  match header member with
  | some bytes => writeAll env "archive header write" bytes.bytes
  | none => fail .panicked

/-- A file's content, from its source or the producer's own. -/
def writeContent (env : PackEnv) (entries : List PackageEntry) (member : ArchiveMember) :
    Option Nat → PackIo Unit
  | some index =>
    match entries[index]? with
    | some (.file _ _ input) => copyExact env member input
    | _ => fail (.refused (processing "source lookup" "source plan changed"))
  | none => writeAll env "policy write" noMigrationPolicy

def writeMember (env : PackEnv) (entries : List PackageEntry) (planned : PlannedMember) :
    PackIo Unit := do
  let (member, sourceIndex) := planned
  writeHeader env member
  if member.kind = .file then do
    writeContent env entries member sourceIndex
    writeAll env "archive padding write" (List.replicate (padding member.size) 0)
  else pure ()

def writeMembers (env : PackEnv) (entries : List PackageEntry) : List PlannedMember → PackIo Unit
  | [] => pure ()
  | planned :: rest => do
    writeMember env entries planned
    writeMembers env entries rest

def produce (env : PackEnv) (entries : List PackageEntry) : PackIo ProducedFull := do
  let (plan, contentSize) ← ofExcept ((plan env.nls entries).mapError .refused)
  ofExcept (env.init.mapError fun source => .refused (processing "zstd initialization" source))
  writeMembers env entries plan
  writeAll env "archive terminator write" (List.replicate blockBytes 0)
  writeAll env "archive terminator write" (List.replicate blockBytes 0)
  let sink ← state
  if sink.count ≠ contentSize then
    fail (.refused (processing "archive size" "canonical byte count mismatch"))
  else do
    let compressed ← ofExcept ((env.finish sink.content).mapError fun source =>
      .refused (processing "zstd finalization" source))
    return ⟨compressed.length, env.blake3 compressed, contentSize, env.blake3 sink.content⟩

end Keld.Pack
