/-
# `Keld.Update.Full` — the bytes of a full artifact

`verify_content` of `full.rs`.  The compressed bytes are read twice: a first pass
hashes them, a second hands them to the decoder.  The source may answer the second
pass with other bytes than the first, and may cut its reads as it likes, so the
second pass hashes what it hands over once more.

The decoder is any program that pulls its input, and BLAKE3 any function of the
bytes.  A run records what the first pass hashed, what was handed to the decoder,
what of it the decoder left in its buffer, and what came to be in the sink.
-/
import Keld.Lib.Proc
import Keld.Update.Manifest

namespace Keld.Update

open Proc

def streamBufferBytes : ℕ := 16 * 1024

/-- `u64::MAX + 1`. -/
def u64Bound : ℕ := 2 ^ 64

inductive ArtifactDomain where
  | compressed
  | content
deriving DecidableEq

/-- The refusals of `full.rs`; a digest is rendered as hexadecimal where it is shown. -/
inductive FullError where
  | artifactSizeMismatch (domain : ArtifactDomain) (expected : ℕ) (observed : String)
  | artifactDigestMismatch (domain : ArtifactDomain) (expected actual : Digest)
  | artifactProcessing (stage detail : String)
deriving DecidableEq

structure ContentIdentity where
  identity : ArtifactIdentity
  contentSize : ℕ
  contentBlake3 : Digest
deriving DecidableEq

/-! ## The environment -/

/-- At most so many bytes. -/
abbrev Upto (room : ℕ) : Type := { bytes : List Byte // bytes.length ≤ room }

/-- What the calls on the source and on the sink return. -/
structure FullOs where
  streamPosition : Except String Unit
  seek : Except String Unit
  /-- The nth read, of at most `room` bytes; nothing is the end, for now. -/
  read : ℕ → (room : ℕ) → Except String (Upto room)
  /-- How much of the nth write is taken before it fails, where it does. -/
  write : ℕ → (room : ℕ) → Option (Fin (room + 1) × String)
  blake3 : List Byte → Digest

structure Decoder where
  State : Type
  new : Except String State
  read : State → Pull String (List Byte) (Except String (Upto streamBufferBytes) × State)
  finishFrame : State → Pull String (List Byte) (Except String Unit × State)
  /-- What has been pulled and is not consumed. -/
  buffer : State → List Byte

structure FullRun where
  reads : ℕ := 0
  writes : ℕ := 0
  /-- What the first pass hashed. -/
  hashed : List Byte := []
  /-- What `Take` still lets through. -/
  limit : ℕ := 0
  /-- What `CompressedHashReader` let through and hashed. -/
  handed : List Byte := []
  /-- What the decoder left when it was finished. -/
  left : Option (List Byte) := none
  sink : List Byte := []
deriving DecidableEq

abbrev FullIo := Proc FullRun FullError

namespace FullIo

variable (os : FullOs)

/-- One read of the source. -/
def read (room : ℕ) : Proc FullRun String (Upto room) := fun run =>
  (os.read run.reads room, { run with reads := run.reads + 1 })

def processing (stage detail : String) : FullError := .artifactProcessing stage detail

def sizeMismatch (domain : ArtifactDomain) (expected : ℕ) (observed : String) : FullError :=
  .artifactSizeMismatch domain expected observed

/-! ## The first pass -/

def hash (bytes : List Byte) : FullIo Unit := fun run =>
  (.ok (), { run with hashed := run.hashed ++ bytes })

/-- The loop of `hash_exact_compressed`. -/
def hashFrom (expectedSize observed : ℕ) : FullIo Unit :=
  if observed < expectedSize then do
    let bytes ← (read os (min (expectedSize - observed) streamBufferBytes)).mapError
      (processing "compressed input read")
    if bytes.val.length = 0 then
      fail (sizeMismatch .compressed expectedSize (toString observed))
    else do
      hash bytes.val
      hashFrom expectedSize (observed + bytes.val.length)
  else pure ()
termination_by expectedSize - observed

def hashExactCompressed (expectedSize : ℕ) (expectedDigest : Digest) : FullIo Unit := do
  hashFrom os expectedSize 0
  let extra ← (read os 1).mapError (processing "compressed input boundary read")
  if extra.val.length ≠ 0 then
    fail (sizeMismatch .compressed expectedSize ("at least " ++ toString (expectedSize + 1)))
  else do
    let run ← state
    let actual := os.blake3 run.hashed
    ofExcept (require (actual = expectedDigest)
      (.artifactDigestMismatch .compressed expectedDigest actual))

/-! ## The second pass -/

/-- `CompressedHashReader::read` over `Take::read`. -/
def handOver (room : ℕ) : Proc FullRun String (List Byte) := fun run =>
  if run.limit = 0 then (.ok [], run)
  else
    match read os (min room run.limit) run with
    | (.error error, run) => (.error error, run)
    | (.ok bytes, run) =>
      let run := { run with limit := run.limit - bytes.val.length }
      if run.handed.length + bytes.val.length < u64Bound then
        (.ok bytes.val, { run with handed := run.handed ++ bytes.val })
      else (.error "compressed byte count overflow", run)

def writeAll (bytes : List Byte) : FullIo Unit := fun run =>
  match os.write run.writes bytes.length with
  | none => (.ok (), { run with writes := run.writes + 1, sink := run.sink ++ bytes })
  | some (count, error) =>
    (.error (processing "verified-content sink write" error),
      { run with writes := run.writes + 1, sink := run.sink ++ bytes.take count })

variable (decoder : Decoder)

/-- The loop of `verify_content`: what was produced, and what the hasher was updated with. -/
def decodeFrom (contentSize produced : ℕ) (hasher : List Byte) (state : decoder.State) :
    FullIo (ℕ × List Byte × decoder.State) := do
  let step ← (decoder.read state).run (handOver os)
  let out ← ofExcept (step.1.mapError (processing "zstd decode"))
  if out.val.length = 0 then pure (produced, hasher, step.2)
  else if produced + out.val.length ≥ u64Bound then
    fail (processing "content byte counter" "u64 overflow")
  else if produced + out.val.length > contentSize then
    fail (sizeMismatch .content contentSize
      ("at least " ++ toString (produced + out.val.length)))
  else do
    writeAll os out.val
    decodeFrom contentSize (produced + out.val.length) (hasher ++ out.val) step.2
termination_by contentSize - produced

/-- `decoder.finish()`. -/
def finish (state : decoder.State) : FullIo (List Byte) := fun run =>
  (.ok (decoder.buffer state), { run with left := some (decoder.buffer state) })

/-- What is checked once the frame is complete. -/
def checkConsumed (compressedSize : ℕ) (compressedBlake3 : Digest) (buffered : List Byte) :
    FullIo Unit := do
  let run ← state
  ofExcept do
    require (buffered.length ≤ run.handed.length)
      (processing "compressed byte counter" "buffer exceeds bytes read")
    require (buffered.length = 0 ∧ run.handed.length = compressedSize)
      (sizeMismatch .compressed compressedSize (toString (run.handed.length - buffered.length) ++
        " consumed; " ++ toString buffered.length ++ " buffered"))
    require (os.blake3 run.handed = compressedBlake3)
      (.artifactDigestMismatch .compressed compressedBlake3 (os.blake3 run.handed))

/-- `compressed.take(limit)`. -/
def take (limit : ℕ) : FullIo Unit := fun run => (.ok (), { run with limit := limit })

end FullIo

namespace SignedFullArtifact

open FullIo

variable (os : FullOs) (decoder : Decoder) (self : SignedFullArtifact)

/-- The second pass, up to the digest of the content. -/
def decodeContent : FullIo (ContentIdentity × decoder.State) := do
  let state ← ofExcept (decoder.new.mapError (processing "zstd decoder initialization"))
  let (produced, hasher, state) ← decodeFrom os decoder self.contentSize 0 [] state
  ofExcept (require (produced = self.contentSize)
    (sizeMismatch .content self.contentSize (toString produced)))
  let actual := os.blake3 hasher
  ofExcept (require (actual = self.identity.contentBlake3)
    (.artifactDigestMismatch .content self.identity.contentBlake3 actual))
  return ({ identity := self.identity, contentSize := produced, contentBlake3 := actual }, state)

/-- Behind the digest of the content. -/
def finishContent (content : ContentIdentity) (state : decoder.State) : FullIo ContentIdentity := do
  let finished ← (decoder.finishFrame state).run (handOver os)
  ofExcept (finished.1.mapError (processing "zstd frame completion"))
  let buffered ← finish decoder finished.2
  checkConsumed os self.compressedSize self.compressedBlake3 buffered
  return content

def verifyContent : FullIo ContentIdentity := do
  ofExcept (os.streamPosition.mapError (processing "input seek"))
  hashExactCompressed os self.compressedSize self.compressedBlake3
  ofExcept (os.seek.mapError (processing "input rewind"))
  ofExcept (require (self.compressedSize + 1 < u64Bound)
    (processing "compressed byte limit" "u64 overflow"))
  take (self.compressedSize + 1)
  let decoded ← self.decodeContent os decoder
  self.finishContent os decoder decoded.1 decoded.2

end SignedFullArtifact

/-- Expected content facts are bound to the installation they were selected for. -/
structure VerifiedFull where
  installation : DirectInstallationIdentity
  content : ContentIdentity
deriving DecidableEq

def SelectedFull.verifyFull (os : FullOs) (decoder : Decoder) (self : SelectedFull) :
    FullIo VerifiedFull := do
  let content ← self.artifact.verifyContent os decoder
  return { installation := self.installation, content := content }

end Keld.Update
