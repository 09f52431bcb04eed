/-
# `Keld.Attempt.Records` — the records of the claim and health exchange

A record is its eight magic bytes and its fields, fixed in number and width, so
its length follows from its magic.  Every read names the position it stands at,
and a magic the position does not admit is refused before another byte is read.
The fields are written one after the other into a buffer that holds the longest
record and read back the same way.
-/
import Keld.Ipc.Handshake
import Keld.Lib.Layout

namespace Keld.Attempt

open Ipc (SessionToken ErrorKind Link ReadHalt readExactIo)

def magicLen : Nat := 8

def idLen : Nat := 32

def pidLen : Nat := 4

/-- `KELD-AA1` and `KELD-AR1`, the longest records. -/
def maxRecordLen : Nat := magicLen + 5 * idLen + 2 * pidLen

/-- A raw ID or digest. -/
abbrev Id := Chunk idLen

/-! ## Kinds and positions -/

inductive AttemptRecordKind
  | claim
  | challenge
  | acknowledgement
  | receipt
  | bootAcknowledgement
  | ready
  | failure
  | healthResult
deriving DecidableEq, Repr

namespace AttemptRecordKind

def all : List AttemptRecordKind :=
  [claim, challenge, acknowledgement, receipt, bootAcknowledgement, ready, failure, healthResult]

/-- `KELD-A`, the letter of the kind, `1`. -/
def magicOf (letter : Byte) : List Byte := [75, 69, 76, 68, 45, 65, letter, 49]

def magic : AttemptRecordKind → List Byte
  | claim => magicOf 72
  | challenge => magicOf 67
  | acknowledgement => magicOf 65
  | receipt => magicOf 82
  | bootAcknowledgement => magicOf 66
  | ready => magicOf 89
  | failure => magicOf 70
  | healthResult => magicOf 75

/-- The whole length in bytes, magic included. -/
def recordLen : AttemptRecordKind → Nat
  | claim => magicLen + 2 * idLen + pidLen
  | challenge => magicLen + 3 * idLen + pidLen
  | acknowledgement | receipt => maxRecordLen
  | bootAcknowledgement => magicLen + 3 * idLen
  | ready => magicLen
  | failure | healthResult => magicLen + 1

def fromMagic (bytes : List Byte) : Option AttemptRecordKind :=
  all.find? fun kind => kind.magic == bytes

theorem length_magic (kind : AttemptRecordKind) : kind.magic.length = magicLen := by
  cases kind <;> rfl

theorem fromMagic_magic (kind : AttemptRecordKind) : fromMagic kind.magic = some kind := by
  cases kind <;> rfl

theorem fromMagic_some {bytes : List Byte} {kind : AttemptRecordKind}
    (h : fromMagic bytes = some kind) : bytes = kind.magic := by
  have := List.find?_some h
  exact (beq_iff_eq.mp this).symm

theorem magic_injective {kind other : AttemptRecordKind} (h : kind.magic = other.magic) :
    kind = other := by
  have hk := fromMagic_magic kind
  rw [h, fromMagic_magic] at hk
  exact (Option.some.inj hk).symm

theorem magicLen_le_recordLen (kind : AttemptRecordKind) : magicLen ≤ kind.recordLen := by
  cases kind <;> decide

theorem recordLen_le (kind : AttemptRecordKind) : kind.recordLen ≤ maxRecordLen := by
  cases kind <;> decide

end AttemptRecordKind

/-- Where a record is read, which fixes the records it admits. -/
inductive AttemptReadPosition
  | ownerClaim
  | ownerAcknowledgement
  | ownerBoot
  | ownerReady
  | candidateChallenge
  | candidateReceipt
  | candidateHealthResult
deriving DecidableEq, Repr

inductive AttemptFailureClass
  | bootstrapReadRefused
  | applicationExitBeforeReady
  | bootError
deriving DecidableEq, Repr

namespace AttemptFailureClass

def toByte : AttemptFailureClass → Byte
  | bootstrapReadRefused => 1
  | applicationExitBeforeReady => 2
  | bootError => 3

def fromByte (value : Byte) : Option AttemptFailureClass :=
  match value with
  | 1 => some bootstrapReadRefused
  | 2 => some applicationExitBeforeReady
  | 3 => some bootError
  | _ => none

theorem fromByte_toByte (cls : AttemptFailureClass) : fromByte cls.toByte = some cls := by
  cases cls <;> rfl

theorem fromByte_some {value : Byte} {cls : AttemptFailureClass} (h : fromByte value = some cls) :
    cls.toByte = value := by
  unfold fromByte at h
  split at h <;> cases h <;> rfl

end AttemptFailureClass

inductive AttemptHealthResult
  | accepted
  | rolledBack
deriving DecidableEq, Repr

namespace AttemptHealthResult

def toByte : AttemptHealthResult → Byte
  | accepted => 1
  | rolledBack => 2

def fromByte (value : Byte) : Option AttemptHealthResult :=
  match value with
  | 1 => some accepted
  | 2 => some rolledBack
  | _ => none

theorem fromByte_toByte (result : AttemptHealthResult) : fromByte result.toByte = some result := by
  cases result <;> rfl

theorem fromByte_some {value : Byte} {result : AttemptHealthResult}
    (h : fromByte value = some result) : result.toByte = value := by
  unfold fromByte at h
  split at h <;> cases h <;> rfl

end AttemptHealthResult

namespace AttemptReadPosition

def admits : AttemptReadPosition → AttemptRecordKind → Bool
  | ownerClaim, .claim => true
  | ownerAcknowledgement, .acknowledgement => true
  | ownerBoot, .bootAcknowledgement | ownerBoot, .failure => true
  | ownerReady, .ready | ownerReady, .failure => true
  | candidateChallenge, .challenge => true
  | candidateReceipt, .receipt => true
  | candidateHealthResult, .healthResult => true
  | _, _ => false

/-- A refused bootstrap read can only precede the boot acknowledgement and an application exit
before Ready can only follow it. -/
def admitsFailure : AttemptReadPosition → AttemptFailureClass → Bool
  | ownerBoot, .bootstrapReadRefused | ownerBoot, .bootError => true
  | ownerReady, .applicationExitBeforeReady | ownerReady, .bootError => true
  | _, _ => false

end AttemptReadPosition

/-! ## Records -/

inductive AttemptRecordError
  | magicNotAdmitted (position : AttemptReadPosition) (magic : List Byte)
  | truncated (expected actual : Nat)
  | trailingBytes (expected actual : Nat)
  | valueOutOfSet (kind : AttemptRecordKind) (value : Byte)
  | failureClassNotAdmitted (position : AttemptReadPosition) (cls : AttemptFailureClass)
  | foreignInstallation
  | clientProcessMismatch (claimed connected : UInt32)
  | serverProcessMismatch (challenged connected : UInt32)
  | locatorMismatch
  | transcriptMismatch
  | bootMismatch
  | io (source : ErrorKind)
deriving DecidableEq, Repr

structure AttemptClaim where
  installationId : Id
  clientNonce : SessionToken
  clientPid : UInt32
deriving DecidableEq

structure AttemptChallenge where
  attemptId : Id
  healthChannelId : Id
  serverNonce : SessionToken
  serverPid : UInt32
deriving DecidableEq

/-- The fields of a claim and of a challenge together. -/
structure AttemptTranscript where
  installationId : Id
  attemptId : Id
  healthChannelId : Id
  clientNonce : SessionToken
  serverNonce : SessionToken
  clientPid : UInt32
  serverPid : UInt32
deriving DecidableEq

structure AttemptBootAcknowledgement where
  attemptId : Id
  healthChannelId : Id
  healthReceiptDigest : Id
deriving DecidableEq

inductive AttemptRecord
  | claim (claim : AttemptClaim)
  | challenge (challenge : AttemptChallenge)
  | acknowledgement (transcript : AttemptTranscript)
  | receipt (transcript : AttemptTranscript)
  | bootAcknowledgement (boot : AttemptBootAcknowledgement)
  | ready
  | failure (cls : AttemptFailureClass)
  | healthResult (result : AttemptHealthResult)
deriving DecidableEq

/-! ## Encoding -/

/-- `u32::to_le_bytes`. -/
def pidBytes (pid : UInt32) : List Byte := leBytes pidLen pid.toNat

/-- The fields of a transcript in the order they are written. -/
def AttemptTranscript.fields (transcript : AttemptTranscript) : List (List Byte) :=
  [transcript.installationId.bytes, transcript.attemptId.bytes, transcript.healthChannelId.bytes,
    transcript.clientNonce.bytes, transcript.serverNonce.bytes, pidBytes transcript.clientPid,
    pidBytes transcript.serverPid]

namespace AttemptRecord

def kind : AttemptRecord → AttemptRecordKind
  | claim _ => .claim
  | challenge _ => .challenge
  | acknowledgement _ => .acknowledgement
  | receipt _ => .receipt
  | bootAcknowledgement _ => .bootAcknowledgement
  | ready => .ready
  | failure _ => .failure
  | healthResult _ => .healthResult

/-- The arguments of the writer's `put` calls after the magic, in order. -/
def fields : AttemptRecord → List (List Byte)
  | claim c => [c.installationId.bytes, c.clientNonce.bytes, pidBytes c.clientPid]
  | challenge c =>
    [c.attemptId.bytes, c.healthChannelId.bytes, c.serverNonce.bytes, pidBytes c.serverPid]
  | acknowledgement transcript | receipt transcript => transcript.fields
  | bootAcknowledgement boot =>
    [boot.attemptId.bytes, boot.healthChannelId.bytes, boot.healthReceiptDigest.bytes]
  | ready => []
  | failure cls => [[cls.toByte]]
  | healthResult result => [[result.toByte]]

/-- The buffer and how much of it is the record. -/
def encode (record : AttemptRecord) : Option (Chunk maxRecordLen × Nat) := do
  let out ← (RecordWriter.fresh maxRecordLen).put record.kind.magic
  let out ← out.putAll record.fields
  return (out.bytes, out.len)

/-- `bytes[..len]`, what is written to the stream. -/
def encoded (record : AttemptRecord) : Option (List Byte) := do
  let (bytes, len) ← record.encode
  return bytes.bytes.take len

/-- The refusal for a record that is read where it is not admitted. -/
def notAdmittedAt (record : AttemptRecord) (position : AttemptReadPosition) :
    AttemptRecordError := .magicNotAdmitted position record.kind.magic

end AttemptRecord

/-! ## Decoding -/

/-- The magic-first admission rule. -/
def admittedKind (position : AttemptReadPosition) (magic : List Byte) :
    Except AttemptRecordError AttemptRecordKind :=
  orElseError ((AttemptRecordKind.fromMagic magic).filter fun kind => position.admits kind)
    (.magicNotAdmitted position magic)

open FieldReader (take)

/-- `SessionToken::from_bytes`. -/
def tokenFromBytes (bytes : Chunk idLen) : SessionToken := ⟨bytes.bytes, bytes.len⟩

def parseTranscript : Fields maxRecordLen AttemptTranscript := do
  let installationId ← take idLen
  let attemptId ← take idLen
  let healthChannelId ← take idLen
  let clientNonce ← take idLen
  let serverNonce ← take idLen
  let clientPid ← take pidLen
  let serverPid ← take pidLen
  return ⟨installationId, attemptId, healthChannelId, tokenFromBytes clientNonce,
    tokenFromBytes serverNonce, u32Le clientPid.bytes, u32Le serverPid.bytes⟩

/-- `let [value] = fields.take()`. -/
def takeByte : Fields maxRecordLen Byte := do
  let field ← take 1
  return field.bytes.headD 0

/-- The match of `parse` over the kind. -/
def parseFields (position : AttemptReadPosition) (kind : AttemptRecordKind) :
    Fields maxRecordLen (Except AttemptRecordError AttemptRecord) :=
  match kind with
  | .claim => do
    let installationId ← take idLen
    let clientNonce ← take idLen
    let clientPid ← take pidLen
    return .ok (.claim ⟨installationId, tokenFromBytes clientNonce, u32Le clientPid.bytes⟩)
  | .challenge => do
    let attemptId ← take idLen
    let healthChannelId ← take idLen
    let serverNonce ← take idLen
    let serverPid ← take pidLen
    return .ok (.challenge
      ⟨attemptId, healthChannelId, tokenFromBytes serverNonce, u32Le serverPid.bytes⟩)
  | .acknowledgement => do
    let transcript ← parseTranscript
    return .ok (.acknowledgement transcript)
  | .receipt => do
    let transcript ← parseTranscript
    return .ok (.receipt transcript)
  | .bootAcknowledgement => do
    let attemptId ← take idLen
    let healthChannelId ← take idLen
    let healthReceiptDigest ← take idLen
    return .ok (.bootAcknowledgement ⟨attemptId, healthChannelId, healthReceiptDigest⟩)
  | .ready => return .ok .ready
  | .failure => do
    let value ← takeByte
    match AttemptFailureClass.fromByte value with
    | none => return .error (.valueOutOfSet kind value)
    | some cls =>
      if position.admitsFailure cls then return .ok (.failure cls)
      else return .error (.failureClassNotAdmitted position cls)
  | .healthResult => do
    let value ← takeByte
    match AttemptHealthResult.fromByte value with
    | none => return .error (.valueOutOfSet kind value)
    | some result => return .ok (.healthResult result)

/-- Decodes the fields of one whole record whose magic was admitted; no result where a field
read would leave the buffer. -/
def parse (position : AttemptReadPosition) (kind : AttemptRecordKind)
    (record : Chunk maxRecordLen) : Option (Except AttemptRecordError AttemptRecord) :=
  (parseFields position kind ⟨record, magicLen⟩).map Prod.fst

/-- Decodes a slice as exactly one record admitted at the position. -/
def decode (position : AttemptReadPosition) (bytes : List Byte) :
    Option (Except AttemptRecordError AttemptRecord) :=
  if bytes.length < magicLen then some (.error (.truncated magicLen bytes.length))
  else
    match admittedKind position (bytes.take magicLen) with
    | .error err => some (.error err)
    | .ok kind =>
      if bytes.length < kind.recordLen then
        some (.error (.truncated kind.recordLen bytes.length))
      else if kind.recordLen < bytes.length then
        some (.error (.trailingBytes kind.recordLen bytes.length))
      else do
        let record ← (Chunk.zero maxRecordLen).copyAt 0 bytes
        parse position kind record

/-- Why an exchange on a link has no value. -/
inductive RecordHalt
  | refused (err : AttemptRecordError)
  /-- it is still in a read that has not returned -/
  | waiting
  /-- an access outside a buffer -/
  | panicked
deriving DecidableEq, Repr

def RecordHalt.ofRead : ReadHalt → RecordHalt
  | .failed kind => .refused (.io kind)
  | .waiting => .waiting

/-- The value of a computation that may panic and may refuse. -/
def RecordHalt.outcome {α : Type} :
    Option (Except AttemptRecordError α) → Except RecordHalt α
  | none => .error .panicked
  | some (.error err) => .error (.refused err)
  | some (.ok a) => .ok a

abbrev RecordIo := Proc Link RecordHalt

/-- The pure part of a reader. -/
def orRefuse {α : Type} (r : Except AttemptRecordError α) : RecordIo α :=
  Proc.ofExcept (RecordHalt.outcome (some r))

/-- Reads exactly one record admitted at the position, its magic first. -/
def readFrom (position : AttemptReadPosition) : RecordIo AttemptRecord := do
  let magic ← (readExactIo magicLen).mapError RecordHalt.ofRead
  let kind ← orRefuse (admittedKind position magic)
  let rest ← (readExactIo (kind.recordLen - magicLen)).mapError RecordHalt.ofRead
  Proc.ofExcept (RecordHalt.outcome (do
    let record ← (Chunk.zero maxRecordLen).copyAt 0 magic
    let record ← record.copyAt magicLen rest
    parse position kind record))

/-- `write_all` of the record's bytes; `faults` says what goes wrong with the nth write. -/
def AttemptRecord.writeTo (faults : Nat → Option Ipc.WriteFault) (record : AttemptRecord) :
    RecordIo Unit := fun link =>
  match record.encoded with
  | none => (.error .panicked, link)
  | some bytes =>
    let link' := { link with writes := link.writes + 1 }
    match faults link.writes with
    | none => (.ok (), { link' with written := link.written ++ bytes })
    | some fault =>
      (.error (.refused (.io fault.kind)),
        { link' with written := link.written ++ bytes.take fault.put })

end Keld.Attempt
