/-
# `Keld.Profile.Lifecycle` — the durable lifecycle of a persistent profile

`lifecycle.v1` says which process last started an engine on the profile, and in
which boot.  A session reads it, settles what a dead predecessor left, commits
that it is starting, and goes on to running, stopping and idle; every commit is
one durable write, and a crash may come before any of them.

A session is a `Task` whose only questions are "still alive?" before each write,
so a script that ends is a crash.  A record is stored as its document; what the
JSON text adds to that is left to the serializer.
-/
import Keld.Lib.Except
import Keld.Lib.Hex
import Keld.Lib.Task
import Mathlib.Data.FinEnum

namespace Keld.Profile

/-- The kinds of `ProfileError`. -/
inductive ProfileErrorKind where
  | invalidAppId
  | missingAuthenticatedIdentity
  | invalidEphemeralNonce
  | invalidRecord
  | markerMismatch
  | registryCorruption
  | activeIntent
  | profileInUse
  | lockOrderViolation
  | lifecycleUnproven
deriving DecidableEq, Repr

/-! ## Identities -/

structure BootIdentity where
  bytes : List Byte
  length : bytes.length = 16
  nonzero : ¬ ∀ byte ∈ bytes, byte = 0
deriving DecidableEq

def BootIdentity.fromHostVerifiedBytes (bytes : List Byte) (length : bytes.length = 16) :
    Except ProfileErrorKind BootIdentity :=
  if h : ∀ byte ∈ bytes, byte = 0 then .error .lifecycleUnproven else .ok ⟨bytes, length, h⟩

/-- `decode_lower_hex::<16>` and the check of the boot identity. -/
def BootIdentity.fromHex (text : List Char) : Except ProfileErrorKind BootIdentity :=
  match h : decodeLowerHex 16 text with
  | none => .error .invalidRecord
  | some bytes => fromHostVerifiedBytes bytes (length_decodeLowerHex h)

structure ProfileProcessIdentity where
  pid : UInt32
  processBirth : UInt64
  pid_ne : pid ≠ 0
  processBirth_ne : processBirth ≠ 0
deriving DecidableEq

def ProfileProcessIdentity.fromHostObservation (pid : UInt32) (processBirth : UInt64) :
    Except ProfileErrorKind ProfileProcessIdentity :=
  if h : pid = 0 ∨ processBirth = 0 then .error .lifecycleUnproven
  else .ok ⟨pid, processBirth, fun hpid => h (.inl hpid), fun hbirth => h (.inr hbirth)⟩

/-! ## The record -/

inductive ProfileLifecyclePhase where
  | idle
  | starting
  | running
  | stopping
  | quarantined
deriving DecidableEq, Repr

inductive LifecycleRecovery where
  | bootScoped (boot : BootIdentity)
  | windowsExclusiveUdf
deriving DecidableEq

structure ProfileLifecycleRecord where
  phase : ProfileLifecyclePhase
  recovery : LifecycleRecovery
  owner : Option ProfileProcessIdentity
deriving DecidableEq

namespace ProfileLifecycleRecord

def idle (boot : BootIdentity) : ProfileLifecycleRecord := ⟨.idle, .bootScoped boot, none⟩

/-- The recovery mode stays that of the idle record. -/
def beginStartup (record : ProfileLifecycleRecord) (owner : ProfileProcessIdentity) :
    Except ProfileErrorKind ProfileLifecycleRecord :=
  if record.phase ≠ .idle ∨ record.owner.isSome then .error .lifecycleUnproven
  else .ok { record with phase := .starting, owner := some owner }

def advance (record : ProfileLifecycleRecord) (next : ProfileLifecyclePhase) :
    Except ProfileErrorKind ProfileLifecycleRecord :=
  match record.phase, next with
  | .starting, .running | .running, .stopping => .ok { record with phase := next }
  | .stopping, .idle => .ok { record with phase := .idle, owner := none }
  | _, _ => .error .lifecycleUnproven

def quarantine (record : ProfileLifecycleRecord) :
    Except ProfileErrorKind ProfileLifecycleRecord :=
  match record.phase with
  | .starting | .running | .stopping =>
    if record.owner.isSome then .ok { record with phase := .quarantined }
    else .error .lifecycleUnproven
  | .idle | .quarantined => .error .lifecycleUnproven

def restoreIdleAfterBoot (record : ProfileLifecycleRecord) (currentBoot : BootIdentity) :
    Except ProfileErrorKind ProfileLifecycleRecord :=
  match record.recovery with
  | .bootScoped recordedBoot =>
    if record.phase = .quarantined ∧ record.owner.isSome ∧ recordedBoot ≠ currentBoot then
      .ok (idle currentBoot)
    else .error .lifecycleUnproven
  | .windowsExclusiveUdf => .error .lifecycleUnproven

end ProfileLifecycleRecord

/-! ## Its documents -/

structure BootLifecycleDocument where
  schema : UInt8
  phase : ProfileLifecyclePhase
  bootIdentity : List Char
  owner : Option (UInt32 × UInt64)
deriving DecidableEq

structure WindowsLifecycleDocument where
  schema : UInt8
  phase : ProfileLifecyclePhase
  owner : Option (UInt32 × UInt64)
deriving DecidableEq

inductive AnyLifecycleDocument where
  | boot (document : BootLifecycleDocument)
  | windows (document : WindowsLifecycleDocument)
deriving DecidableEq

def ProfileProcessIdentity.toDocument (owner : ProfileProcessIdentity) : UInt32 × UInt64 :=
  (owner.pid, owner.processBirth)

/-- A process identity that is not one makes the whole record malformed. -/
def decodeOwner : Option (UInt32 × UInt64) →
    Except ProfileErrorKind (Option ProfileProcessIdentity)
  | none => .ok none
  | some (pid, processBirth) =>
    ((ProfileProcessIdentity.fromHostObservation pid processBirth).map some).mapError
      fun _ => .invalidRecord

/-- `to_record_bytes`. -/
def ProfileLifecycleRecord.toRecord (record : ProfileLifecycleRecord) : AnyLifecycleDocument :=
  let owner := record.owner.map ProfileProcessIdentity.toDocument
  match record.recovery with
  | .bootScoped boot => .boot ⟨1, record.phase, encodeLowerHex boot.bytes, owner⟩
  | .windowsExclusiveUdf => .windows ⟨2, record.phase, owner⟩

/-- The record that a document spells, before its owner is checked against its phase. -/
def readDocument : AnyLifecycleDocument → Except ProfileErrorKind ProfileLifecycleRecord
  | .boot document => do
    let owner ← decodeOwner document.owner
    if document.schema = 1 then do
      let boot ← BootIdentity.fromHex document.bootIdentity
      return ⟨document.phase, .bootScoped boot, owner⟩
    else .error .invalidRecord
  | .windows document => do
    let owner ← decodeOwner document.owner
    if document.schema = 2 then return ⟨document.phase, .windowsExclusiveUdf, owner⟩
    else .error .invalidRecord

/-- `from_record_bytes`. -/
def fromRecord (document : AnyLifecycleDocument) :
    Except ProfileErrorKind ProfileLifecycleRecord := do
  let record ← readDocument document
  if record.owner.isSome ↔ record.phase ≠ .idle then return record
  else .error .invalidRecord

/-- `from_boot_scoped_record_bytes`. -/
def fromBootScopedRecord (document : AnyLifecycleDocument) :
    Except ProfileErrorKind ProfileLifecycleRecord := do
  let record ← fromRecord document
  match record.recovery with
  | .bootScoped _ => return record
  | .windowsExclusiveUdf => .error .invalidRecord

/-! ## The recovery policy -/

inductive RecordedProcessObservation where
  | live
  | dead
  | unknown
deriving DecidableEq, Repr

inductive ProfileLifecycleAction where
  | beginStartup
  | writeQuarantined
  | restoreIdleAfterBoot
  | runWindowsExclusiveUdfRecovery
deriving DecidableEq, Repr

def nextLifecycleAction (record : ProfileLifecycleRecord) (process : RecordedProcessObservation)
    (currentBoot : BootIdentity) : Except ProfileErrorKind ProfileLifecycleAction :=
  match record.recovery with
  | .windowsExclusiveUdf => .error .lifecycleUnproven
  | .bootScoped recordedBoot =>
    match record.phase with
    | .idle => if record.owner.isNone then .ok .beginStartup else .error .invalidRecord
    | .quarantined =>
      if recordedBoot ≠ currentBoot then .ok .restoreIdleAfterBoot
      else .error .lifecycleUnproven
    | .starting | .running | .stopping =>
      if recordedBoot ≠ currentBoot then .ok .writeQuarantined
      else
        match process with
        | .live => .error .profileInUse
        | .dead => .ok .writeQuarantined
        | .unknown => .error .lifecycleUnproven

/-! ## A session -/

/-- The durable record, and all that was written to it. -/
structure ProfileDisk where
  lifecycle : Option AnyLifecycleDocument := none
  writes : List ProfileLifecycleRecord := []

/-- A run of the host over the durable state `S`. -/
abbrev ProfileTask (S α : Type) := Task S Empty Unit ProfileErrorKind α

/-- A crash may come here. -/
def alive {S : Type} : ProfileTask S Unit := Task.ask (fun none _ => none.elim)

def ofExcept {S α : Type} : Except ProfileErrorKind α → ProfileTask S α
  | .ok a => pure a
  | .error kind => Task.throw kind

def ProfileDisk.put (disk : ProfileDisk) (record : ProfileLifecycleRecord) : ProfileDisk where
  lifecycle := some record.toRecord
  writes := disk.writes ++ [record]

def writeLifecycle (record : ProfileLifecycleRecord) : ProfileTask ProfileDisk Unit := do
  alive
  Task.modify (·.put record)

/-- One turn of `begin_lifecycle`'s loop. -/
def beginLifecycleTurn (currentBoot : BootIdentity) (process : ProfileProcessIdentity)
    (lifecycle : ProfileLifecycleRecord) :
    ProfileTask ProfileDisk (ProfileLifecycleRecord ⊕ ProfileLifecycleRecord) := do
  match ← ofExcept (nextLifecycleAction lifecycle .dead currentBoot) with
  | .beginStartup => do
    let lifecycle ← ofExcept (lifecycle.beginStartup process)
    writeLifecycle lifecycle
    return .inr lifecycle
  | .writeQuarantined => do
    let lifecycle ← ofExcept lifecycle.quarantine
    writeLifecycle lifecycle
    return .inl lifecycle
  | .restoreIdleAfterBoot => do
    let lifecycle ← ofExcept (lifecycle.restoreIdleAfterBoot currentBoot)
    writeLifecycle lifecycle
    return .inl lifecycle
  | .runWindowsExclusiveUdfRecovery => Task.throw .lifecycleUnproven

/-- What `begin_lifecycle` reads, or the record of a profile that has none. -/
def storedLifecycle (currentBoot : BootIdentity) :
    Option AnyLifecycleDocument → ProfileTask ProfileDisk ProfileLifecycleRecord
  | some document => ofExcept (fromBootScopedRecord document)
  | none => pure (.idle currentBoot)

def beginLifecycle (fuel : ℕ) (currentBoot : BootIdentity) (process : ProfileProcessIdentity) :
    ProfileTask ProfileDisk ProfileLifecycleRecord := do
  let disk ← Task.get
  let lifecycle ← storedLifecycle currentBoot disk.lifecycle
  Task.loop (beginLifecycleTurn currentBoot process) fuel lifecycle

def advanceLifecycle (lifecycle : ProfileLifecycleRecord) (next : ProfileLifecyclePhase) :
    ProfileTask ProfileDisk ProfileLifecycleRecord := do
  let lifecycle ← ofExcept (lifecycle.advance next)
  writeLifecycle lifecycle
  return lifecycle

/-- A session of one process, up to its clean end. -/
def session (fuel : ℕ) (currentBoot : BootIdentity) (process : ProfileProcessIdentity) :
    ProfileTask ProfileDisk Unit := do
  let lifecycle ← beginLifecycle fuel currentBoot process
  let lifecycle ← advanceLifecycle lifecycle .running
  let lifecycle ← advanceLifecycle lifecycle .stopping
  let _ ← advanceLifecycle lifecycle .idle
  return ()

end Keld.Profile
