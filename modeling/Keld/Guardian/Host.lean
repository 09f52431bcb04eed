/-
# `Keld.Guardian.Host` — the host's generation worker

`runGenerationHost` reads the guardian's records one by one: it mints a lease for
PREPARE, retains the attested process group and permits the child's exec for SPAWNED,
revokes the lease for REVOKE and gives the group up for CLEAR.  Meanwhile other threads
arm or deny recovery, signal the current group, and shut the session down, under the
two locks that the worker also takes.  The worker is a `Task`; the records, the clock,
the process table and the sockets answer from the script.

Left out are the fences that only tests install.  A group is its leader's process id,
and every retained group has its native witness, since production code makes no other.
-/
import Keld.Guardian.Record
import Keld.Guardian.Recovery
import Keld.Lib.Task

namespace Keld.Guardian

open Keld.Runtime GenerationControlRecord

/-! ## State -/

/-- `RegisteredPrimaryGeneration`. -/
structure Registered where
  attempt : ℕ
  groupPid : ℕ
deriving DecidableEq, Repr

/-- `RoleGenerationLease`: its listener is taken when the child is spawned. -/
structure Lease where
  attempt : ℕ
  listening : Bool
deriving DecidableEq, Repr

/-- What happened, in order. -/
inductive HostEvent where
  /-- A whole record was read. -/
  | got (record : GenerationControlRecord)
  /-- A lease was minted. -/
  | provisioned (attempt : ℕ)
  /-- The attested group became the current one. -/
  | retained (attempt groupPid : ℕ)
  /-- A whole record was written. -/
  | wrote (record : GenerationControlRecord)
  /-- The recovery decision was told that the attempt is retired. -/
  | retired (attempt : ℕ)
  | revoked (attempt : ℕ)
  /-- The attempt's group was signalled, and proved gone or not. -/
  | terminated (attempt : ℕ) (ok : Bool)
  /-- The worker gave the group up. -/
  | released (attempt : ℕ)
  /-- The shutdown took the group from the worker. -/
  | taken (attempt : ℕ)
  /-- The peer closed, with so many bytes of a record. -/
  | closed (partialBytes : ℕ)
  | armed
  | denied
  | acknowledged
deriving DecidableEq, Repr

/-- `HostGenerationState`, and whether the first record is still awaited. -/
structure Worker where
  lease : Option Lease := none
  currentAttempt : Option ℕ := none
  revokedAttempt : Option ℕ := none
  pendingPrepare : Option GenerationControlRecord := none
  initialDecisionDeadline : Bool := false
  firstRecordPending : Bool := true
deriving DecidableEq, Repr

structure HostState where
  recovery : RecoveryState := {}
  current : Option Registered := none
  /-- A shutdown or an accepted quit has begun. -/
  stopping : Bool := false
  /-- The locks that the worker holds. -/
  recoveryLocked : Bool := false
  currentLocked : Bool := false
  worker : Worker := {}
  log : List HostEvent := []

def HostState.note (s : HostState) (e : HostEvent) : HostState := { s with log := s.log ++ [e] }

/-! ## The other threads -/

inductive HostAct where
  /-- `arm_recovery`. -/
  | arm
  /-- `deny_recovery`. -/
  | deny
  /-- `fail_current_generation`, and whether the signal proves the group gone. -/
  | failCurrent (attempt : ℕ) (ok : Bool)
  /-- The first part of `shutdown` and `accept_shutdown`: the denial. -/
  | stop
  /-- The guardian's acknowledgment of it was read. -/
  | acknowledge
  /-- `shutdown` gives up waiting: `fail_safe_current_group`. -/
  | failSafe (ok : Bool)
deriving DecidableEq, Repr

/-- One act of another thread; it does nothing while a lock that it needs is held, since the
thread waits for it. -/
def HostState.act (h : HostAct) (s : HostState) : HostState :=
  match h with
  | .arm =>
    if s.recoveryLocked then s else { s with recovery := s.recovery.arm }.note .armed
  | .deny =>
    if s.recoveryLocked then s else { s with recovery := s.recovery.deny }.note .denied
  | .failCurrent attempt ok =>
    if s.currentLocked then s
    else match s.current with
      | some generation =>
        if generation.attempt = attempt then s.note (.terminated attempt ok) else s
      | none => s
  | .stop =>
    if s.recoveryLocked then s
    else { s with recovery := s.recovery.deny, stopping := true }.note .denied
  | .acknowledge =>
    if s.recoveryLocked || !s.stopping then s
    else { s with recovery := { s.recovery with shutdownAcknowledged := true } }.note
      .acknowledged
  | .failSafe ok =>
    if s.currentLocked || !s.stopping then s
    else match s.current with
      | some generation =>
        ({ s with current := none }.note (.taken generation.attempt)).note
          (.terminated generation.attempt ok)
      | none => s

/-! ## Asking the outside -/

/-- What a poll of the control stream finds. -/
inductive ControlRead where
  | record (r : GenerationControlRecord)
  /-- Nothing whole in time, with so many bytes of a record. -/
  | quiet (filled : ℕ)
  /-- The peer closed, with so many bytes of a record. -/
  | closed (filled : ℕ)
  | failed (e : RuntimeError)

/-- An answer from outside the worker; each question looks at its own part. -/
structure Answer where
  /-- What a fallible call failed with. -/
  result : Option RuntimeError := none
  /-- Whether a deadline has passed. -/
  late : Bool := false
  read : ControlRead := .quiet 0

abbrev HostTask (α : Type) := Task HostState HostAct Answer RuntimeError α

def get : HostTask HostState := Task.get

def modify (f : HostState → HostState) : HostTask Unit := Task.modify f

def ask : HostTask Answer := Task.ask HostState.act

def throw {α : Type} (e : RuntimeError) : HostTask α := Task.throw e

def note (e : HostEvent) : HostTask Unit := modify (·.note e)

def setWorker (f : Worker → Worker) : HostTask Unit :=
  modify fun s => { s with worker := f s.worker }

/-- A point where a lock has to be free. -/
def goOn : HostTask Unit := do
  let _ ← ask
  return ()

/-- A fallible call. -/
def call : HostTask (Option RuntimeError) := do
  let answer ← ask
  return answer.result

/-- `call()?`. -/
def callOrFail : HostTask Unit := do
  match ← call with
  | none => pure ()
  | some e => throw e

/-- `Instant::now() >= deadline`. -/
def expired : HostTask Bool := do
  let answer ← ask
  return answer.late

/-- `GenerationControlReader::poll_until`. -/
def pollControl : HostTask ControlRead := do
  let answer ← ask
  return answer.read

/-! ## Errors -/

def invalidControlTransition (phase : String) (attempt expected : ℕ) : RuntimeError :=
  lifecycleError "macOS guardian generation host transition" .invalidData
    ("invalid " ++ phase ++ " transition for attempt " ++ toString attempt ++ "; expected " ++
      toString expected)

def rejectedRecovery : RuntimeError :=
  lifecycleError "macOS guardian generation host transition" .invalidData
    "successor preparation was rejected before initial Ready"

def refusedPostShutdownSpawn : RuntimeError :=
  lifecycleError "macOS guardian post-shutdown registration refusal" .permissionDenied
    "SPAWNED refused after host S; no CONTROL_REGISTERED permit was granted"

def initialGenerationRecordTimeout : RuntimeError :=
  lifecycleError "macOS guardian initial generation registration deadline" .timedOut
    "authenticated Guardian supplied no complete first KGC1 record before its original deadline"

def attemptsExhausted : RuntimeError :=
  lifecycleError "macOS guardian generation host transition" .other
    "supervisor attempt counter exhausted"

def unexpectedControlKind (kind : ℕ) : RuntimeError :=
  lifecycleError "macOS guardian generation host transition" .invalidData
    ("unexpected control kind " ++ toString kind)

def controlEof : RuntimeError :=
  lifecycleError "macOS guardian generation control read" .unexpectedEof
    "generation-control peer closed mid-session"

/-! ## The worker -/

def writeGenerationControl (record : GenerationControlRecord) : HostTask Unit := do
  callOrFail
  note (.wrote record)

def forwardGenerationUpdates : HostTask Unit := callOrFail

/-- `RoleGenerationLease::revoke`: authority is gone whatever it returns. -/
def revokeLease (lease : Lease) (_cause : RevocationCause) : HostTask Unit := do
  let result ← call
  note (.revoked lease.attempt)
  match result with
  | none => pure ()
  | some e => throw e

def childSpawned (lease : Lease) : HostTask Unit := do
  if !lease.listening then
    throw (lifecycleError "primary role bootstrap admission" .other
      "bootstrap listener already started")
  else
    setWorker fun w => { w with lease := some { lease with listening := false } }
    callOrFail

def terminateAttestedGroup (attempt : ℕ) : HostTask (Option RuntimeError) := do
  let result ← call
  note (.terminated attempt result.isNone)
  return result

/-- The wait for the acknowledgment at the end of `finish_generation_control_eof`. -/
def awaitAcknowledgment (primary : RuntimeError) (_ : Unit) : HostTask (Unit ⊕ Unit) := do
  goOn
  let s ← get
  if !s.recovery.denied then throw primary
  else if s.recovery.shutdownAcknowledged then return .inr ()
  else if ← expired then throw primary
  else return .inl ()

/-- The lease that the peer left behind is retired and revoked. -/
def revokeAbandoned (primary : RuntimeError) (w : Worker) : HostTask Unit := do
  match w.lease with
  | none => pure ()
  | some lease =>
    setWorker fun w => { w with lease := none }
    match w.currentAttempt with
    | none => throw primary
    | some attempt =>
      setWorker fun w => { w with currentAttempt := none }
      if w.revokedAttempt.isSome then throw primary
      else
        goOn
        modify fun s => { s with recovery := s.recovery.retire attempt }.note (.retired attempt)
        match ← Task.attempt (revokeLease lease .shutdown) with
        | .ok () => pure ()
        | .error cleanup => throw (collapseFailures [primary, cleanup])

def finishGenerationControlEof (fuel : ℕ) (primary : RuntimeError) (partialBytes : ℕ) :
    HostTask Unit := do
  note (.closed partialBytes)
  goOn
  let s ← get
  if partialBytes ≠ 0 ∨ s.current.isSome then throw primary
  else
    revokeAbandoned primary s.worker
    let s ← get
    if s.worker.currentAttempt.isSome ∨ s.worker.revokedAttempt.isSome then throw primary
    else Task.loop (awaitAcknowledgment primary) fuel ()

/-- What a turn of the loop says to do next: go on, or stop with success. -/
abbrev Turn := Unit ⊕ Unit

/-- The session ends as the end of the stream says, once the updates are out. -/
def endOfStream (fuel : ℕ) (primary : RuntimeError) (partialBytes : ℕ) : HostTask Turn := do
  let result ← Task.attempt (finishGenerationControlEof fuel primary partialBytes)
  forwardGenerationUpdates
  match result with
  | .ok () => return .inr ()
  | .error e => throw e

def onPrepare (record : GenerationControlRecord) (expectedAttempt : ℕ) : HostTask Unit := do
  goOn
  let s ← get
  let w := s.worker
  if record.attempt ≠ expectedAttempt ∨ w.currentAttempt.isSome ∨ w.lease.isSome ∨
      w.revokedAttempt.isSome ∨ s.current.isSome ∨ record.pid ≠ 0 ∨ record.cause ≠ 0 ∨
      record.payload ≠ [] then
    throw (invalidControlTransition "prepare" record.attempt expectedAttempt)
  else
    goOn
    let s ← get
    if record.attempt > 1 ∧ s.recovery.initialReady = false then
      setWorker fun w => { w with initialDecisionDeadline := true }
    setWorker fun w => { w with pendingPrepare := some record }

/-- The host takes custody of a child that it refuses before it signals the group. -/
def takeCustody (attempt pid : ℕ) : HostTask (Option RuntimeError) := do
  goOn
  modify fun s =>
    { s with current := some ⟨attempt, pid⟩, currentLocked := true }.note (.retained attempt pid)
  let nativeCleanup ← terminateAttestedGroup attempt
  if nativeCleanup.isNone then
    modify fun s => { s with current := none }.note (.released attempt)
  modify fun s => { s with currentLocked := false, recoveryLocked := false }
  return nativeCleanup

/-- A child that comes after the host's own denial. -/
def refuseSpawn (attempt pid : ℕ) : HostTask Unit := do
  let nativeCleanup ← takeCustody attempt pid
  let s ← get
  setWorker fun w => { w with lease := none }
  let leaseCleanup ← match s.worker.lease with
    | none => pure (.ok ())
    | some lease => Task.attempt (revokeLease lease .shutdown)
  match nativeCleanup, leaseCleanup with
  | some cleanup, .ok _ => throw cleanup
  | some cleanup, .error other => throw (collapseFailures [cleanup, other])
  | none, .error other => throw other
  | none, .ok _ => throw refusedPostShutdownSpawn

def onSpawned (record : GenerationControlRecord) (expectedAttempt : ℕ) : HostTask Unit := do
  let invalid := invalidControlTransition "spawned" record.attempt expectedAttempt
  goOn
  let s ← get
  if s.worker.currentAttempt ≠ some record.attempt ∨ record.pid = 0 ∨ record.cause ≠ 0 ∨
      record.payload ≠ [] ∨ s.current.isSome then
    throw invalid
  else
    -- the recovery lock is held until REGISTERED is out
    goOn
    modify fun s => { s with recoveryLocked := true }
    let s ← get
    if s.worker.lease.isNone then throw invalid
    else
      callOrFail -- validate_guardian_child_group
      if s.recovery.denied then refuseSpawn record.attempt record.pid
      else
        match s.worker.lease with
        | none => throw invalid
        | some lease => childSpawned lease
        goOn
        modify fun s =>
          { s with current := some ⟨record.attempt, record.pid⟩ }.note
            (.retained record.attempt record.pid)
        forwardGenerationUpdates
        writeGenerationControl ((new controlRegistered
          record.attempt).withPid record.pid)
        modify fun s => { s with recoveryLocked := false }

def onRevoke (record : GenerationControlRecord) (expectedAttempt : ℕ) : HostTask Unit := do
  let invalid := invalidControlTransition "revoke" record.attempt expectedAttempt
  let s ← get
  if s.worker.currentAttempt ≠ some record.attempt ∨ s.worker.revokedAttempt.isSome ∨
      record.pid ≠ 0 ∨ record.payload ≠ [] then
    throw invalid
  else
    match decodeRevocationCause record.cause with
    | .error e => throw e
    | .ok cause =>
      match s.worker.lease with
      | none => throw invalid
      | some lease =>
        setWorker fun w => { w with lease := none }
        goOn
        modify fun s =>
          { s with recovery := s.recovery.retire record.attempt }.note (.retired record.attempt)
        revokeLease lease cause
        setWorker fun w => { w with revokedAttempt := some record.attempt }
        forwardGenerationUpdates
        writeGenerationControl (.new controlRevoked record.attempt)

/-- The current group is given up only when it is proved gone. -/
def releaseGroup (current : Option Registered) : HostTask Unit := do
  match current with
  | none => pure ()
  | some generation =>
    match ← terminateAttestedGroup generation.attempt with
    | some e => throw e
    | none => modify fun s => { s with current := none }.note (.released generation.attempt)

def onClear (record : GenerationControlRecord) (expectedAttempt : ℕ) : HostTask Unit := do
  goOn
  modify fun s => { s with currentLocked := true }
  let s ← get
  let registered := match s.current with
    | some generation => generation.groupPid
    | none => 0
  if s.worker.currentAttempt ≠ some record.attempt ∨
      s.worker.revokedAttempt ≠ some record.attempt ∨ record.cause ≠ 0 ∨ record.payload ≠ [] ∨
      record.pid ≠ registered then
    throw (invalidControlTransition "clear" record.attempt expectedAttempt)
  else
    releaseGroup s.current
    modify fun s => { s with currentLocked := false }
    writeGenerationControl ((new controlCleared record.attempt).withPid
      record.pid)
    setWorker fun w => { w with currentAttempt := none, revokedAttempt := none }
    goOn
    let s ← get
    match s.recovery.cleared record.attempt with
    | none => throw attemptsExhausted
    | some recovery => modify fun s => { s with recovery := recovery }

def checkInitialRecoveryDecision (s : HostState) : HostTask Unit := do
  if s.recovery.initialReady ∨ s.worker.initialDecisionDeadline = false then pure ()
  else if s.recovery.denied then throw rejectedRecovery
  else if ← expired then
    throw (lifecycleError "macOS guardian generation host transition" .timedOut
      "initial Ready did not decide recovery before the deadline")
  else pure ()

/-- The pending PREPARE, provisioned once recovery permits it. -/
def provisionPending (fuel : ℕ) (pending : GenerationControlRecord) (appLink : ℕ → List UInt8) :
    HostTask Turn := do
  goOn
  modify fun s => { s with recoveryLocked := true }
  let s ← get
  checkInitialRecoveryDecision s
  if pending.attempt = 1 ∧ s.recovery.denied = true then throw rejectedRecovery
  else if s.recovery.permits pending.attempt = false then
    modify fun s => { s with recoveryLocked := false }
    return .inl ()
  else
    modify fun s => { s with recovery := { s.recovery with releaseAttempt := none } }
    callOrFail -- owner.provision
    note (.provisioned pending.attempt)
    modify fun s => { s with recoveryLocked := false }
    let response := (new controlPrepared pending.attempt).withPayload
      (appLink pending.attempt)
    setWorker fun w =>
      { w with
        currentAttempt := some pending.attempt
        lease := some ⟨pending.attempt, true⟩
        pendingPrepare := none
        initialDecisionDeadline := false }
    forwardGenerationUpdates
    match ← Task.attempt (writeGenerationControl response) with
    | .ok () => return .inl ()
    | .error e =>
      if runtimeIoKind e = some .brokenPipe ∨ runtimeIoKind e = some .connectionReset then
        endOfStream fuel e 0
      else throw e

def onRecord (record : GenerationControlRecord) (expectedAttempt : ℕ) : HostTask Unit := do
  let s ← get
  if s.worker.pendingPrepare.isSome then
    throw (invalidControlTransition "pending prepare" record.attempt expectedAttempt)
  else if record.kind = controlPrepare then onPrepare record expectedAttempt
  else if record.kind = controlSpawned then onSpawned record expectedAttempt
  else if record.kind = controlRevoke then onRevoke record expectedAttempt
  else if record.kind = controlClear then onClear record expectedAttempt
  else throw (unexpectedControlKind record.kind)

/-- The deadline of the first record, while it is awaited. -/
def checkFirstRecord (firstRecordPending : Bool) : HostTask Unit := do
  if firstRecordPending then
    if ← expired then throw initialGenerationRecordTimeout

/-- `RoleGenerationLease::poll`, where there is a lease. -/
def pollLease (lease : Option Lease) : HostTask Unit := do
  if lease.isSome then callOrFail

/-- One turn of the worker's loop; `appLink` is what the lease of an attempt is bound to. -/
def hostTurn (fuel : ℕ) (appLink : ℕ → List UInt8) (_ : Unit) : HostTask Turn := do
  let s ← get
  pollLease s.worker.lease
  forwardGenerationUpdates
  checkFirstRecord s.worker.firstRecordPending
  match ← pollControl with
  | .closed filled => endOfStream fuel controlEof filled
  | .failed e => throw e
  | .quiet filled =>
    checkFirstRecord s.worker.firstRecordPending
    if filled ≠ 0 then return .inl ()
    else
      match s.worker.pendingPrepare with
      | none => return .inl ()
      | some pending => provisionPending fuel pending appLink
  | .record record =>
    note (.got record)
    checkFirstRecord s.worker.firstRecordPending
    setWorker fun w => { w with firstRecordPending := false }
    goOn
    let s ← get
    onRecord record s.recovery.expectedAttempt
    let s ← get
    match s.worker.pendingPrepare with
    | none => return .inl ()
    | some pending => provisionPending fuel pending appLink

/-- The worker, for as many turns as there is fuel. -/
def runGenerationHost (appLink : ℕ → List UInt8) (fuel : ℕ) : HostTask Unit :=
  Task.loop (hostTurn fuel appLink) fuel ()

end Keld.Guardian
