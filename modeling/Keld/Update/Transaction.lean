/-
# `Keld.Update.Transaction` — the one writer of journal, floor, pointers and versions

`activate.rs`: a `Transaction` holds the writer lease, a copy of the journal and the
slots, the versions it keeps open and the stage of an unpublished candidate.  `advance`
asks the planner for the next step and makes it durable, until the health decision or
the removal of the journal; the writes outside that loop record an external fact.

`written` lists every durable step so far, and an operation returns the transaction
also when it fails.  A failed system call is not modelled as such: it ends the
operation between two writes, as a crash does.

A directory with an open handle in its tree cannot be renamed, so a pinned version
cannot be retired.
-/
import Keld.Update.Store

namespace Keld.Update

/-- How a resolved attempt ended. -/
inductive WindowsActivationOutcome where
  | committed
  | rolledBack
  | abandoned
deriving DecidableEq, Repr

/-- A resolved attempt: the journal is removed. -/
structure WindowsActivationResolution where
  outcome : WindowsActivationOutcome
  current : ArtifactIdentity
deriving DecidableEq, Repr

inductive Progress where
  | awaitingHealth
  | resolved (resolution : WindowsActivationResolution)
deriving DecidableEq, Repr

structure Transaction where
  disk : Store
  journal : ActivationJournal
  versionFloor : String
  current : ArtifactIdentity
  lastKnownGood : ArtifactIdentity
  previousKnownGood : Option ArtifactIdentity
  /-- The versions whose trees are held open. -/
  pins : List String
  stage : Option String
  journaled : Bool
  written : List Write

def maxStepsPerRun : ℕ := 8

def refusalDetail (cause : UpdateError) : String :=
  cause.stepAndDetail.1 ++ ": " ++ cause.stepAndDetail.2

/-- An operation's result: the transaction, also when it failed, and its value. -/
abbrev Result (α : Type) : Type := Transaction × Except UpdateError α

/-- Continues an operation that succeeded. -/
def Result.andThen {α β : Type} (r : Result α) (next : Transaction → α → Result β) : Result β :=
  match r with
  | (t, .error cause) => (t, .error cause)
  | (t, .ok a) => next t a

namespace Transaction

def slots (t : Transaction) : ProtectedSlots where
  versionFloor := t.versionFloor
  current := t.current
  lastKnownGood := t.lastKnownGood
  previousKnownGood := t.previousKnownGood

def slotArtifacts (t : Transaction) : List ArtifactIdentity :=
  [t.current, t.lastKnownGood] ++ t.previousKnownGood.toList

/-- A refusal whose effect follows from whether the journal exists. -/
def fault (t : Transaction) (step detail : String) : UpdateError :=
  .activation step
    (if t.journaled then .journalBoundRecoveryRequired else .protectedStateUnchanged) detail

/-- A lower-level refusal under this transaction's effect. -/
def refault (t : Transaction) (cause : UpdateError) : UpdateError :=
  t.fault cause.stepAndDetail.1 cause.stepAndDetail.2

/-- A refusal before this call's first journal record. -/
def beforeRecord (t : Transaction) (cause : UpdateError) : UpdateError :=
  if t.journaled then t.refault cause else t.fault "start" (refusalDetail cause)

/-- Makes one step durable. -/
def put (t : Transaction) (w : Write) : Transaction :=
  { t with disk := t.disk.apply w, written := t.written ++ [w] }

def writeJournal (t : Transaction) (journal : ActivationJournal) : Result Unit :=
  match encodeActivationJournal journal with
  | .error cause => (t, .error (t.refault cause))
  | .ok () => ({ t.put (.journal journal) with journal }, .ok ())

def writePhase (t : Transaction) (phase : ActivationPhase) : Result Unit :=
  t.writeJournal { t.journal with phase }

def writePointer (t : Transaction) (kind : PointerKind) (artifact : ArtifactIdentity) :
    Result Unit :=
  match encodePointer kind artifact with
  | .error cause => (t, .error (t.refault cause))
  | .ok () => (t.put (.pointer kind artifact), .ok ())

/-- Renames one unreferenced version to a name that is never selected. -/
def retire (t : Transaction) (retiree : ArtifactIdentity) : Result Unit :=
  if t.slotArtifacts.any (fun artifact => artifact.version == retiree.version) then
    (t, .error (t.fault "version retirement" "a pointer still references the retiring version"))
  else
    -- this owner's own handles are released first
    let t' := { t with pins := t.pins.filter (fun pin => pin != retiree.version) }
    if !t'.disk.versionPresent retiree.version then
      (t', .error (t'.fault "version retirement" "retiring version is absent"))
    else if t'.pins.any (fun pin => foldName pin == foldName retiree.version) then
      (t', .error (t'.fault "version retirement" ""))
    else (t'.put (.retire retiree.version), .ok ())

def candidateLocation (t : Transaction) : CandidateLocation :=
  if t.disk.versionPresent t.journal.candidate.version then .published
  else if t.stage.isSome then .staged
  else .absent

/-- Renames the completed stage to the candidate's version name, which must be free. -/
def publishCandidate (t : Transaction) : Result Unit :=
  match t.stage with
  | none => (t, .error (t.fault "candidate publication" "no completed stage is known"))
  | some stage =>
    if t.disk.versionPresent t.journal.candidate.version || (t.disk.stages.get? stage).isNone then
      (t, .error (t.fault "candidate publication" ""))
    else
      ({ t.put (.publish stage t.journal.candidate.version) with stage := none }, .ok ())

/-- The completed stages, which no later operation refers to. -/
def leftoverStages (t : Transaction) : List String :=
  (t.disk.stages.toList.filter (fun stage => stage.2.complete.isSome)).map Prod.fst

/-- Removes the journal, then the leftovers of the attempt. -/
def removeJournalAs (t : Transaction) (outcome : WindowsActivationOutcome) :
    Transaction × WindowsActivationResolution :=
  let t' := { t.put .removeJournal with journaled := false }
  (t'.leftoverStages.foldl (fun t stage => t.put (.removeStage stage)) t',
    ⟨outcome, t.current⟩)

def removeJournal (t : Transaction) : Result WindowsActivationResolution :=
  match t.journal.phase with
  | .healthAccepted _ => (t.removeJournalAs .committed).map id .ok
  | .rollbackPending _ => (t.removeJournalAs .rolledBack).map id .ok
  | .publishPending | .awaitingHealth =>
    (t, .error (t.fault "journal removal" "an unresolved phase cannot remove its journal"))

/-- The loop of `ensure_candidate_pinned`: each pass renames one stage away, so as many passes as
there are stages are enough. -/
def pinPublished (candidate : ArtifactIdentity) (referenced : List ArtifactIdentity) :
    ℕ → Transaction → Result Unit
  | 0, t => (t, .error (t.fault "candidate verification" ""))
  | n + 1, t =>
    match t.disk.validatePublicationCensus referenced candidate with
    | .error cause => (t, .error (t.refault cause))
    | .ok () =>
      match t.disk.verifyPublishedVersion candidate with
      | .ok () => ({ t with pins := t.pins ++ [candidate.version] }, .ok ())
      | .error cause =>
        match t.retire candidate with
        | (t', .error retirement) =>
          (t', .error (t'.fault retirement.stepAndDetail.1 (retirement.stepAndDetail.2 ++
            "; the candidate had failed verification: " ++ refusalDetail cause)))
        | (t', .ok ()) =>
          let t' := { t' with stage := t'.disk.findCandidateStage candidate }
          if t'.stage.isSome then
            Result.andThen t'.publishCandidate fun t'' _ => pinPublished candidate referenced n t''
          else
            ((t'.removeJournalAs .abandoned).1,
              .error (.activation "candidate verification" .protectedStateUnchanged
                ("the published candidate failed verification and was retired: " ++
                  refusalDetail cause)))

/-- Fully re-verifies and pins the published candidate. -/
def ensureCandidatePinned (t : Transaction) : Result Unit :=
  if t.pins.contains t.journal.candidate.version then (t, .ok ())
  else pinPublished t.journal.candidate t.slotArtifacts (t.disk.stages.length + 1) t

/-- The floor never names a candidate that has not been fully verified. -/
def advanceFloor (t : Transaction) : Result Unit :=
  Result.andThen t.ensureCandidatePinned fun t _ =>
    match encodeFloor t.journal.candidate.version with
    | .error cause => (t, .error (t.refault cause))
    | .ok () =>
      ({ t.put (.floor t.journal.candidate.version) with
          versionFloor := t.journal.candidate.version }, .ok ())

def selectCurrent (t : Transaction) (artifact : ArtifactIdentity) : Result Unit :=
  Result.andThen (t.writePointer .current artifact) fun t _ =>
    ({ t with current := artifact }, .ok ())

def preservePriorKnownGood (t : Transaction) : Result Unit :=
  Result.andThen (t.writePointer .previousKnownGood t.journal.priorLastKnownGood) fun t _ =>
    ({ t with previousKnownGood := some t.journal.priorLastKnownGood }, .ok ())

def commitCandidate (t : Transaction) : Result Unit :=
  Result.andThen (t.writePointer .lastKnownGood t.journal.candidate) fun t _ =>
    ({ t with lastKnownGood := t.journal.candidate }, .ok ())

section Advance

variable (blake3 : Digest → Digest → ArtifactIdentity → Digest)

/-- Makes one planned step durable. -/
def perform (t : Transaction) (retiree : Option ArtifactIdentity) : ActivationStep → Result Unit
  | .publishCandidate => t.publishCandidate
  | .advanceFloor => t.advanceFloor
  | .selectCandidate => t.selectCurrent t.journal.candidate
  | .enterAwaitingHealth => t.writePhase .awaitingHealth
  | .preservePriorKnownGood => t.preservePriorKnownGood
  | .commitCandidate => t.commitCandidate
  | .restoreRollbackTarget => t.selectCurrent t.journal.rollbackTarget
  | .retireVersion =>
    match retiree with
    | some retiree => t.retire retiree
    | none => (t, .error (t.fault "version retirement" "no journal-authorized retiree"))
  | .awaitHealth | .removeJournal | .abandonAttempt => (t, .ok ())

/-- The planner's answer for the state the transaction is in. -/
def plannedStep (t : Transaction) : Except RecoveryRefusal ActivationStep :=
  nextActivationStep blake3 t.journal t.slots t.candidateLocation
    (match retirementDue t.journal t.slots with
      | some retiree => t.disk.versionPresent retiree.version
      | none => false)

/-- The loop of `advance`, with the steps it may still take. -/
def advanceWithin : ℕ → Transaction → Result Progress
  | 0, t => (t, .error (t.fault "state" "transaction exceeded its bounded step count"))
  | n + 1, t =>
    match t.plannedStep blake3 with
    | .error refusal =>
      (t, .error (t.fault "state"
        ("journal and protected slots disagree: " ++ refusal.name)))
    | .ok .awaitHealth => (t, .ok .awaitingHealth)
    | .ok .removeJournal =>
      Result.andThen t.removeJournal fun t resolution => (t, .ok (.resolved resolution))
    | .ok .abandonAttempt =>
      (t.removeJournalAs .abandoned).map id (fun resolution => .ok (.resolved resolution))
    | .ok step =>
      Result.andThen (t.perform (retirementDue t.journal t.slots) step) fun t _ =>
        advanceWithin n t

/-- Applies durable steps until the health decision or journal removal. -/
def advance (t : Transaction) : Result Progress := advanceWithin blake3 maxStepsPerRun t

def runToResolution (t : Transaction) : Result WindowsActivationResolution :=
  Result.andThen (t.advance blake3) fun t progress =>
    match progress with
    | .resolved resolution => (t, .ok resolution)
    | .awaitingHealth =>
      (t, .error (t.fault "resolution"
        "a resolving journal phase returned to the health decision"))

end Advance

end Transaction

/-! ## The owner of an attempt -/

/-- A health result bound to one attempt, its channel and its candidate. -/
structure ActivationHealthReceipt where
  attemptId : Digest
  healthChannelId : Digest
  candidate : ArtifactIdentity
deriving DecidableEq, Repr

/-- The attempt an observed process-family retirement belongs to. -/
structure ProcessFamilyRetirement where
  installation : Digest
  attempt : Digest
  lifecycleChannel : Digest
deriving DecidableEq, Repr

/-- Three fresh identities; the mint refuses equal or zero ones. -/
structure MintedIdentities where
  attempt : Digest
  health : Digest
  lifecycle : Digest
deriving DecidableEq, Repr

def MintedIdentities.distinct (ids : MintedIdentities) : Bool :=
  ids.attempt != ids.health && ids.attempt != ids.lifecycle && ids.health != ids.lifecycle &&
    ids.attempt != 0 && ids.health != 0 && ids.lifecycle != 0

def mintIdentities (ids : MintedIdentities) : Except UpdateError MintedIdentities :=
  if ids.distinct then .ok ids
  else .error (.baseline "attempt identity"
    "minted attempt, health and lifecycle identities are not distinct")

namespace Transaction

section Owner

variable (blake3 : Digest → Digest → ArtifactIdentity → Digest)

def requireRetirementBinding (t : Transaction) (retirement : ProcessFamilyRetirement)
    (installationId : Digest) : Except UpdateError Unit :=
  require (retirement.installation == installationId && retirement.attempt == t.journal.attemptId &&
      retirement.lifecycleChannel == t.journal.lifecycleChannelId)
    (t.fault "process-family retirement binding"
      "the retirement binding does not name this installation, attempt and lifecycle channel")

/-- The digest of the one receipt that a live attempt accepts. -/
def healthReceiptDigest (t : Transaction) : Except UpdateError Digest :=
  match activationHealthReceiptDigest blake3 t.journal.attemptId t.journal.healthChannelId
      t.journal.candidate with
  | .error cause => .error (t.refault cause)
  | .ok digest => .ok digest

/-- The first health step: records the exact receipt. -/
def acceptHealth (t : Transaction) (digest : Digest) (receipt : ActivationHealthReceipt) :
    Result Unit :=
  if receipt.attemptId ≠ t.journal.attemptId ∨ receipt.healthChannelId ≠ t.journal.healthChannelId ∨
      receipt.candidate ≠ t.journal.candidate then
    (t, .error (t.fault "health receipt binding"
      "receipt does not name this exact attempt, health channel and candidate"))
  else t.writePhase (.healthAccepted digest)

/-- Records the failure and restores the rollback target. -/
def rollBack (t : Transaction) (failure : ActivationFailureClass)
    (retirement : ProcessFamilyRetirement) (installationId : Digest) :
    Result WindowsActivationResolution :=
  match t.requireRetirementBinding retirement installationId with
  | .error cause => (t, .error cause)
  | .ok () =>
    Result.andThen (t.writePhase (.rollbackPending failure)) fun t _ => t.runToResolution blake3

/-- The journal that an owner writes first: its own facts, and fresh channels when it resumes. -/
def ownedJournal (t : Transaction) (ownership : AttemptOwnership)
    (reminted : Option MintedIdentities) : ActivationJournal :=
  match reminted with
  | some channels =>
    { t.journal with
        ownership := some ownership
        healthChannelId := channels.health
        lifecycleChannelId := channels.lifecycle }
  | none => { t.journal with ownership := some ownership }

/-- Continues to the health decision, before which a fresh attempt is not resolved. -/
def settleStart (t : Transaction) (reminted : Option MintedIdentities) : Result Progress :=
  Result.andThen (t.advance blake3) fun t progress =>
    match progress, reminted with
    | .resolved _, none => (t, .error (t.fault "start" "a fresh attempt resolved before health"))
    | progress, _ => (t, .ok progress)

/-- `WindowsMintedAttempt::journal`: writes the first record that reveals the identities. -/
def recordOwner (t : Transaction) (ownership : AttemptOwnership)
    (reminted : Option MintedIdentities) : Result Progress :=
  let journal := t.ownedJournal ownership reminted
  match encodeActivationJournal journal with
  | .error cause => (t, .error (t.beforeRecord cause))
  | .ok () =>
    settleStart blake3 { t.put (.journal journal) with journal, journaled := true } reminted

/-- Fresh channels for a never-launched attempt; nothing is written. -/
def remint (t : Transaction) (ids : MintedIdentities) : Except UpdateError MintedIdentities :=
  match mintIdentities ids with
  | .error cause => .error (t.refault cause)
  | .ok ids =>
    if ids.health = t.journal.attemptId ∨ ids.lifecycle = t.journal.attemptId then
      .error (t.fault "attempt identity"
        "re-minted channels collide with the attempt identity")
    else .ok ids

end Owner

end Transaction

/-- How the owner of a launched candidate resolves its health. -/
inductive Verdict where
  | accept
  | rollBack (failure : ActivationFailureClass)
deriving DecidableEq, Repr

/-- What an owner brings: its image, its process and logon, the identities it mints, and how it
will find the candidate's health. -/
structure Owner where
  installationId : Digest
  imageBlake3 : Digest
  ownership : AttemptOwnership
  minted : MintedIdentities
  verdict : Verdict
deriving DecidableEq, Repr

namespace Owner

section Runs

variable (blake3 : Digest → Digest → ArtifactIdentity → Digest) (o : Owner)

/-- The receipt for exactly the attempt of `t`. -/
def exactReceipt (t : Transaction) : ActivationHealthReceipt where
  attemptId := t.journal.attemptId
  healthChannelId := t.journal.healthChannelId
  candidate := t.journal.candidate

/-- The retirement of exactly the attempt of `t`. -/
def exactRetirement (t : Transaction) : ProcessFamilyRetirement where
  installation := o.installationId
  attempt := t.journal.attemptId
  lifecycleChannel := t.journal.lifecycleChannelId

/-- A live attempt at its health decision, resolved by its owner. -/
def resolveHealth (t : Transaction) : Result WindowsActivationResolution :=
  match t.healthReceiptDigest blake3 with
  | .error cause => (t, .error cause)
  | .ok digest =>
    match o.verdict with
    | .accept =>
      Result.andThen (t.acceptHealth digest (exactReceipt t)) fun t _ => t.runToResolution blake3
    | .rollBack failure =>
      t.rollBack blake3 failure (o.exactRetirement t) o.installationId

/-- Resolves health, if the attempt got there. -/
def finish (t : Transaction) : Progress → Result WindowsActivationResolution
  | .awaitingHealth => o.resolveHealth blake3 t
  | .resolved resolution => (t, .ok resolution)

/-- An owner whose first record is written. -/
def proceed (t : Transaction) (reminted : Option MintedIdentities) :
    Result WindowsActivationResolution :=
  Result.andThen (t.settleStart blake3 reminted) (o.finish blake3)

/-- An owner that has minted its identities. -/
def continueAttempt (t : Transaction) (reminted : Option MintedIdentities) :
    Result WindowsActivationResolution :=
  Result.andThen (t.recordOwner blake3 o.ownership reminted) (o.finish blake3)

/-! ### A fresh attempt -/

/-- The transaction of a fresh attempt, whose journal is not written yet. -/
def startTransaction (s : Store) (snapshot : WriteSnapshot) (stage : String)
    (journal : ActivationJournal) : Transaction where
  disk := s
  journal
  versionFloor := snapshot.slots.versionFloor
  current := snapshot.slots.current
  lastKnownGood := snapshot.slots.lastKnownGood
  previousKnownGood := snapshot.slots.previousKnownGood
  pins := snapshot.versionPins
  stage := some stage
  journaled := false
  written := []

/-- The journal of a fresh attempt. -/
def freshJournal (ids : MintedIdentities) (snapshot : WriteSnapshot)
    (candidate : ArtifactIdentity) : ActivationJournal where
  attemptId := ids.attempt
  candidate
  rollbackTarget := snapshot.slots.current
  priorFloor := snapshot.slots.versionFloor
  priorLastKnownGood := snapshot.slots.lastKnownGood
  priorPreviousKnownGood := snapshot.slots.previousKnownGood
  helperImageBlake3 := o.imageBlake3
  healthChannelId := ids.health
  lifecycleChannelId := ids.lifecycle
  ownership := none
  phase := .publishPending

def beginActivation (baseline : ArtifactIdentity) (s : Store) (snapshot : WriteSnapshot)
    (stage : String) (candidate : ArtifactIdentity) : Except UpdateError Transaction :=
  let preflight : Except UpdateError ActivationJournal := do
    discard (validateArtifactScopeAndBaseline baseline candidate)
    require (!snapshot.versionPins.contains candidate.version)
      (.activation "candidate version" .protectedStateUnchanged
        "candidate collides with a referenced known-good version")
    require (s.completedStageIdentity stage == some candidate)
      (.activation "candidate stage" .protectedStateUnchanged
        "the completed stage records a different candidate")
    let ids ← mintIdentities o.minted
    let journal := o.freshJournal ids snapshot candidate
    validateActivationJournal journal
    pure journal
  match preflight with
  | .error cause => .error (.activation "start" .protectedStateUnchanged (refusalDetail cause))
  | .ok journal => .ok (startTransaction s snapshot stage journal)

/-- What an owner writes who starts an attempt and is not interrupted. -/
def attempt (baseline : ArtifactIdentity) (s : Store) (stage : String)
    (candidate : ArtifactIdentity) : List Write :=
  match loadActivationWriteSnapshot baseline s with
  | .error _ => []
  | .ok snapshot =>
    match o.beginActivation baseline s snapshot stage candidate with
    | .error _ => []
    | .ok t => (o.continueAttempt blake3 t none).1.written

/-! ### Recovery -/

/-- The inspected journal as a transaction. -/
def intoTransaction (s : Store) (inspection : RecoveryInspection) : Transaction where
  disk := s
  journal := inspection.journal
  versionFloor := inspection.slots.versionFloor
  current := inspection.slots.current
  lastKnownGood := inspection.slots.lastKnownGood
  previousKnownGood := inspection.slots.previousKnownGood
  pins := inspection.versionPins
  stage := inspection.candidateStage
  journaled := true
  written := []

/-- Continues an inspected journal.  A publish-pending attempt gets fresh channels and is driven
to its health decision; one that awaits health is rolled back, since its owner was lost; the
other two phases finish what they record. -/
def recoverTransaction (t : Transaction) : Result WindowsActivationResolution :=
  if o.imageBlake3 ≠ t.journal.helperImageBlake3 then
    (t, .error (t.fault "coordinator identity"
      "recovering coordinator image differs from the journaled coordinator"))
  else
    match t.requireRetirementBinding (o.exactRetirement t) o.installationId with
    | .error cause => (t, .error cause)
    | .ok () =>
      match t.journal.phase with
      | .publishPending =>
        match t.remint o.minted with
        | .error cause => (t, .error cause)
        | .ok channels => o.continueAttempt blake3 t (some channels)
      | .awaitingHealth =>
        Result.andThen (t.writePhase (.rollbackPending .processCrash)) fun t _ =>
          t.runToResolution blake3
      | .healthAccepted _ | .rollbackPending _ => t.runToResolution blake3

/-- The recovery of a pending journal, once the inspection admitted the store. -/
def recoverInspected (s : Store) (journal : ActivationJournal) :
    Result WindowsActivationResolution :=
  o.recoverTransaction blake3 (intoTransaction s (s.inspect journal))

/-- What an owner writes who recovers the store and is not interrupted. -/
def recover (baseline : ArtifactIdentity) (s : Store) : List Write :=
  match loadRecoveryInspection blake3 baseline s with
  | .error _ => []
  | .ok inspection => (o.recoverTransaction blake3 (intoTransaction s inspection)).1.written

end Runs

end Owner

end Keld.Update
