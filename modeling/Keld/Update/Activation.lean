/-
# `Keld.Update.Activation` — the planner of the activation transaction

`activation.rs`: given the journal of an attempt and the protected slots as they
are on disk, which single durable step comes next.  Forward progress and crash
recovery ask the same function, `nextActivationStep`, so that a resumed attempt
can only take the step an uninterrupted owner would have taken.  Everything here
is pure; who holds the writer lease and what is written belongs to the
transaction.

The digest of a health receipt is a BLAKE3 hash; the hash is a parameter of the
whole development, and nothing is assumed of it.
-/
import Keld.Update.Records

namespace Keld.Update

/-- Independent result of the native process-family owner. -/
inductive ProcessFamilyObservation where
  | exited
  | notProvenDead
deriving DecidableEq, Repr

/-- Protected pointer and floor slots observed under the writer lease. -/
structure ProtectedSlots where
  versionFloor : String
  current : ArtifactIdentity
  lastKnownGood : ArtifactIdentity
  previousKnownGood : Option ArtifactIdentity
deriving DecidableEq, Repr

/-- Why recovery must stop without altering protected state. -/
inductive RecoveryRefusal where
  | processFamilyNotProven
  | floorMismatch
  | currentFloorMismatch
  | knownGoodMismatch
  | invalidJournalContext
  | candidateUnpublished
deriving DecidableEq, Repr

def RecoveryRefusal.name : RecoveryRefusal → String
  | .processFamilyNotProven => "ProcessFamilyNotProven"
  | .floorMismatch => "FloorMismatch"
  | .currentFloorMismatch => "CurrentFloorMismatch"
  | .knownGoodMismatch => "KnownGoodMismatch"
  | .invalidJournalContext => "InvalidJournalContext"
  | .candidateUnpublished => "CandidateUnpublished"

inductive RecoveryDecision where
  | resumePublishPending (advanceFloor : Bool)
  | resumeCandidateHealth
  | rollback (target : ArtifactIdentity)
  | finishCommit
  | finishRollback (target : ArtifactIdentity)
  | refuse (reason : RecoveryRefusal)
deriving DecidableEq, Repr

/-- The single next durable action of the transaction. -/
inductive ActivationStep where
  | publishCandidate
  | abandonAttempt
  | advanceFloor
  | selectCandidate
  | enterAwaitingHealth
  | awaitHealth
  | preservePriorKnownGood
  | commitCandidate
  | restoreRollbackTarget
  | retireVersion
  | removeJournal
deriving DecidableEq, Repr

/-- Where the candidate of a journal is. -/
inductive CandidateLocation where
  | published
  | staged
  | absent
deriving DecidableEq, Repr

/-- The version the journal authorizes to retire, once no slot refers to it. -/
def retirementDue (journal : ActivationJournal) (slots : ProtectedSlots) :
    Option ArtifactIdentity :=
  match journal.phase with
  | .healthAccepted _ =>
    if slots.lastKnownGood = journal.candidate ∧
        slots.previousKnownGood = some journal.priorLastKnownGood then
      journal.priorPreviousKnownGood
    else none
  | .rollbackPending _ =>
    if slots.current = journal.rollbackTarget then some journal.candidate else none
  | _ => none

section Planner

variable (blake3 : Digest → Digest → ArtifactIdentity → Digest)

def classifyProtectedRecoveryState (journal : ActivationJournal) (slots : ProtectedSlots) :
    RecoveryDecision :=
  match validateActivationJournal journal with
  | .error _ => .refuse .invalidJournalContext
  | .ok () =>
    let priorSlotsMatch :=
      slots.lastKnownGood = journal.priorLastKnownGood ∧
        slots.previousKnownGood = journal.priorPreviousKnownGood
    let candidateFloor := journal.candidate.version
    let rollbackTarget := journal.rollbackTarget
    match journal.phase with
    | .publishPending =>
      if ¬ priorSlotsMatch then .refuse .knownGoodMismatch
      else
        let floorIsPrior := slots.versionFloor = journal.priorFloor
        let floorIsCandidate := slots.versionFloor = candidateFloor
        if slots.current = rollbackTarget ∧ (floorIsPrior ∨ floorIsCandidate) then
          .resumePublishPending (decide floorIsPrior)
        else if slots.current = journal.candidate ∧ floorIsCandidate then
          .resumeCandidateHealth
        else if ¬ floorIsPrior ∧ ¬ floorIsCandidate then .refuse .floorMismatch
        else .refuse .currentFloorMismatch
    | .awaitingHealth =>
      if ¬ priorSlotsMatch then .refuse .knownGoodMismatch
      else if slots.versionFloor ≠ candidateFloor then .refuse .floorMismatch
      else if slots.current ≠ journal.candidate then .refuse .currentFloorMismatch
      else .rollback rollbackTarget
    | .healthAccepted healthReceiptDigest =>
      if activationHealthReceiptDigest blake3 journal.attemptId journal.healthChannelId
          journal.candidate ≠ .ok healthReceiptDigest then .refuse .invalidJournalContext
      else if slots.versionFloor ≠ candidateFloor then .refuse .floorMismatch
      else if slots.current ≠ journal.candidate then .refuse .currentFloorMismatch
      else
        let commitSlotsMatch :=
          (slots.lastKnownGood = journal.priorLastKnownGood ∧
            (slots.previousKnownGood = journal.priorPreviousKnownGood ∨
              slots.previousKnownGood = some journal.priorLastKnownGood)) ∨
          (slots.lastKnownGood = journal.candidate ∧
            slots.previousKnownGood = some journal.priorLastKnownGood)
        if commitSlotsMatch then .finishCommit else .refuse .knownGoodMismatch
    | .rollbackPending _ =>
      if slots.versionFloor ≠ candidateFloor then .refuse .floorMismatch
      else if ¬ priorSlotsMatch then .refuse .knownGoodMismatch
      else if slots.current = journal.candidate ∨ slots.current = rollbackTarget then
        .finishRollback rollbackTarget
      else .refuse .currentFloorMismatch

/-- The decision of recovery, gated on evidence that the old process family is gone. -/
def recoveryDecision (journal : ActivationJournal) (slots : ProtectedSlots)
    (processFamily : ProcessFamilyObservation) : RecoveryDecision :=
  if processFamily ≠ .exited then .refuse .processFamilyNotProven
  else classifyProtectedRecoveryState blake3 journal slots

def validateProtectedRecoveryState (journal : ActivationJournal) (slots : ProtectedSlots) :
    Except RecoveryRefusal Unit :=
  match classifyProtectedRecoveryState blake3 journal slots with
  | .refuse reason => .error reason
  | _ => .ok ()

/-- The tail of both resolutions: retire what is due and still there, then remove the journal. -/
def retireOrRemove (journal : ActivationJournal) (slots : ProtectedSlots) (retireePresent : Bool) :
    ActivationStep :=
  if (retirementDue journal slots).isSome && retireePresent then .retireVersion else .removeJournal

def nextActivationStep (journal : ActivationJournal) (slots : ProtectedSlots)
    (candidate : CandidateLocation) (retireePresent : Bool) :
    Except RecoveryRefusal ActivationStep :=
  match classifyProtectedRecoveryState blake3 journal slots with
  | .refuse reason => .error reason
  | .resumePublishPending true =>
    match candidate with
    | .published => .ok .advanceFloor
    | .staged => .ok .publishCandidate
    | .absent => .ok .abandonAttempt
  | .resumePublishPending false =>
    match candidate with
    | .published => .ok .selectCandidate
    | .staged | .absent => .error .candidateUnpublished
  | .resumeCandidateHealth => .ok .enterAwaitingHealth
  | .rollback _ => .ok .awaitHealth
  | .finishCommit =>
    if slots.lastKnownGood = journal.candidate then
      .ok (retireOrRemove journal slots retireePresent)
    else if slots.previousKnownGood = some journal.priorLastKnownGood then .ok .commitCandidate
    else .ok .preservePriorKnownGood
  | .finishRollback _ =>
    if slots.current = journal.candidate then .ok .restoreRollbackTarget
    else .ok (retireOrRemove journal slots retireePresent)

end Planner

end Keld.Update
