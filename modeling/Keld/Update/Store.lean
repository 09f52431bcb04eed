/-
# `Keld.Update.Store` — the protected store of an installation and its loaders

What survives a crash: the version floor, the three pointers, the activation journal,
the published version trees and the completed stages.  A durable step replaces one
record or renames one directory (`Write`, `apply`), so a crash leaves the store after a
beginning of a list of writes.

The `versions` directory resolves names as NTFS does, without regard to ASCII case,
while the loaders compare version texts exactly.  A tree is seen through its completion
record and through whether its contents still match that record.

The loaders (`load.rs`) read the store under the writer lease, write nothing, and
refuse what they cannot account for.
-/
import Keld.Lib.OrdMap
import Keld.Update.Activation

namespace Keld.Update

open SemVer (Version)

/-! ## Directories -/

/-- The name a directory is found under. -/
def foldName (name : String) : String := String.ofList (name.toList.map Char.toLower)

/-- A version tree or a stage: its completion record, and whether archive and tree match it. -/
structure Tree where
  complete : Option ArtifactIdentity
  intact : Bool
deriving DecidableEq, Repr

/-- An entry of the `versions` directory, with the name it was given. -/
structure VersionDir where
  name : String
  tree : Tree
deriving DecidableEq, Repr

/-! ## The store and its durable steps -/

structure Store where
  versionFloor : String
  current : ArtifactIdentity
  lastKnownGood : ArtifactIdentity
  previousKnownGood : Option ArtifactIdentity
  journal : Option ActivationJournal
  /-- The published versions, by folded name. -/
  versions : OrdMap String VersionDir
  /-- The generated `incomplete-*` stages, by name. -/
  stages : OrdMap String Tree

/-- One durable step. -/
inductive Write where
  | floor (version : String)
  | pointer (kind : PointerKind) (artifact : ArtifactIdentity)
  | journal (journal : ActivationJournal)
  | removeJournal
  | publish (stage version : String)
  | retire (version : String)
  | removeStage (stage : String)
deriving DecidableEq, Repr

namespace Store

def slots (s : Store) : ProtectedSlots where
  versionFloor := s.versionFloor
  current := s.current
  lastKnownGood := s.lastKnownGood
  previousKnownGood := s.previousKnownGood

/-- The artifacts the protected slots name. -/
def slotArtifacts (s : Store) : List ArtifactIdentity :=
  [s.current, s.lastKnownGood] ++ s.previousKnownGood.toList

def setPointer (s : Store) (artifact : ArtifactIdentity) : PointerKind → Store
  | .current => { s with current := artifact }
  | .lastKnownGood => { s with lastKnownGood := artifact }
  | .previousKnownGood => { s with previousKnownGood := some artifact }

def apply (s : Store) : Write → Store
  | .floor version => { s with versionFloor := version }
  | .pointer kind artifact => s.setPointer artifact kind
  | .journal journal => { s with journal := some journal }
  | .removeJournal => { s with journal := none }
  | .publish stage version =>
    match s.stages.get? stage with
    | none => s
    | some tree =>
      { s with
          versions := s.versions.insert (foldName version) ⟨version, tree⟩
          stages := s.stages.erase stage }
  | .retire version => { s with versions := s.versions.erase (foldName version) }
  | .removeStage stage => { s with stages := s.stages.erase stage }

def find? (s : Store) (version : String) : Option VersionDir := s.versions.get? (foldName version)

def versionPresent (s : Store) (version : String) : Bool := (s.find? version).isSome

/-- The completed stage of lowest name that records exactly `candidate`. -/
def findCandidateStage (s : Store) (candidate : ArtifactIdentity) : Option String :=
  (s.stages.find? (fun tree => tree.complete == some candidate)).map Prod.fst

/-- The identity that a stage's completion record names. -/
def completedStageIdentity (s : Store) (stage : String) : Option ArtifactIdentity :=
  (s.stages.get? stage).bind Tree.complete

/-- Re-verifies the tree published under the version name of `candidate`. -/
def verifyPublishedVersion (s : Store) (candidate : ArtifactIdentity) : Except UpdateError Unit := do
  let dir ← orElseError (s.find? candidate.version) (.baseline "protected directory open" "")
  require (dir.tree.complete == some candidate)
    (.baseline "completion marker" "artifact differs from the expected selected record")
  require dir.tree.intact (.baseline "version contents" "")

/-- Only the selected versions, and the retiree, may be there. -/
def validateActivationVersionCensus (s : Store) (selected : List ArtifactIdentity)
    (retiree : Option ArtifactIdentity) : Except UpdateError Unit :=
  s.versions.values.forM fun dir =>
    require ((selected ++ retiree.toList).any (fun artifact => artifact.version == dir.name))
      (.baseline "activation versions" "unreferenced version entry requires recovery")

def validatePublicationCensus (s : Store) (pinned : List ArtifactIdentity)
    (candidate : ArtifactIdentity) : Except UpdateError Unit :=
  s.validateActivationVersionCensus (pinned ++ [candidate]) none

/-- Re-verifies every selected version and holds it open, under its version name. -/
def pinSelectedVersions (s : Store) (selected : List ArtifactIdentity)
    (retiree : Option ArtifactIdentity) : Except UpdateError (List String) := do
  s.validateActivationVersionCensus selected retiree
  selected.forM s.verifyPublishedVersion
  pure (selected.map ArtifactIdentity.version)

end Store

/-! ## Admission of pointers against the installed baseline -/

def validateArtifactScopeAndBaseline (baseline selected : ArtifactIdentity) :
    Except UpdateError Version := do
  require (selected.appId == baseline.appId && selected.channel == baseline.channel &&
      selected.target == baseline.target)
    (.baseline "activation pointer scope"
      "selected artifact differs from the trusted application/channel/target")
  let version ← orElseError (Version.parse selected.version)
    (.baseline "activation pointer version" "")
  let baselineVersion ← orElseError (Version.parse baseline.version)
    (.baseline "baseline artifact version" "")
  require (version.cmpPrecedence baselineVersion != .lt)
    (.baseline "activation pointer version" "selected version is below the installed baseline")
  require (version.cmpPrecedence baselineVersion != .eq || selected == baseline)
    (.baseline "activation pointer identity"
      "baseline precedence must retain the exact installed artifact identity")
  pure version

def validateSelectedArtifact (baseline : ArtifactIdentity) (floor : Version)
    (selected : ArtifactIdentity) : Except UpdateError Unit := do
  let version ← validateArtifactScopeAndBaseline baseline selected
  require (version.cmpPrecedence floor != .gt)
    (.baseline "activation pointer version" "selected version is above the protected floor")

/-- The floor of an admitted installation: at the baseline it is the baseline's own text. -/
def validateVersionFloor (baseline : ArtifactIdentity) (floorText : String) :
    Except UpdateError Version := do
  let floor ← orElseError (Version.parse floorText) .versionFloorInvalid
  let baselineVersion ← orElseError (Version.parse baseline.version) .provenanceMismatch
  require (floor.cmpPrecedence baselineVersion != .lt) .provenanceMismatch
  require (floor.cmpPrecedence baselineVersion != .eq || floorText == baseline.version)
    .provenanceMismatch
  pure floor

/-- The checks of a previous-known-good pointer. -/
def validatePreviousPointer (baseline lastKnownGood : ArtifactIdentity) (floor : Version)
    (previous : ArtifactIdentity) : Except UpdateError Unit := do
  validateSelectedArtifact baseline floor previous
  let previousVersion ← orElseError (Version.parse previous.version)
    (.baseline "previous-known-good version" "")
  let lastKnownGoodVersion ← orElseError (Version.parse lastKnownGood.version)
    (.baseline "last-known-good version" "")
  require (previous != lastKnownGood &&
      previousVersion.cmpPrecedence lastKnownGoodVersion == .lt)
    (.baseline "previous-known-good pointer"
      "previous version is not strictly older than last-known-good")

def validateWriterPointerContext (baseline current lastKnownGood : ArtifactIdentity)
    (previousKnownGood : Option ArtifactIdentity) (floor : Version) : Except UpdateError Unit := do
  require (lastKnownGood == baseline || previousKnownGood.isSome)
    (.baseline "previous-known-good pointer"
      "a successful update must retain its prior known-good artifact")
  validateSelectedArtifact baseline floor current
  validateSelectedArtifact baseline floor lastKnownGood
  require (current == lastKnownGood || previousKnownGood == some current)
    (.baseline "current pointer" "current is not a known-good artifact")
  previousKnownGood.toList.forM (validatePreviousPointer baseline lastKnownGood floor)

def validateRecoveryKnownGoodHistory (baseline priorLastKnownGood : ArtifactIdentity)
    (priorPreviousKnownGood : Option ArtifactIdentity) : Except UpdateError Unit :=
  require (priorLastKnownGood == baseline || priorPreviousKnownGood.isSome)
    (.baseline "activation journal previous-known-good history"
      "prior last-known-good differs from the installed baseline but has no prior previous-known-good")

/-! ## The writer's snapshot -/

/-- What the writer loads before it starts an attempt. -/
structure WriteSnapshot where
  slots : ProtectedSlots
  versionPins : List String
deriving DecidableEq, Repr

/-- The selection of the writer: the slots, without a repeated previous-known-good. -/
def Store.writerSelection (s : Store) : List ArtifactIdentity :=
  [s.current, s.lastKnownGood] ++
    s.previousKnownGood.toList.filter (fun previous => !([s.current, s.lastKnownGood].contains previous))

def loadActivationWriteSnapshot (baseline : ArtifactIdentity) (s : Store) :
    Except UpdateError WriteSnapshot := do
  require s.journal.isNone (.baseline "activation recovery"
    "pending journal requires the process-family recovery owner")
  let floor ← validateVersionFloor baseline s.versionFloor
  validateWriterPointerContext baseline s.current s.lastKnownGood s.previousKnownGood floor
  let versionPins ← s.pinSelectedVersions s.writerSelection none
  pure { slots := s.slots, versionPins }

/-! ## The recovery inspection -/

/-- Every version a recovery keeps pinned: slots and journal artifacts, but the excluded ones. -/
def recoverySelection (journal : ActivationJournal) (slots excluded : List ArtifactIdentity) :
    List ArtifactIdentity :=
  (slots ++ [journal.candidate, journal.rollbackTarget, journal.priorLastKnownGood] ++
      journal.priorPreviousKnownGood.toList).foldl
    (fun selected artifact =>
      if selected.contains artifact || excluded.contains artifact then selected
      else selected ++ [artifact]) []

/-- What recovery loads: the journal, the slots, the pinned versions and the candidate's stage. -/
structure RecoveryInspection where
  journal : ActivationJournal
  slots : ProtectedSlots
  versionPins : List String
  candidateStage : Option String
deriving DecidableEq, Repr

/-- A publish-pending attempt whose floor is still prior: its candidate is located, not pinned. -/
def Store.unpublishedCandidate (s : Store) (journal : ActivationJournal) : Bool :=
  journal.phase == .publishPending && s.versionFloor == journal.priorFloor

/-- The artifacts that recovery pins. -/
def Store.recoverySelected (s : Store) (journal : ActivationJournal) : List ArtifactIdentity :=
  recoverySelection journal s.slotArtifacts ((retirementDue journal s.slots).toList ++
    if s.unpublishedCandidate journal then [journal.candidate] else [])

/-- A published candidate is admitted by name; otherwise its completed stage is returned. -/
def Store.locateUnpublishedCandidate (s : Store) (candidate : ArtifactIdentity) :
    Option ArtifactIdentity × Option String :=
  if s.versionPresent candidate.version then (some candidate, none)
  else (none, s.findCandidateStage candidate)

/-- The one version admitted by name only, and the stage to publish. -/
def Store.locateExcluded (s : Store) (journal : ActivationJournal) :
    Option ArtifactIdentity × Option String :=
  if s.unpublishedCandidate journal then s.locateUnpublishedCandidate journal.candidate
  else (retirementDue journal s.slots, none)

/-- The inspection of a store whose checks passed. -/
def Store.inspect (s : Store) (journal : ActivationJournal) : RecoveryInspection where
  journal
  slots := s.slots
  versionPins := (s.recoverySelected journal).map ArtifactIdentity.version
  candidateStage := (s.locateExcluded journal).2

def loadRecoveryInspection (blake3 : Digest → Digest → ArtifactIdentity → Digest)
    (baseline : ArtifactIdentity) (s : Store) : Except UpdateError RecoveryInspection := do
  let journal ← orElseError s.journal
    (.baseline "activation recovery inspection" "pending journal absent")
  let floor ← validateVersionFloor baseline s.versionFloor
  match validateProtectedRecoveryState blake3 journal s.slots with
  | .error refusal => .error (.baseline "activation recovery inspection" refusal.name)
  | .ok () =>
    validateRecoveryKnownGoodHistory baseline journal.priorLastKnownGood
      journal.priorPreviousKnownGood
    s.slotArtifacts.forM (validateSelectedArtifact baseline floor)
    let priorFloor ← orElseError (Version.parse journal.priorFloor)
      (.baseline "recovery prior floor" "")
    journal.knownGood.forM (validateSelectedArtifact baseline priorFloor)
    discard (validateArtifactScopeAndBaseline baseline journal.candidate)
    discard (s.pinSelectedVersions (s.recoverySelected journal) (s.locateExcluded journal).1)
    pure (s.inspect journal)

end Keld.Update
