/-
# `Keld.Profile.RegistryRuns` — binding and purging, one durable step at a time

What the two host runs do with the planner's actions.  A directory, a marker, a
record or the platform's store changes in one durable step, and a crash may come
before each.  Files are what they were last written to be, access to them does
not fail, and the temporaries of a record's atomic write are part of its step.
Every change of the store is remembered with the state it was made in.
-/
import Keld.Profile.RegistryPlanner

namespace Keld.Profile

open Task

/-! ## The durable state -/

/-- The directory of an identity, or of a store identifier. -/
structure ProfileDirectory (I U : Type) where
  marker : Option (ProfileMarker I) := none
  /-- `forward.v1` or `reverse.v1`. -/
  direction : Option (StoreBinding I U) := none
  active : Option (StoreBinding I U) := none
deriving DecidableEq

structure RegistryDisk (I U : Type) where
  intent : Option (RegistryIntent I U) := none
  purge : Option (ProfilePurgeRecord I) := none
  identityDir : Option (ProfileDirectory I U) := none
  uuidDir : Option (ProfileDirectory I U) := none
  /-- Whether the platform has the store. -/
  store : Bool := false
deriving DecidableEq

inductive Side where
  | identity
  | uuid
deriving DecidableEq

inductive StoreChange where
  | constructed
  | removed
deriving DecidableEq

/-- The durable state, and the changes of the store, each with the state before it. -/
structure Registry (I U : Type) where
  disk : RegistryDisk I U := {}
  changes : List (StoreChange × RegistryDisk I U) := []

namespace RegistryDisk

variable {I U : Type}

def dir (disk : RegistryDisk I U) : Side → Option (ProfileDirectory I U)
  | .identity => disk.identityDir
  | .uuid => disk.uuidDir

def setDir (disk : RegistryDisk I U) (side : Side) (dir : Option (ProfileDirectory I U)) :
    RegistryDisk I U :=
  match side with
  | .identity => { disk with identityDir := dir }
  | .uuid => { disk with uuidDir := dir }

def forward (disk : RegistryDisk I U) : Option (StoreBinding I U) :=
  disk.identityDir.bind ProfileDirectory.direction

def reverse (disk : RegistryDisk I U) : Option (StoreBinding I U) :=
  disk.uuidDir.bind ProfileDirectory.direction

def active (disk : RegistryDisk I U) : Option (StoreBinding I U) :=
  disk.identityDir.bind ProfileDirectory.active

end RegistryDisk

section Runs

variable {I U : Type}

abbrev RegistryTask (I U α : Type) := ProfileTask (Registry I U) α

def readDisk : RegistryTask I U (RegistryDisk I U) := do
  let registry ← get
  return registry.disk

/-- One durable step. -/
def durable (f : RegistryDisk I U → RegistryDisk I U) : RegistryTask I U Unit := do
  alive
  modify fun registry => { registry with disk := f registry.disk }

/-- A durable step of the platform's store. -/
def changeStore (change : StoreChange) : RegistryTask I U Unit := do
  alive
  modify fun registry =>
    { disk := { registry.disk with store := change = .constructed }
      changes := registry.changes ++ [(change, registry.disk)] }

/-! ## Directories -/

def createPrivateDirectoryIfMissing (side : Side) : RegistryTask I U Bool := do
  let disk ← readDisk
  match disk.dir side with
  | some _ => return false
  | none => do
    durable (·.setDir side (some {}))
    return true

variable [DecidableEq I]

/-- What stands in a directory that has no marker. -/
def unmarkedObservation (created bindingIntentAuthorized : Bool) (dir : ProfileDirectory I U) :
    MarkerObservation I :=
  let empty := dir.direction.isNone && dir.active.isNone
  if created || (bindingIntentAuthorized && empty) then .newlyCreatedEmpty
  else if empty then .existingEmptyUnmarked
  else .existingNonemptyUnmarked

def ensureProfileDirectory (side : Side) (identity : I) (bindingIntentAuthorized : Bool) :
    RegistryTask I U Unit := do
  let created ← createPrivateDirectoryIfMissing side
  let expected : ProfileMarker I := ⟨identity, .macos, .metadata⟩
  let disk ← readDisk
  let dir := (disk.dir side).getD {}
  match dir.marker with
  | some observed => do
    let _ ← ofExcept (nextMarkerAction expected (.existingMarked observed))
    return ()
  | none => do
    let observation := unmarkedObservation created bindingIntentAuthorized dir
    match ← ofExcept (nextMarkerAction expected observation) with
    | .writeNew marker => durable (·.setDir side (some { dir with marker := some marker }))
    | .reuse => throw .markerMismatch

/-- A directory that is there has its marker. -/
def ensurePresentDirectory (side : Side) (identity : I) (bindingIntentAuthorized : Bool) :
    RegistryTask I U Unit := do
  let disk ← readDisk
  match disk.dir side with
  | none => return ()
  | some _ => ensureProfileDirectory side identity bindingIntentAuthorized

/-- `remove_reverse_directory`: its marker goes first, then the directory, which has to be
empty. -/
def removeReverseDirectory : RegistryTask I U Unit := do
  let disk ← readDisk
  match disk.uuidDir with
  | none => return ()
  | some dir => do
    if dir.marker.isSome then
      durable (·.setDir .uuid (some { dir with marker := none }))
    if dir.direction.isNone ∧ dir.active.isNone then durable (·.setDir .uuid none)
    else throw .registryCorruption

/-! ## Records -/

/-- `write_record` with `create_new`. -/
def writeNewRecord {α : Type} (current : Option α) (f : RegistryDisk I U → RegistryDisk I U) :
    RegistryTask I U Unit :=
  match current with
  | some _ => throw .registryCorruption
  | none => durable f

def removeFileIfExists {α : Type} (current : Option α) (f : RegistryDisk I U → RegistryDisk I U) :
    RegistryTask I U Unit :=
  match current with
  | some _ => durable f
  | none => return ()

def writeIntent (intent : RegistryIntent I U) : RegistryTask I U Unit := do
  let disk ← readDisk
  writeNewRecord disk.intent ({ · with intent := some intent })

def advanceIntent (phase : RegistryIntentPhase) : RegistryTask I U Unit := do
  let disk ← readDisk
  match disk.intent with
  | none => throw .registryCorruption
  | some current => durable ({ · with intent := some { current with phase := phase } })

def clearIntent : RegistryTask I U Unit := do
  let disk ← readDisk
  removeFileIfExists disk.intent ({ · with intent := none })

/-- The record of a direction, in a directory that is there. -/
def writeBindingDirection (binding : StoreBinding I U) (side : Side) : RegistryTask I U Unit := do
  ensureProfileDirectory side binding.identity true
  let disk ← readDisk
  match disk.dir side with
  | none => throw .markerMismatch
  | some dir =>
    writeNewRecord dir.direction (·.setDir side (some { dir with direction := some binding }))

def removeBindingDirection [DecidableEq U] (binding : StoreBinding I U) (side : Side) :
    RegistryTask I U Unit := do
  let disk ← readDisk
  match disk.dir side with
  | none => throw .registryCorruption
  | some dir =>
    if dir.direction = some binding then
      durable (·.setDir side (some { dir with direction := none }))
    else throw .registryCorruption

def markBindingActive (binding : StoreBinding I U) : RegistryTask I U Unit := do
  let disk ← readDisk
  match disk.identityDir with
  | none => throw .markerMismatch
  | some dir =>
    writeNewRecord dir.active
      (·.setDir .identity (some { dir with active := some binding }))

def clearActiveStatus : RegistryTask I U Unit := do
  let disk ← readDisk
  match disk.identityDir with
  | none => return ()
  | some dir =>
    removeFileIfExists dir.active (·.setDir .identity (some { dir with active := none }))

variable [DecidableEq U]

/-- A binding intent of this tuple accepts a directory that it had just created. -/
def bindingAuthorized (binding : StoreBinding I U) : Option (RegistryIntent I U) → Bool
  | some ⟨actual, .binding _⟩ => actual = binding
  | _ => false

def registrySnapshot (binding : StoreBinding I U) (store : StoreObservation U) :
    RegistryTask I U (RegistrySnapshot I U) := do
  let disk ← readDisk
  let authorized := bindingAuthorized binding disk.intent
  ensurePresentDirectory .identity binding.identity authorized
  ensurePresentDirectory .uuid binding.identity authorized
  let disk' ← readDisk
  let active ← ofExcept (recordMatches disk'.active binding)
  return ⟨disk.intent, disk'.forward, disk'.reverse, store, active⟩

/-! ## Binding -/

/-- One turn of `prepare_binding_metadata`. -/
def prepareBindingTurn (binding : StoreBinding I U) (_ : Unit) :
    RegistryTask I U (Unit ⊕ Unit) := do
  let snapshot ← registrySnapshot binding .unknown
  match ← ofExcept (nextBindingAction binding snapshot) with
  | .writeBindingIntent intent => do
    writeIntent intent
    return .inl ()
  | .writeReverseRecord binding => do
    writeBindingDirection binding .uuid
    return .inl ()
  | .writeForwardRecord binding => do
    writeBindingDirection binding .identity
    return .inl ()
  | .advanceBindingIntent phase => do
    advanceIntent (.binding phase)
    return .inl ()
  | .enumerateStores => return .inr ()
  | _ => throw .registryCorruption

/-- The observation of an enumeration, and whether the store was selected with it:
`recovered_store_if_authorized`. -/
def enumerateForBinding (binding : StoreBinding I U) (selected : Bool) :
    RegistryTask I U (StoreObservation U × Bool) := do
  let disk ← readDisk
  if disk.store then
    let authorized :=
      match disk.intent.map RegistryIntent.phase with
      | some (.binding .storeCreationAuthorized) | some (.binding .storeVerified) => true
      | _ => false
    return (.present binding.storeUuid true, selected || authorized)
  else return (.absent, selected)

/-- One turn of `bind_store`. -/
def bindStoreTurn (binding : StoreBinding I U) :
    StoreObservation U × Bool → RegistryTask I U ((StoreObservation U × Bool) ⊕ Unit)
  | (observation, selected) => do
    let snapshot ← registrySnapshot binding observation
    match ← ofExcept (nextBindingAction binding snapshot) with
    | .enumerateStores => do
      let observed ← enumerateForBinding binding selected
      return .inl observed
    | .constructStore binding => do
      changeStore .constructed
      return .inl (.present binding.storeUuid true, true)
    | .reuseStore => return .inr ()
    | .writeBindingIntent intent => do
      writeIntent intent
      return .inl (observation, selected)
    | .advanceBindingIntent phase => do
      advanceIntent (.binding phase)
      return .inl (observation, selected)
    | .markBindingActive => do
      markBindingActive binding
      return .inl (observation, selected)
    | .clearIntent =>
      if selected then do
        clearIntent
        return .inr ()
      else throw .registryCorruption
    | .writeReverseRecord binding => do
      writeBindingDirection binding .uuid
      return .inl (observation, selected)
    | .writeForwardRecord binding => do
      writeBindingDirection binding .identity
      return .inl (observation, selected)
    | _ => throw .activeIntent

def readPurgeRecord (identity : I) : RegistryTask I U (Option (ProfilePurgeRecord I)) := do
  let disk ← readDisk
  match disk.purge with
  | none => return none
  | some record =>
    if record.identity ≠ identity ∨ record.platform ≠ .macos then
      throw .registryCorruption
    else return some record

def rejectPendingPurge (identity : I) : RegistryTask I U Unit := do
  match ← readPurgeRecord identity with
  | some _ => throw .activeIntent
  | none => do
    let disk ← readDisk
    match disk.intent.map RegistryIntent.phase with
    | some (.purging _) => throw .activeIntent
    | _ => return ()

/-- The registry's part of opening a persistent profile. -/
def bindRun (fuel : ℕ) (binding : StoreBinding I U) : RegistryTask I U Unit := do
  rejectPendingPurge binding.identity
  loop (prepareBindingTurn binding) fuel ()
  loop (bindStoreTurn binding) fuel (.unknown, false)

/-! ## Purging -/

/-- The records that allow a purge that has no intent yet. -/
def requireActiveBinding (binding : StoreBinding I U) : RegistryTask I U Unit := do
  ensureProfileDirectory .identity binding.identity false
  ensureProfileDirectory .uuid binding.identity false
  let disk ← readDisk
  if disk.forward = some binding ∧ disk.reverse = some binding ∧ disk.active = some binding then
    return ()
  else throw .registryCorruption

def validatePurgeAuthority (binding : StoreBinding I U) : RegistryTask I U Unit := do
  let purgeRecord ← readPurgeRecord binding.identity
  let disk ← readDisk
  match disk.intent with
  | some intent =>
    if intent.binding ≠ binding then throw .registryCorruption
    else
      match intent.phase with
      | .binding _ => throw .activeIntent
      | .purging _ =>
        if purgeRecord.isSome then return ()
        else throw .registryCorruption
  | none =>
    match purgeRecord.map ProfilePurgeRecord.phase with
    | some .dataRemoved | some .completed => return ()
    | _ => requireActiveBinding binding

def readOrCreatePurgeRecord (identity : I) : RegistryTask I U (ProfilePurgeRecord I) := do
  match ← readPurgeRecord identity with
  | some record => return record
  | none => do
    let prepared : ProfilePurgeRecord I := ⟨identity, .macos, .prepared⟩
    let disk ← readDisk
    writeNewRecord disk.purge ({ · with purge := some prepared })
    return prepared

/-- The purge record in its next phase, on disk. -/
def advancePurgeRecord (record : ProfilePurgeRecord I) (next : ProfilePurgePhase) :
    RegistryTask I U (ProfilePurgeRecord I) := do
  let record ← ofExcept (record.advance next)
  durable ({ · with purge := some record })
  return record

def removePurgeRecord : RegistryTask I U Unit := do
  let disk ← readDisk
  removeFileIfExists disk.purge ({ · with purge := none })

/-- `resume_purge_after_cleared_intent`: whether the purge is complete with it. -/
def resumePurgeAfterClearedIntent (binding : StoreBinding I U) (record : ProfilePurgeRecord I) :
    RegistryTask I U Bool := do
  let disk ← readDisk
  if disk.intent.isSome then return false
  else if disk.forward ≠ none ∨ disk.reverse ≠ none ∨ disk.active ≠ none then do
    let snapshot ← registrySnapshot binding .unknown
    match ← ofExcept (nextPurgeAction binding snapshot) with
    | .writePurgeIntent intent => do
      writeIntent intent
      return false
    | _ => throw .registryCorruption
  else if record.phase = .prepared then throw .registryCorruption
  else if disk.store then throw .registryCorruption
  else do
    if record.phase = .dataRemoved then
      let _ ← advancePurgeRecord record .completed
    removeReverseDirectory
    removePurgeRecord
    return true

def recordRemovedStoreIfNeeded (observation : StoreObservation U)
    (record : ProfilePurgeRecord I) : RegistryTask I U (ProfilePurgeRecord I) :=
  if observation = .absent ∧ record.phase = .prepared then advancePurgeRecord record .dataRemoved
  else return record

/-- One turn of `resume_purge_actions`. -/
def resumePurgeTurn (binding : StoreBinding I U) :
    StoreObservation U × ProfilePurgeRecord I →
      RegistryTask I U ((StoreObservation U × ProfilePurgeRecord I) ⊕ ProfilePurgeRecord I)
  | (observation, record) => do
    let record ← recordRemovedStoreIfNeeded observation record
    let snapshot ← registrySnapshot binding observation
    match ← ofExcept (nextPurgeAction binding snapshot) with
    | .enumerateStores => do
      let disk ← readDisk
      let observed := if disk.store then .present binding.storeUuid true else .absent
      return .inl (observed, record)
    | .writePurgeIntent intent => do
      writeIntent intent
      return .inl (observation, record)
    | .advancePurgeIntent phase => do
      advanceIntent (.purging phase)
      return .inl (observation, record)
    | .removeStore _ => do
      changeStore .removed
      return .inl (.unknown, record)
    | .removeReverseRecord => do
      removeBindingDirection binding .uuid
      return .inl (observation, record)
    | .removeForwardRecord => do
      removeBindingDirection binding .identity
      return .inl (observation, record)
    | .clearActiveStatus => do
      clearActiveStatus
      return .inl (observation, record)
    | .clearIntent => do
      clearIntent
      return .inr record
    | _ => throw .registryCorruption

/-- What `resume_purge_actions` does after its loop. -/
def finishPurge (record : ProfilePurgeRecord I) : RegistryTask I U Unit := do
  removeReverseDirectory
  if record.phase ≠ .completed then
    let _ ← advancePurgeRecord record .completed
  removePurgeRecord

def resumePurge (fuel : ℕ) (binding : StoreBinding I U) : RegistryTask I U Unit := do
  let record ← readOrCreatePurgeRecord binding.identity
  if ← resumePurgeAfterClearedIntent binding record then return ()
  else do
    let record ← loop (resumePurgeTurn binding) fuel (.unknown, record)
    finishPurge record

/-- The registry's part of a purge. -/
def purgeRun (fuel : ℕ) (binding : StoreBinding I U) : RegistryTask I U Unit := do
  validatePurgeAuthority binding
  resumePurge fuel binding

end Runs

end Keld.Profile
