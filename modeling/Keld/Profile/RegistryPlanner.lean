/-
# `Keld.Profile.RegistryPlanner` — the next step of a binding or a purge

A persistent profile is bound to an identified platform store by two records
that point at each other, an active record, and a durable intent that says how
far the binding or its purge has come.  The planner looks at what is there and
names one action, or refuses.  Identities and store identifiers are arbitrary
types: only their equality matters.
-/
import Keld.Profile.Lifecycle

namespace Keld.Profile

/-! ## Records -/

inductive ProfilePlatform where
  | windows
  | macos
  | linux
deriving DecidableEq, Repr

inductive ProfileRootRole where
  | control
  | data
  | cache
  | webView2
  | metadata
  | ephemeral
deriving DecidableEq, Repr

/-- `StoreBinding`: the identity of a profile and the identifier of its store. -/
structure StoreBinding (I U : Type) where
  identity : I
  storeUuid : U
deriving DecidableEq

inductive BindingPhase where
  | prepared
  | reverseWritten
  | forwardWritten
  | storeCreationAuthorized
  | storeVerified
deriving DecidableEq, Repr

inductive PurgePhase where
  | prepared
  | storeRemovalAuthorized
  | storeAbsent
  | reverseRemoved
  | forwardRemoved
  | inactive
deriving DecidableEq, Repr

inductive RegistryIntentPhase where
  | binding (phase : BindingPhase)
  | purging (phase : PurgePhase)
deriving DecidableEq, Repr

structure RegistryIntent (I U : Type) where
  binding : StoreBinding I U
  phase : RegistryIntentPhase
deriving DecidableEq

inductive ProfilePurgePhase where
  | prepared
  | dataRemoved
  | completed
deriving DecidableEq, Repr

structure ProfilePurgeRecord (I : Type) where
  identity : I
  platform : ProfilePlatform
  phase : ProfilePurgePhase
deriving DecidableEq

structure ProfileMarker (I : Type) where
  identity : I
  platform : ProfilePlatform
  rootRole : ProfileRootRole
deriving DecidableEq

def ProfilePurgeRecord.advance {I : Type} (record : ProfilePurgeRecord I)
    (next : ProfilePurgePhase) : Except ProfileErrorKind (ProfilePurgeRecord I) :=
  match record.phase, next with
  | .prepared, .dataRemoved | .dataRemoved, .completed => .ok { record with phase := next }
  | _, _ => .error .activeIntent

/-! ## Markers -/

inductive MarkerObservation (I : Type) where
  | newlyCreatedEmpty
  | existingMarked (marker : ProfileMarker I)
  | existingEmptyUnmarked
  | existingNonemptyUnmarked
  | linkOrReparse
  | escapingFinalPath
  | unsafeOwnerOrPermissions

inductive MarkerAction (I : Type) where
  | writeNew (marker : ProfileMarker I)
  | reuse

def nextMarkerAction {I : Type} [DecidableEq I] (expected : ProfileMarker I) :
    MarkerObservation I → Except ProfileErrorKind (MarkerAction I)
  | .newlyCreatedEmpty => .ok (.writeNew expected)
  | .existingMarked actual => if actual = expected then .ok .reuse else .error .markerMismatch
  | .existingEmptyUnmarked | .existingNonemptyUnmarked | .linkOrReparse | .escapingFinalPath
  | .unsafeOwnerOrPermissions => .error .markerMismatch

/-! ## Observations and actions -/

inductive StoreObservation (U : Type) where
  | unknown
  | absent
  | present (uuid : U) (persistent : Bool)
deriving DecidableEq

/-- The records that were read, `none` where there is none. -/
structure RegistrySnapshot (I U : Type) where
  intent : Option (RegistryIntent I U)
  forward : Option (StoreBinding I U)
  reverse : Option (StoreBinding I U)
  store : StoreObservation U
  active : Bool

inductive RegistryAction (I U : Type) where
  | writeBindingIntent (intent : RegistryIntent I U)
  | writePurgeIntent (intent : RegistryIntent I U)
  | writeReverseRecord (binding : StoreBinding I U)
  | writeForwardRecord (binding : StoreBinding I U)
  | advanceBindingIntent (phase : BindingPhase)
  | advancePurgeIntent (phase : PurgePhase)
  | enumerateStores
  | constructStore (binding : StoreBinding I U)
  | markBindingActive
  | reuseStore
  | removeStore (binding : StoreBinding I U)
  | removeReverseRecord
  | removeForwardRecord
  | clearActiveStatus
  | clearIntent
deriving DecidableEq

/-! ## The planner -/

section Planner

variable {I U : Type} [DecidableEq I] [DecidableEq U]

def recordMatches (record : Option (StoreBinding I U)) (expected : StoreBinding I U) :
    Except ProfileErrorKind Bool :=
  match record with
  | none => .ok false
  | some actual => if actual = expected then .ok true else .error .registryCorruption

def storeMatches (observation : StoreObservation U) (expected : StoreBinding I U) :
    Except ProfileErrorKind (Option Bool) :=
  match observation with
  | .unknown => .ok none
  | .absent => .ok (some false)
  | .present uuid persistent =>
    if persistent = true ∧ uuid = expected.storeUuid then .ok (some true)
    else .error .registryCorruption

/-- The three phases of a binding whose records are complete and inactive go by the store. -/
def byStore {α : Type} (store : Option Bool) (unknown absent present : Except ProfileErrorKind α) :
    Except ProfileErrorKind α :=
  match store with
  | none => unknown
  | some false => absent
  | some true => present

def requireCompleteInactiveBinding (forward reverse active : Bool) :
    Except ProfileErrorKind Unit :=
  if forward ∧ reverse ∧ ¬ active then .ok () else .error .registryCorruption

/-- What an unfinished binding does next. -/
def bindingPhaseAction (binding : StoreBinding I U) (forward reverse active : Bool)
    (store : Option Bool) : BindingPhase → Except ProfileErrorKind (RegistryAction I U)
  | .prepared =>
    if forward ∨ active then .error .registryCorruption
    else if reverse then .ok (.advanceBindingIntent .reverseWritten)
    else .ok (.writeReverseRecord binding)
  | .reverseWritten =>
    if ¬ reverse ∨ active then .error .registryCorruption
    else if forward then .ok (.advanceBindingIntent .forwardWritten)
    else .ok (.writeForwardRecord binding)
  | .forwardWritten => do
    requireCompleteInactiveBinding forward reverse active
    byStore store (.ok .enumerateStores) (.ok (.advanceBindingIntent .storeCreationAuthorized))
      (.error .registryCorruption)
  | .storeCreationAuthorized => do
    requireCompleteInactiveBinding forward reverse active
    byStore store (.ok .enumerateStores) (.ok (.constructStore binding))
      (.ok (.advanceBindingIntent .storeVerified))
  | .storeVerified =>
    if ¬ forward ∨ ¬ reverse then .error .registryCorruption
    else byStore store (.ok .enumerateStores) (.error .registryCorruption)
      (if active then .ok .clearIntent else .ok .markBindingActive)

/-- What a binding without an intent does: begin, or reuse the store. -/
def unintendedBindingAction (binding : StoreBinding I U) (forward reverse active : Bool)
    (store : Option Bool) : Except ProfileErrorKind (RegistryAction I U) :=
  if ¬ forward ∧ ¬ reverse ∧ ¬ active ∧ store ≠ some true then
    .ok (.writeBindingIntent ⟨binding, .binding .prepared⟩)
  else if forward ∧ reverse ∧ active then
    byStore store (.ok .enumerateStores) (.error .registryCorruption) (.ok .reuseStore)
  else .error .registryCorruption

def nextBindingAction (binding : StoreBinding I U) (snapshot : RegistrySnapshot I U) :
    Except ProfileErrorKind (RegistryAction I U) := do
  let forward ← recordMatches snapshot.forward binding
  let reverse ← recordMatches snapshot.reverse binding
  let store ← storeMatches snapshot.store binding
  match snapshot.intent with
  | none => unintendedBindingAction binding forward reverse snapshot.active store
  | some intent =>
    if intent.binding ≠ binding then .error .registryCorruption
    else
      match intent.phase with
      | .purging _ => .error .activeIntent
      | .binding phase => bindingPhaseAction binding forward reverse snapshot.active store phase

/-- `absent_store_purge_action`, and what follows it. -/
def absentStorePurgeAction (store : Option Bool) (next : RegistryAction I U) :
    Except ProfileErrorKind (RegistryAction I U) :=
  byStore store (.ok .enumerateStores) (.ok next) (.error .registryCorruption)

/-- What an unfinished purge does next. -/
def purgePhaseAction (binding : StoreBinding I U) (forward reverse active : Bool)
    (store : Option Bool) : PurgePhase → Except ProfileErrorKind (RegistryAction I U)
  | .prepared =>
    if ¬ forward ∨ ¬ reverse ∨ ¬ active then .error .registryCorruption
    else byStore store (.ok .enumerateStores) (.ok (.advancePurgeIntent .storeAbsent))
      (.ok (.advancePurgeIntent .storeRemovalAuthorized))
  | .storeRemovalAuthorized =>
    if ¬ forward ∨ ¬ reverse ∨ ¬ active then .error .registryCorruption
    else byStore store (.ok .enumerateStores) (.ok (.advancePurgeIntent .storeAbsent))
      (.ok (.removeStore binding))
  | .storeAbsent =>
    if ¬ active ∨ ¬ forward then .error .registryCorruption
    else absentStorePurgeAction store
      (if reverse then .removeReverseRecord else .advancePurgeIntent .reverseRemoved)
  | .reverseRemoved =>
    if reverse ∨ ¬ active then .error .registryCorruption
    else absentStorePurgeAction store
      (if forward then .removeForwardRecord else .advancePurgeIntent .forwardRemoved)
  | .forwardRemoved =>
    if forward ∨ reverse then .error .registryCorruption
    else absentStorePurgeAction store
      (if active then .clearActiveStatus else .advancePurgeIntent .inactive)
  | .inactive =>
    if forward ∨ reverse ∨ active then .error .registryCorruption
    else absentStorePurgeAction store .clearIntent

def nextPurgeAction (binding : StoreBinding I U) (snapshot : RegistrySnapshot I U) :
    Except ProfileErrorKind (RegistryAction I U) := do
  let forward ← recordMatches snapshot.forward binding
  let reverse ← recordMatches snapshot.reverse binding
  let store ← storeMatches snapshot.store binding
  match snapshot.intent with
  | none =>
    if forward ∧ reverse ∧ snapshot.active then
      .ok (.writePurgeIntent ⟨binding, .purging .prepared⟩)
    else .error .registryCorruption
  | some intent =>
    if intent.binding ≠ binding then .error .registryCorruption
    else
      match intent.phase with
      | .binding _ => .error .activeIntent
      | .purging phase => purgePhaseAction binding forward reverse snapshot.active store phase

end Planner

end Keld.Profile
