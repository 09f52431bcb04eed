/-
# `Keld.Fs.Prepare` — the grants that a broker retains

A broker is prepared from a verified manifest: every scope of the two filesystem
capabilities becomes a grant with its directory opened, or there is no broker.
What opens a directory is outside; the grants carry the index of their scope, by
which a request that the guard allows finds its grant again.
-/
import Keld.Fs.Walk
import Keld.Guard.PathsLaw

namespace Keld.Fs

open Guard (Text Platform PathScope PathScopeKind PermissionsManifest ScopeSetError pathScopes
  stripSuffix globSuffix byteLen isBareDrive)

/-- The parsed manifest, with the digest that was verified. -/
structure VerifiedManifest where
  manifest : PermissionsManifest
  verifiedSha256 : List Byte

inductive FsPrepareError where
  | invalidScope (capability : Text) (grantIndex : ℕ) (detail : String)
  | openScope (capability : Text) (grantIndex : ℕ) (source : IoError)
deriving DecidableEq

/-- What the host answers when an anchor is opened. -/
structure Opener where
  openAmbientDir : Text → Except IoError Object
  dirMetadata : Object → Except IoError Metadata

/-- The text of a scope set error. -/
def scopeSetText : ScopeSetError → String
  | .tooMany actual maximum =>
    toString actual ++ " scopes exceed the " ++ toString maximum ++ "-scope limit"
  | .duplicate firstIndex duplicateIndex =>
    "scope " ++ toString duplicateIndex ++ " duplicates earlier scope " ++ toString firstIndex
  | .invalidPath grantIndex detail =>
    "scope " ++ toString grantIndex ++ " is invalid: " ++ detail

def prepareScopeError (capability : Text) (error : ScopeSetError) : FsPrepareError :=
  let grantIndex :=
    match error with
    | .tooMany .. => 64
    | .duplicate _ duplicateIndex => duplicateIndex
    | .invalidPath grantIndex _ => grantIndex
  .invalidScope capability grantIndex (scopeSetText error)

/-- The directory that a subtree is opened at. -/
def subtreeAnchor (platform : Platform) (pattern : Text) : Text :=
  let root := (stripSuffix globSuffix pattern).getD pattern
  if platform = .windows ∧ isBareDrive root then root ++ ['/']
  else if root = [] then ['/'] else root

/-- What is before the last slash, and what is behind it. -/
def cutLastSlash (path : Text) : Option (Text × Text) :=
  match path.reverse.dropWhile (· ≠ '/') with
  | [] => none
  | _ :: front => some (front.reverse, (path.reverse.takeWhile (· ≠ '/')).reverse)

def splitExactScope (path : Text) : Option (Text × Option Text) := do
  let (front, leaf) ← cutLastSlash path
  if leaf = [] then none
  else if front = [] then some (['/'], some leaf)
  else if byteLen front = 2 ∧ front.drop 1 = [':'] then some (front ++ ['/'], some leaf)
  else some (front, some leaf)

/-- The anchor of a scope, and its leaf where it is exact. -/
def scopeAnchor (platform : Platform) (capability : Text) (scope : PathScope) :
    Except FsPrepareError (Text × Option Text) :=
  match scope.kind with
  | .subtree => .ok (subtreeAnchor platform scope.pattern, none)
  | .exact =>
    orElseError (splitExactScope scope.pattern)
      (.invalidScope capability scope.grantIndex
        "exact scope has no retained parent and final leaf")

def prepareGrant (platform : Platform) (opener : Opener) (capability : Text) (scope : PathScope) :
    Except FsPrepareError RetainedGrant := do
  let (anchor, exactLeaf) ← scopeAnchor platform capability scope
  let root ← (opener.openAmbientDir anchor).mapError (.openScope capability scope.grantIndex)
  let metadata ← (opener.dirMetadata root).mapError (.openScope capability scope.grantIndex)
  require (metadata.fileType = .directory)
    (.invalidScope capability scope.grantIndex "retained anchor is not a directory")
  return {
    grantIndex := scope.grantIndex
    kind := scope.kind
    anchor := anchor
    exactLeaf := exactLeaf
    root := root
    rootDevice := metadata.dev }

def prepareCapability (platform : Platform) (opener : Opener) (verified : VerifiedManifest)
    (capability : Text) : Except FsPrepareError (List RetainedGrant) := do
  let scopes ← (pathScopes platform verified.manifest capability).mapError
    (prepareScopeError capability)
  scopes.mapM (prepareGrant platform opener capability)

structure FsBroker where
  preparedDigest : List Byte
  readGrants : List RetainedGrant
  writeGrants : List RetainedGrant

namespace FsBroker

def prepare (platform : Platform) (opener : Opener) (verified : VerifiedManifest) :
    Except FsPrepareError FsBroker := do
  let readGrants ← prepareCapability platform opener verified Guard.Capability.fsRead
  let writeGrants ← prepareCapability platform opener verified Guard.Capability.fsWrite
  return {
    preparedDigest := verified.verifiedSha256
    readGrants := readGrants
    writeGrants := writeGrants }

/-- The grants of a filesystem capability. -/
def grants (broker : FsBroker) (capability : Text) : List RetainedGrant :=
  if capability = Guard.Capability.fsRead then broker.readGrants else broker.writeGrants

end FsBroker

def selectedGrant (grants : List RetainedGrant) (grantIndex : ℕ) (requested : Text) :
    Except FsError RetainedGrant :=
  orElseError (grants.find? (·.grantIndex = grantIndex))
    (.resolvedOutOfScope requested "matched guard grant has no retained resource")

def validateRequestShape (path : Text) : Except FsError Unit := do
  require (byteLen path ≤ maxFsPathBytes) (.limitExceeded "path-bytes" (byteLen path) maxFsPathBytes)
  require (!path.contains '\x00') (.limitExceeded "path-nul" 1 0)

/-! ## What is retained -/

variable {platform : Platform} {opener : Opener} {capability : Text}

/-- A grant that was made of a scope. -/
structure GrantOf (platform : Platform) (scope : PathScope) (grant : RetainedGrant) : Prop where
  grantIndex : grant.grantIndex = scope.grantIndex
  kind : grant.kind = scope.kind
  subtree : scope.kind = .subtree → grant.anchor = subtreeAnchor platform scope.pattern
  exact : scope.kind = .exact → splitExactScope scope.pattern = some (grant.anchor, grant.exactLeaf)

theorem prepareGrant_ok {scope : PathScope} {grant : RetainedGrant}
    (h : prepareGrant platform opener capability scope = .ok grant) :
    GrantOf platform scope grant := by
  obtain ⟨⟨anchor, exactLeaf⟩, han, h⟩ := bind_ok.mp h
  obtain ⟨root, -, h⟩ := bind_ok.mp h
  obtain ⟨metadata, -, h⟩ := bind_ok.mp h
  obtain ⟨-, h⟩ := bind_unit_ok.mp h
  cases h
  unfold scopeAnchor at han
  refine ⟨rfl, rfl, fun hk => ?_, fun hk => ?_⟩
  · rw [hk] at han
    cases han
    rfl
  · rw [hk] at han
    exact orElseError_ok.mp han

theorem mapM_prepareGrant {scopes : List PathScope} {grants : List RetainedGrant}
    (h : scopes.mapM (prepareGrant platform opener capability) = .ok grants) :
    List.Forall₂ (GrantOf platform) scopes grants := by
  induction scopes generalizing grants with
  | nil =>
    cases h
    exact .nil
  | cons scope rest ih =>
    rw [List.mapM_cons] at h
    obtain ⟨grant, hgr, h⟩ := bind_ok.mp h
    obtain ⟨others, hoh, h⟩ := bind_ok.mp h
    cases h
    exact .cons (prepareGrant_ok hgr) (ih hoh)

/-- A broker that was prepared retains the scopes of each capability, in their order. -/
theorem prepare_ok {verified : VerifiedManifest} {broker : FsBroker}
    (h : FsBroker.prepare platform opener verified = .ok broker)
    (hca : Guard.isFilesystemCapability capability = true) :
    ∃ scopes, pathScopes platform verified.manifest capability = .ok scopes ∧
      List.Forall₂ (GrantOf platform) scopes (broker.grants capability) := by
  have hpr : ∀ {capability : Text} {grants : List RetainedGrant},
      prepareCapability platform opener verified capability = .ok grants →
      ∃ scopes, pathScopes platform verified.manifest capability = .ok scopes ∧
        List.Forall₂ (GrantOf platform) scopes grants := by
    intro capability grants hgrs
    obtain ⟨scopes, hscs, hgrs⟩ := bind_ok.mp hgrs
    exact ⟨scopes, mapError_ok.mp hscs, mapM_prepareGrant hgrs⟩
  obtain ⟨readGrants, hr, h⟩ := bind_ok.mp h
  obtain ⟨writeGrants, hw, h⟩ := bind_ok.mp h
  cases h
  unfold FsBroker.grants
  split
  · rename_i hfsRead
    rw [hfsRead]
    exact hpr hr
  · rename_i hnotRead
    have hfsWrite : capability = Guard.Capability.fsWrite := by
      unfold Guard.isFilesystemCapability at hca
      simpa [hnotRead] using hca
    rw [hfsWrite]
    exact hpr hw

end Keld.Fs
