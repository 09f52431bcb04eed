/-
# `Keld.Fs.Walk` — the retained walk

A granted request is walked one component at a time from the directory that was
opened when the grant was prepared.  The directories entered are kept on a
stack, and the target of a link is put in front of what is still to be walked.

The file system is the environment.  A round of the walk makes up to three calls
and each of them finds a world of its own, so anything may have changed since
the call before; a call may fail, and the operation may be interrupted behind
it.  A single call is atomic: what it opens, it finds under a name of the
directory it is given, and it follows no link.
-/
import Keld.Guard.Paths
import Keld.Lib.Names
import Keld.Lib.Resolution

namespace Keld.Fs

open Guard (Text Platform PathScopeKind validateFsComponent)

/-! ## The environment -/

/-- A node of the file system, as an open handle names it. -/
abbrev Object := ℕ

inductive IoError where
  | notFound
  | loop
  | notDirectory
  | crossesDevices
  | permissionDenied
  | invalidInput
  | other (raw : ℕ)
deriving DecidableEq

inductive FileType where
  | file
  | directory
  | symlink
  | other
deriving DecidableEq

/-- `reparse` is the attribute that Windows keeps. -/
structure Metadata where
  fileType : FileType
  dev : ℕ
  reparse : Bool := false

/-- The content of a link is a text where it is UTF-8. -/
structure World where
  entry : Object → Text → Option Object
  metadata : Object → Metadata
  target : Object → Option Text

inductive Interruption where
  | cancelled
  | deadline
deriving DecidableEq

/-- What one call finds. -/
structure Moment where
  world : World
  fault : Option IoError := none
  /-- What the check behind the call finds. -/
  interruption : Option Interruption := none

namespace Moment

variable {α : Type} (m : Moment)

def answer (result : Except IoError α) : Except IoError α :=
  match m.fault with
  | some error => .error error
  | none => result

/-- The child of a directory, where the test allows it. -/
def child (dir : Object) (name : Text) (test : Metadata → Except IoError Unit) :
    Except IoError Object :=
  m.answer do
    let object ← orElseError (m.world.entry dir name) .notFound
    test (m.world.metadata object)
    return object

def symlinkMetadata (dir : Object) (name : Text) : Except IoError Metadata :=
  m.answer ((orElseError (m.world.entry dir name) .notFound).map m.world.metadata)

def readLinkContents (dir : Object) (name : Text) : Except IoError (Option Text) := do
  let link ← m.child dir name fun metadata => require (metadata.fileType = .symlink) .invalidInput
  return m.world.target link

/-- `RESOLVE_NO_XDEV`. -/
def sameDevice (platform : Platform) (dir : Object) (metadata : Metadata) : Except IoError Unit :=
  require (platform ≠ .linux || metadata.dev = (m.world.metadata dir).dev) .crossesDevices

def openChildDirectory (platform : Platform) (dir : Object) (name : Text) : Except IoError Object :=
  m.child dir name fun metadata => do
    m.sameDevice platform dir metadata
    require (metadata.fileType = .directory) .notDirectory

def openExistingFile (platform : Platform) (dir : Object) (name : Text) : Except IoError Object :=
  m.child dir name fun metadata => do
    m.sameDevice platform dir metadata
    require (metadata.fileType ≠ .symlink) .loop

def handleMetadata (object : Object) : Except IoError Metadata :=
  m.answer (.ok (m.world.metadata object))

def tryClone (object : Object) : Except IoError Object := m.answer (.ok object)

end Moment

/-! ## Errors -/

inductive FsError where
  | io (source : IoError)
  | resolvedOutOfScope (requested : Text) (detail : String)
  | unsupportedObject (requested : Text) (detail : String)
  | limitExceeded (limit : String) (actual maximum : ℕ)
  | deadline
  | cancelled
deriving DecidableEq

def maxFsPathBytes : ℕ := 4 * 1024

def maxFsComponents : ℕ := 256

def maxFsSymlinkExpansions : ℕ := 40

def Moment.checkRead (m : Moment) : Except FsError Unit :=
  match m.interruption with
  | some .cancelled => .error .cancelled
  | some .deadline => .error .deadline
  | none => .ok ()

def Moment.finishReadIo {α : Type} (m : Moment) (result : Except IoError α) : Except FsError α := do
  m.checkRead
  result.mapError .io

/-- Whether an error says that the name changed between two calls. -/
def isNamespaceRace (platform : Platform) (source : IoError) : Bool :=
  match platform, source with
  | .linux, .loop | .linux, .notDirectory | .linux, .notFound => true
  | .linux, _ => false
  | .mac, .loop => true
  | _, .notDirectory | _, .notFound | _, .permissionDenied | _, .invalidInput => true
  | _, _ => false

def classifyComponentOpenError (platform : Platform) (source : IoError) (requested : Text)
    (detail : String) : FsError :=
  if source = .crossesDevices then
    .unsupportedObject requested "mount or volume boundary crossed"
  else if isNamespaceRace platform source then .resolvedOutOfScope requested detail
  else .io source

/-! ## Grants and what is still to be walked -/

structure RetainedGrant where
  grantIndex : ℕ
  kind : PathScopeKind
  anchor : Text
  exactLeaf : Option Text
  root : Object
  rootDevice : ℕ
deriving DecidableEq

inductive OpenPurpose where
  | read
  | write
deriving DecidableEq

inductive WalkResult where
  | file (file : Object)
  | missing (parent : Object) (leaf : Text)
deriving DecidableEq

abbrev PendingComponent := Segment Text

/-- `str::strip_prefix`. -/
def stripFront (front text : Text) : Option Text :=
  if front.isPrefixOf text then some (text.drop front.length) else none

def stripSubtreeAnchor (anchor requested : Text) : Option Text :=
  (stripFront anchor requested).bind fun suffix =>
    if anchor.getLast? = some '/' then some suffix else stripFront ['/'] suffix

def relativeRequest (grant : RetainedGrant) (requested : Text) : Except FsError Text :=
  match grant.kind with
  | .exact =>
    orElseError grant.exactLeaf
      (.resolvedOutOfScope requested "exact grant has no retained final leaf")
  | .subtree =>
    if requested = grant.anchor then .ok []
    else
      orElseError (stripSubtreeAnchor grant.anchor requested)
        (.resolvedOutOfScope requested
          "request does not share the selected retained root spelling")

/-- What a walk starts with, before it opens anything. -/
def walkPlan (grant : RetainedGrant) (requested : Text) : Except FsError (List PendingComponent) := do
  let relative ← relativeRequest grant requested
  let pending := (namesBetween (· == '/') relative).map Segment.normal
  require (pending ≠ [])
    (.unsupportedObject requested "scope root is a directory, not a regular file")
  return pending

/-- Whether the target of a link is absolute, rooted or prefixed. -/
def isRooted (platform : Platform) (target : Text) : Bool :=
  match platform, target with
  | .windows, c :: ':' :: _ => Guard.isSeparator c || c.isAlpha
  | .windows, c :: _ => Guard.isSeparator c
  | _, c :: _ => c = '/'
  | _, [] => false

def linkBreak (platform : Platform) (c : Char) : Bool :=
  if platform = .windows then Guard.isSeparator c else c = '/'

def segmentOf (name : Text) : PendingComponent :=
  if name = ['.'] then .current else if name = ['.', '.'] then .parent else .normal name

/-- Only an ordinary name is validated. -/
def validateSegment (platform : Platform) (requested : Text) :
    PendingComponent → Except FsError Unit
  | .normal name => (validateFsComponent platform name).mapError (.resolvedOutOfScope requested)
  | _ => .ok ()

def linkComponents (platform : Platform) (target : Option Text) (requested : Text) :
    Except FsError (List PendingComponent) := do
  let target ← orElseError target (.resolvedOutOfScope requested "link target is not UTF-8")
  require (!isRooted platform target)
    (.resolvedOutOfScope requested "absolute, rooted, or prefixed link target is forbidden")
  let components := (namesBetween (linkBreak platform) target).map segmentOf
  components.forM (validateSegment platform requested)
  return components

/-! ## A round -/

/-- `directories` has the directory entered last in front. -/
structure WalkState where
  pending : List PendingComponent
  directories : List Object
  components : ℕ := 0
  links : ℕ := 0

/-- What a round did, where the walk goes on. -/
inductive Move where
  | stay
  | up
  | enter (name : Text) (dir : Object)
  | follow (name : Text) (target : Option Text)

inductive Turn where
  | next (move : Move) (state : WalkState)
  | done (result : WalkResult)

/-- What the calls of a round find: the check in front, the metadata, and the two calls behind. -/
structure Round where
  top : Moment
  probe : Moment
  act : Moment
  opened : Moment

def unsupportedReparse (platform : Platform) (metadata : Metadata) : Bool :=
  platform = .windows && metadata.reparse && metadata.fileType ≠ .symlink

def ensureAcquiredNotReparse (platform : Platform) (metadata : Metadata) (requested : Text) :
    Except FsError Unit :=
  require (!(platform = .windows && metadata.reparse))
    (.unsupportedObject requested "acquired handle is an unsupported reparse object")

def ensureRegularAndDevice (platform : Platform) (metadata : Metadata) (grant : RetainedGrant)
    (requested : Text) : Except FsError Unit := do
  ensureAcquiredNotReparse platform metadata requested
  require (metadata.dev = grant.rootDevice)
    (.unsupportedObject requested "mount or volume boundary crossed")
  require (metadata.fileType = .file)
    (.unsupportedObject requested "target is not a regular file")

/-- Who walks, and for what. -/
structure Walker where
  platform : Platform
  grant : RetainedGrant
  requested : Text
  purpose : OpenPurpose

namespace Walker

variable (w : Walker)

/-- A link, whose target goes in front. -/
def linkTurn (r : Round) (s : WalkState) (current : Object) (name : Text) : Except FsError Turn := do
  require (w.grant.kind ≠ .exact)
    (.resolvedOutOfScope w.requested "an exact-file grant never follows its final alias")
  require (s.links + 1 ≤ maxFsSymlinkExpansions)
    (.limitExceeded "symlink-expansions" (s.links + 1) maxFsSymlinkExpansions)
  let target ← r.act.finishReadIo (r.act.readLinkContents current name)
  let inserted ← linkComponents w.platform target w.requested
  return .next (.follow name target) { s with
    pending := inserted ++ s.pending
    links := s.links + 1 }

/-- The last component, where it is no link. -/
def fileTurn (r : Round) (current : Object) (name : Text) (metadata : Metadata) :
    Except FsError Turn := do
  require (metadata.fileType = .file)
    (.unsupportedObject w.requested "target is not a regular file")
  let opening := r.act.openExistingFile w.platform current name
  r.act.checkRead
  let file ← opening.mapError fun source =>
    classifyComponentOpenError w.platform source w.requested
      "final object changed during no-follow open"
  let opened ← r.opened.finishReadIo (r.opened.handleMetadata file)
  ensureRegularAndDevice w.platform opened w.grant w.requested
  return .done (.file file)

/-- A component that is not the last, where it is no link. -/
def directoryTurn (r : Round) (s : WalkState) (current : Object) (name : Text)
    (metadata : Metadata) : Except FsError Turn := do
  require (metadata.fileType = .directory)
    (.unsupportedObject w.requested "intermediate component is not a directory")
  let opening := r.act.openChildDirectory w.platform current name
  r.act.checkRead
  let directory ← opening.mapError fun source =>
    classifyComponentOpenError w.platform source w.requested
      "directory component changed during no-follow open"
  let opened ← r.opened.finishReadIo (r.opened.handleMetadata directory)
  ensureAcquiredNotReparse w.platform opened w.requested
  require (opened.dev = w.grant.rootDevice)
    (.unsupportedObject w.requested "mount or volume boundary crossed")
  return .next (.enter name directory) { s with directories := directory :: s.directories }

/-- An ordinary component; `s.pending` is what comes behind it. -/
def normalTurn (r : Round) (s : WalkState) (name : Text) : Except FsError Turn := do
  (validateFsComponent w.platform name).mapError (.resolvedOutOfScope w.requested)
  let current ← orElseError s.directories.head?
    (.resolvedOutOfScope w.requested "retained directory stack became empty")
  let probed := r.probe.symlinkMetadata current name
  r.probe.checkRead
  match probed with
  | .error source =>
    if source = .notFound ∧ s.pending = [] ∧ w.purpose = .write then do
      let parent ← r.act.finishReadIo (r.act.tryClone current)
      return .done (.missing parent name)
    else .error (.io source)
  | .ok metadata =>
    require (!unsupportedReparse w.platform metadata)
      (.unsupportedObject w.requested "unsupported reparse object")
    if metadata.fileType = .symlink then w.linkTurn r s current name
    else if s.pending = [] then w.fileTurn r current name metadata
    else w.directoryTurn r s current name metadata

/-- `..` goes back on the stack. -/
def parentTurn (s : WalkState) : Except FsError Turn := do
  require (s.directories.length ≠ 1)
    (.resolvedOutOfScope w.requested "relative link escaped above the retained root")
  return .next .up { s with directories := s.directories.tail }

/-- One round of the loop of `walk_with_observer`. -/
def turn (r : Round) (s : WalkState) : Except FsError Turn :=
  match s.pending with
  -- the traversal produced no final object
  | [] => .error (.io .notFound)
  | component :: pending => do
    r.top.checkRead
    let s := { s with
      pending := pending
      components := s.components + 1 }
    require (s.components ≤ maxFsComponents)
      (.limitExceeded "processed-components" s.components maxFsComponents)
    match component with
    | .current => return .next .stay s
    | .parent => w.parentTurn s
    | .normal name => w.normalTurn r s name

/-- The loop, from round `i` on; nothing where the fuel does not last. -/
def walkFrom (rounds : ℕ → Round) : ℕ → ℕ → WalkState → Option (Except FsError WalkResult)
  | 0, _, _ => none
  | fuel + 1, i, s =>
    match w.turn (rounds i) s with
    | .error error => some (.error error)
    | .ok (.done result) => some (.ok result)
    | .ok (.next _ s) => walkFrom rounds fuel (i + 1) s

/-- The state that the loop starts in; `first` is where the root is cloned. -/
def start (first : Moment) : Except FsError WalkState := do
  let pending ← walkPlan w.grant w.requested
  let root ← first.finishReadIo (first.tryClone w.grant.root)
  return { pending := pending, directories := [root] }

/-- `walk`: one round more than there may be components. -/
def walk (first : Moment) (rounds : ℕ → Round) : Option (Except FsError WalkResult) :=
  match w.start first with
  | .error error => some (.error error)
  | .ok s => w.walkFrom rounds (maxFsComponents + 1) 0 s

end Walker

end Keld.Fs
