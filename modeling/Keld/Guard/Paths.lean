/-
# `Keld.Guard.Paths` — the spelling of a filesystem path

The scopes that the filesystem broker retains are validated before anything is
opened, and a request is validated by the same grammar before its decision is
used: an absolute path whose components are ordinary names.  On Windows it
starts at a drive, and a name is one that Win32 can hold.
-/
import Keld.Guard.Matcher

namespace Keld.Guard

/-- The host a crate is compiled for; `mac` is any Unix other than Linux. -/
inductive Platform where
  | windows
  | linux
  | mac
deriving DecidableEq

/-! ## Components -/

def validatePortableComponent (component : Text) : Except String Unit := do
  require (component ≠ [] ∧ component ≠ ['.'] ∧ component ≠ ['.', '.'])
    "empty, `.` and `..` components are not normal names"
  require (!component.any fun c => c = '\x00' || isSeparator c)
    "components cannot contain NUL or a path separator"

def eqIgnoreAsciiCase (one other : Text) : Bool := one.map Char.toLower = other.map Char.toLower

def stripAsciiPrefix (head text : Text) : Option Text :=
  if eqIgnoreAsciiCase (text.take head.length) head then some (text.drop head.length) else none

def reservedNames : List Text := ["CON".toList, "PRN".toList, "AUX".toList, "NUL".toList]

def reservedPorts : List Text := ["COM".toList, "LPT".toList]

def portSuffixes : List Text :=
  [['1'], ['2'], ['3'], ['4'], ['5'], ['6'], ['7'], ['8'], ['9'], ['¹'], ['²'], ['³']]

def isWindowsReservedBasename (basename : Text) : Bool :=
  reservedNames.any (eqIgnoreAsciiCase basename) ||
    reservedPorts.any fun port => (stripAsciiPrefix port basename).any portSuffixes.contains

def isForbiddenOnWindows (c : Char) : Bool :=
  ['<', '>', '"', '|', '?', '*'].contains c || (1 ≤ c.val && c.val ≤ 0x1f)

def validateWindowsComponent (component : Text) : Except String Unit := do
  require (!component.contains ':') "alternate data streams are not serviceable"
  require (!component.any isForbiddenOnWindows) "Windows components contain forbidden characters"
  require (component.getLast? ≠ some '.' ∧ component.getLast? ≠ some ' ')
    "Windows components cannot end with dot or space"
  require (!isWindowsReservedBasename (component.takeWhile (· ≠ '.')))
    "Windows reserved device basename is not serviceable"

def validateFsComponent (platform : Platform) (component : Text) : Except String Unit := do
  validatePortableComponent component
  if platform = .windows then validateWindowsComponent component

/-! ## Paths -/

/-- An uppercase ASCII drive letter. -/
def isDrive (c : Char) : Bool := 'A' ≤ c && c ≤ 'Z'

/-- What a path has behind its root, where it starts at one. -/
def behindRoot (platform : Platform) (path : Text) : Option Text :=
  match platform, path with
  | .windows, drive :: ':' :: '/' :: rest => if isDrive drive then some rest else none
  | .windows, _ => none
  | _, '/' :: rest => some rest
  | _, _ => none

def notAtRoot (platform : Platform) : String :=
  if platform = .windows then "path must begin with an uppercase drive and `:/`"
  else "path must be absolute"

def isFsRoot (platform : Platform) (path : Text) : Bool :=
  match platform with
  | .windows => byteLen path = 3 && path.drop 1 = [':', '/']
  | _ => path = ['/']

def validateFsPath (platform : Platform) (path : Text) : Except String Unit := do
  require (path ≠ []) "path is empty"
  require (!path.any fun c => c = '\x00' || c = '\\')
    "path contains NUL or a non-portable backslash separator"
  let remainder ← orElseError (behindRoot platform path) (notAtRoot platform)
  if remainder ≠ [] then (remainder.splitOn '/').forM (validateFsComponent platform)

/-! ## Scopes -/

inductive PathScopeKind where
  | exact
  | subtree
deriving DecidableEq

structure PathScope where
  grantIndex : ℕ
  pattern : Text
  kind : PathScopeKind
deriving DecidableEq

inductive ScopeSetError where
  | tooMany (actual maximum : ℕ)
  | duplicate (firstIndex duplicateIndex : ℕ)
  | invalidPath (grantIndex : ℕ) (detail : String)
deriving DecidableEq

def maxPathScopes : ℕ := 64

def isFilesystemCapability (operation : Text) : Bool :=
  operation = Capability.fsRead || operation = Capability.fsWrite

/-- The path that a pattern is about, and its kind. -/
def scopeShape (pattern : Text) : Text × PathScopeKind :=
  match stripSuffix globSuffix pattern with
  | some root => (if root = [] then ['/'] else root, .subtree)
  | none => (pattern, .exact)

/-- A bare drive stands for its root. -/
def isBareDrive (path : Text) : Bool :=
  match path with
  | [drive, ':'] => isDrive drive
  | _ => false

def servicePath (platform : Platform) (path : Text) (kind : PathScopeKind) : Text :=
  if platform = .windows ∧ kind = .subtree ∧ isBareDrive path then path ++ ['/'] else path

/-- One round of the loop of `path_scopes`, behind the scopes already there. -/
def pathScope (platform : Platform) (scopes : List PathScope) (grantIndex : ℕ) (value : Value) :
    Except ScopeSetError PathScope := do
  let pattern ← orElseError value.asStr (.invalidPath grantIndex "scope must be a string")
  match scopes.find? fun scope => scope.pattern = pattern with
  | some scope => .error (.duplicate scope.grantIndex grantIndex)
  | none =>
    require (!pattern.contains '$')
      (.invalidPath grantIndex "unexpanded `$VAR` scopes are not serviceable")
    let path := (scopeShape pattern).1
    let kind := (scopeShape pattern).2
    (validateFsPath platform (servicePath platform path kind)).mapError (.invalidPath grantIndex)
    require (!(kind = .exact && isFsRoot platform path))
      (.invalidPath grantIndex "an exact scope must name a final file component")
    return { grantIndex := grantIndex, pattern := pattern, kind := kind }

def pathScopesFrom (platform : Platform) (scopes : List PathScope) (grantIndex : ℕ) :
    List Value → Except ScopeSetError (List PathScope)
  | [] => .ok scopes
  | value :: rest => do
    let scope ← pathScope platform scopes grantIndex value
    pathScopesFrom platform (scopes ++ [scope]) (grantIndex + 1) rest

def pathScopes (platform : Platform) (manifest : PermissionsManifest) (operation : Text) :
    Except ScopeSetError (List PathScope) := do
  require (isFilesystemCapability operation)
    (.invalidPath 0 ("`" ++ String.ofList operation ++ "` is not a filesystem capability"))
  match grantNode manifest operation with
  | none => .ok []
  | some node =>
    let values ← orElseError node.asArray
      (.invalidPath 0 "capability must be an array of path strings")
    require (values.length ≤ maxPathScopes) (.tooMany values.length maxPathScopes)
    pathScopesFrom platform [] 0 values

/-! ## Dispatch -/

def filesystemDispatchPathIsValid (platform : Platform) (operation path : Text) : Bool :=
  if !isFilesystemCapability operation then true
  else if path = [] || path.any fun c => c = '\x00' || c = '\\' then false
  else
    match behindRoot platform path with
    | none => false
    | some remainder =>
      remainder = [] ||
        (remainder.splitOn '/').all fun name => (validateFsComponent platform name).isOk

def dispatchPrivileged {α : Type} (platform : Platform) (manifest : PermissionsManifest)
    (principal : Principal) (operation path : Text) (handler : ℕ → α) : Except DenyReason α :=
  match evaluate manifest principal operation path with
  | .deny (.notAppProcess presented) => .error (.notAppProcess presented)
  | decision =>
    if !filesystemDispatchPathIsValid platform operation path then
      .error (.outOfScope operation "absolute normalized filesystem request".toList
        (jsonPointerFor operation) path)
    else
      match decision with
      | .allow grantIndex => .ok (handler grantIndex)
      | .deny reason => .error reason

end Keld.Guard
