/-
# `Keld.Pack.Members` — what an archive may hold

The members of a canonical archive and the checks both the producer and the
parser make on them: `validateV0Members` on the tree, the package namespace of
the guard, and the one updater helper.  Of the namespace check the lexical part
is here; what the Windows string interfaces decide about normal forms and about
names that differ only in case is a parameter, the same for both sides.
-/
import Keld.Lib.Text
import Keld.Lib.Except
import Keld.Lib.Search
import Mathlib.Data.List.Basic

namespace Keld.Pack

/-! ## Errors -/

/-- The text of an `io::Error`. -/
abbrev IoError := String

inductive PackError
  | invalidMetadata (detail : String)
  | sourceSizeMismatch (name : String) (expected observed : Nat)
  | processing (stage : String) (source : IoError)
  | expectedIdentityInvalid (detail : String)
  | hostImageInvalid (detail : String)
  | identityContainerMissing
  | identityContainerDuplicate
  | hostImageNotPristine (detail : String)
  | hostImageNoRoom (detail : String)
  | identityContainerInvalid (detail : String)
deriving DecidableEq, Repr

/-! ## The guard's package names -/

/-- `char::is_control`: the general category Cc. -/
def isControl (c : Char) : Bool := c.toNat < 0x20 || (0x7f ≤ c.toNat && c.toNat < 0xa0)

/-- `validate_portable_component`, as whether it passes. -/
def portableComponent (component : List Char) : Bool :=
  !(component.isEmpty || component == ['.'] || component == ['.', '.'] ||
    component.any fun c => c == '\x00' || c == '/' || c == '\\')

def eqIgnoreAsciiCase (left right : List Char) : Bool :=
  left.map Char.toLower == right.map Char.toLower

def isWindowsReservedBasename (basename : List Char) : Bool :=
  ["CON", "PRN", "AUX", "NUL"].any (fun reserved => eqIgnoreAsciiCase basename reserved.toList) ||
    ["COM", "LPT"].any fun start =>
      eqIgnoreAsciiCase (basename.take 3) start.toList &&
        match basename.drop 3 with
        | [c] => ['1', '2', '3', '4', '5', '6', '7', '8', '9', '¹', '²', '³'].contains c
        | _ => false

/-- `validate_windows_component`, as whether it passes. -/
def windowsComponent (component : List Char) : Bool :=
  !(component.contains ':' ||
    component.any (fun c => ['<', '>', '"', '|', '?', '*'].contains c ||
      (1 ≤ c.toNat && c.toNat ≤ 0x1f)) ||
    component.getLast? == some '.' || component.getLast? == some ' ' ||
    isWindowsReservedBasename (component.takeWhile (· != '.')))

/-- `validate_windows_package_component`, as whether it passes. -/
def windowsPackageComponent (component : List Char) : Bool :=
  portableComponent component && windowsComponent component && !component.contains '~'

/-- `path.split('/')`. -/
def components (path : String) : List (List Char) := path.toList.splitOn '/'

/-- The shape every package path has. -/
def windowsPackagePath (path : String) : Bool :=
  !((utf8 path).isEmpty || (utf8 path).length > 100 || path.toList.head? == some '/' ||
    path.toList.getLast? == some '/') && (components path).all windowsPackageComponent

/-- `validate_windows_package_paths`, as whether it passes: each path by itself, and what the
system says of their normal forms and of collisions between them. -/
def windowsPackagePaths (nls : List String → Bool) (paths : List String) : Bool :=
  paths.all windowsPackagePath && nls paths

/-! ## Members -/

inductive ArchiveEntryKind
  | file
  | directory
deriving DecidableEq, Repr

structure ArchiveMember where
  name : String
  kind : ArchiveEntryKind
  size : Nat
deriving DecidableEq, Repr

def updatePolicyPath : String := ".keld/update-policy.v1"

def policyParent : String := ".keld"

def noMigrationPolicy : List Byte := utf8 "\x7b\"schema\":1,\"dataMigration\":\"none\"\x7d\n"

def updaterHelperPath : String := "keld-updater-helper.exe"

/-- `ARCHIVE_BLOCK_BYTES`. -/
def blockBytes : Nat := 512

/-- `MAX_ARTIFACT_BYTES`, the largest integer JSON keeps exact. -/
def maxArtifactBytes : Nat := 9007199254740991

/-- The largest size of eleven octal digits. -/
def maxMemberSize : Nat := 8 ^ 11 - 1

def invalid {α : Type} (detail : String) : Except PackError α := .error (.invalidMetadata detail)

/-- The order of names by their bytes. -/
def byteLt (left right : String) : Bool := utf8 left < utf8 right

/-- The checks of one member behind the name before it. -/
def validateMember (previous : Option String) (member : ArchiveMember) : Except PackError Unit :=
  let name := member.name
  if (utf8 name).length > 100 || name.toList.head? == some '/' ||
      name.toList.getLast? == some '/' then
    invalid "entry name is absolute, trailing-slash, or too long"
  else if (components name).any fun part =>
      part.isEmpty || part == ['.'] || part == ['.', '.'] || part.contains '\\' then
    invalid "entry name has an invalid path component"
  else if previous.any fun prior => !byteLt prior name then
    invalid "entry names are not strictly byte-sorted"
  else if member.size > maxMemberSize then invalid "entry size does not fit canonical ustar"
  else if member.kind = .directory ∧ member.size ≠ 0 then invalid "directory size must be zero"
  else .ok ()

/-- The first loop of `validate_v0_members`. -/
def validateEach (previous : Option String) : List ArchiveMember → Except PackError Unit
  | [] => .ok ()
  | member :: rest => do
    validateMember previous member
    validateEach (some member.name) rest

/-- `child.rsplit_once('/')`, the part in front. -/
def parentOf (child : List Char) : Option (List Char) :=
  match (child.reverse.dropWhile (· != '/')) with
  | [] => none
  | _ :: front => some front.reverse

/-- `entry.name.as_bytes().cmp(name.as_bytes())` -/
def nameOrder (name : List Char) (entry : ArchiveMember) : Ordering :=
  compareOfLessAndEq (utf8 entry.name) (utf8 (String.ofList name))

/-- The walk from a name to its root; a parent is shorter than its child. -/
def validateParents (members : List ArchiveMember) : Nat → List Char → Except PackError Unit
  | 0, _ => .ok ()
  | steps + 1, child =>
    match parentOf child with
    | none => .ok ()
    | some parent =>
      let found := binarySearchBy (nameOrder parent) members
      match found.bind fun index => members[index]?.map ArchiveMember.kind with
      | some .directory => validateParents members steps parent
      | some .file => invalid "a file is an ancestor of another entry"
      | none => invalid "entry is missing an explicit parent directory"

def validateV0Members (members : List ArchiveMember) : Except PackError Unit := do
  validateEach none members
  members.forM fun member =>
    validateParents members member.name.toList.length member.name.toList

def requireUpdaterHelper (members : List ArchiveMember) : Except PackError Unit :=
  match members.filter fun member => member.name == updaterHelperPath with
  | [] => invalid "required keld-updater-helper.exe is missing"
  | _ :: _ :: _ => invalid "keld-updater-helper.exe appears more than once"
  | [helper] =>
    if helper.kind ≠ .file then invalid "keld-updater-helper.exe is not a regular file" else .ok ()

end Keld.Pack
