/-
# `Keld.Strict.Command` — the command of the Linux strict profile

A profile holds what a role may see: a launcher, a writable role root and
read-only runtime files.  `commandInner` turns it and the sockets of a role into
one argument list for Bubblewrap, which holds a second one for the launcher
inside the sandbox (`parseLauncherArgs`).

A path is kept as it is written and compared, as `std::path` does, by its
components; behind a root these are names, and a canonical path is the list of
its names (`AbsPath`).  What the file system answers is given by a `Host`.
-/
import Keld.Lib.Except
import Keld.Lib.Text
import Mathlib.Data.List.Dedup
import Mathlib.Data.List.Lex

namespace Keld.Strict

/-! ## Paths -/

abbrev OsString := List Byte

def slash : Byte := 47

def dot : Byte := 46

/-- A name between two separators. -/
def isName (name : OsString) : Bool :=
  name != [] && name != [dot] && name != [dot, dot] && !name.contains slash

abbrev PathName := { name : OsString // isName name = true }

inductive Component
  | rootDir
  | curDir
  | parentDir
  | normal (name : PathName)
deriving DecidableEq

/-- What stands between two separators; nothing and a dot are passed over. -/
def component (part : OsString) : Option Component :=
  if h : isName part = true then some (.normal ⟨part, h⟩)
  else if part = [dot, dot] then some .parentDir
  else none

def components (path : OsString) : List Component :=
  let parts := (path.splitOn slash).filterMap component
  if path.head? = some slash then .rootDir :: parts
  else if (path.splitOn slash).head? = some [dot] then .curDir :: parts
  else parts

/-- The absolute path with these parts behind its root. -/
def joined (parts : List OsString) : OsString :=
  if parts = [] then [slash] else parts.flatMap (slash :: ·)

/-- A canonical path. -/
abbrev AbsPath := List PathName

def AbsPath.bytes (path : AbsPath) : OsString := joined (path.map Subtype.val)

def Component.name? : Component → Option PathName
  | .normal name => some name
  | _ => none

/-- The names of a path. -/
def namesOf (path : OsString) : AbsPath := (components path).filterMap Component.name?

/-- A path that is cut somewhere is cut behind a name. -/
def endsInName (parts : List OsString) : Bool :=
  match parts.getLast? with
  | some part => (component part).isSome
  | none => true

/-- The proper ancestors of an absolute path, `Path::ancestors` without its first. -/
def ancestors (path : OsString) : List OsString :=
  (((((path.splitOn slash).drop 1).inits.filter endsInName).reverse).drop 1).map joined

def startsWith (path base : OsString) : Bool := (components base).isPrefixOf (components path)

/-- A path of the sandbox. -/
def fixed (path : String) : AbsPath := namesOf (utf8 path)

def sandboxProgram : AbsPath := fixed "/runtime/program"
def sandboxLauncher : AbsPath := fixed "/runtime/launcher"
def sandboxRoleRoot : AbsPath := fixed "/app"
def landlockCanaryRoot : AbsPath := fixed "/landlock-probe"

def linuxStrictLauncherArg : String := "--keld-linux-strict-launcher-v1"

/-! ## Errors and the host -/

/-- The text of an error, around a path where it names one. -/
structure Detail where
  text : String
  path : OsString := []
deriving DecidableEq

structure LinuxStrictError where
  phase : String
  detail : Detail
deriving DecidableEq

def LinuxStrictError.new (phase text : String) : LinuxStrictError := ⟨phase, { text := text }⟩

inductive FileKind
  | file
  | directory
  | symlink
  | socket
  | other
deriving DecidableEq, Repr

structure Metadata where
  kind : FileKind
  uid : UInt32
  mode : UInt32
deriving DecidableEq

/-- What the file system answers. -/
structure Host where
  currentEffectiveUid : Except LinuxStrictError UInt32
  /-- of a path as it was given, its last name not followed -/
  symlinkMetadata : OsString → Except String Metadata
  canonicalize : OsString → Except String AbsPath
  metadata : AbsPath → Except String Metadata
  rejectFileCapabilities : OsString → String → Except LinuxStrictError Unit
  validateTrustedAncestors : AbsPath → UInt32 → String → Except LinuxStrictError Unit
  /-- The seccomp policies and the readiness pipe. -/
  seccompFiles : Except LinuxStrictError Unit
  readinessPipe : Except LinuxStrictError Unit
  /-- A path that is no symbolic link is what its canonical path is. -/
  canonical : ∀ {raw : OsString} {path : AbsPath} {found : Metadata},
    canonicalize raw = .ok path → symlinkMetadata raw = .ok found → found.kind ≠ .symlink →
      metadata path = .ok found

def inPhase {α : Type} (phase : String) (r : Except String α) : Except LinuxStrictError α :=
  r.mapError fun text => .new phase text

def octal (n : UInt32) : String := String.ofList (Nat.toDigits 8 n.toNat)

def Metadata.permissions (m : Metadata) : UInt32 := m.mode &&& 0o7777

def bubblewrapModeForbidden : UInt32 := 0o6022

/-! ## The profile -/

section Validation

variable (host : Host)

def validateBubblewrap (path : OsString) : Except LinuxStrictError AbsPath := do
  let metadata ← inPhase "Bubblewrap metadata" (host.symlinkMetadata path)
  let mode := metadata.permissions
  require (metadata.kind == .file)
    (.new "Bubblewrap metadata" "Bubblewrap must be a regular non-symlink file")
  require (metadata.uid == 0 && mode &&& bubblewrapModeForbidden == 0 && mode &&& 0o111 != 0)
    (.new "Bubblewrap metadata" (
      "Bubblewrap must be root-owned, executable, non-setuid/setgid, and not group/world " ++
        s!"writable; uid={metadata.uid} mode=0o" ++ octal mode))
  host.rejectFileCapabilities path "Bubblewrap file capabilities"
  let path ← inPhase "Bubblewrap path" (host.canonicalize path)
  let uid ← host.currentEffectiveUid
  host.validateTrustedAncestors path uid "Bubblewrap ancestor"
  return path

def validateLauncher (path : OsString) : Except LinuxStrictError AbsPath := do
  let metadata ← inPhase "strict launcher metadata" (host.symlinkMetadata path)
  let mode := metadata.permissions
  let currentUid ← host.currentEffectiveUid
  require (metadata.kind == .file && (metadata.uid == 0 || metadata.uid == currentUid) &&
      mode &&& bubblewrapModeForbidden == 0 && mode &&& 0o111 != 0)
    (.new "strict launcher metadata" (
      s!"launcher must be trusted, executable and unprivileged; uid={metadata.uid} mode=0o" ++
        octal mode))
  host.rejectFileCapabilities path "strict launcher file capabilities"
  let path ← inPhase "strict launcher path" (host.canonicalize path)
  host.validateTrustedAncestors path currentUid "strict launcher ancestor"
  return path

def validateRoleRoot (path : OsString) : Except LinuxStrictError AbsPath := do
  let metadata ← inPhase "role root metadata" (host.symlinkMetadata path)
  let mode := metadata.permissions
  let currentUid ← host.currentEffectiveUid
  require (metadata.kind == .directory && metadata.uid == currentUid && mode == 0o700)
    (.new "role root metadata" (
      s!"root must be a current-user-owned non-symlink directory with mode 0o700; uid={metadata.uid}"
        ++ s!" expected_uid={currentUid} mode=0o" ++ octal mode))
  inPhase "role root path" (host.canonicalize path)

def validateProgram (path : OsString) : Except LinuxStrictError AbsPath := do
  let path ← inPhase "target program" (host.canonicalize path)
  let metadata ← inPhase "target program" (host.metadata path)
  require (metadata.kind == .file && metadata.permissions &&& 0o111 != 0)
    (.new "target program" "target must be a regular executable file")
  return path

/-- `validate_environment`; `keys` are the keys met so far. -/
def validateEnvironment (keys : List OsString) :
    List (OsString × OsString) → Except LinuxStrictError Unit
  | [] => .ok ()
  | (key, value) :: rest => do
    require (key != [] && !key.contains 0 && !key.contains 61 && !value.contains 0 &&
        !keys.contains key)
      (.new "target environment"
        "keys must be unique/non-empty/without '=' and keys/values must not contain NUL")
    validateEnvironment (key :: keys) rest

/-- What no runtime file is mounted at, in or over. -/
def reservedPaths : List String :=
  ["/app", "/proc", "/dev", "/tmp", "/runtime", "/landlock-probe"]

def Component.isNormal : Component → Bool
  | .normal _ => true
  | _ => false

/-- The loop over the reserved paths. -/
def rejectReserved (destination : OsString) : List String → Except LinuxStrictError Unit
  | [] => .ok ()
  | reserved :: rest => do
    require (!startsWith destination (utf8 reserved))
      (.new "runtime mount destination" s!"destination overlaps reserved path {reserved}")
    rejectReserved destination rest

def validateRuntimeDestination (destination : OsString) : Except LinuxStrictError Unit := do
  let parts := components destination
  require (parts.head? == some .rootDir && (parts.drop 1).all Component.isNormal &&
      parts != [.rootDir])
    (.new "runtime mount destination" "destination must be a normalized absolute path below root")
  rejectReserved destination reservedPaths

structure LinuxReadonlyMount where
  source : AbsPath
  destination : OsString
deriving DecidableEq

structure LinuxSocketMount where
  source : AbsPath
  destination : AbsPath
deriving DecidableEq

def LinuxReadonlyMount.new (source destination : OsString) :
    Except LinuxStrictError LinuxReadonlyMount := do
  let source ← inPhase "runtime mount source" (host.canonicalize source)
  let metadata ← inPhase "runtime mount source" (host.metadata source)
  require (metadata.kind == .file)
    (.new "runtime mount source"
      "source must be a regular file; directory-wide code mounts are forbidden")
  validateRuntimeDestination destination
  return ⟨source, destination⟩

def LinuxSocketMount.new (endpoint : OsString) (phase : String) :
    Except LinuxStrictError LinuxSocketMount := do
  let metadata ← inPhase phase (host.symlinkMetadata endpoint)
  let currentUid ← host.currentEffectiveUid
  let mode := metadata.permissions
  require (metadata.kind == .socket && metadata.uid == currentUid)
    (.new phase (
      s!"endpoint must be a current-user-owned non-symlink socket; uid={metadata.uid}" ++
        s!" expected_uid={currentUid} mode=0o" ++ octal mode))
  let source ← inPhase phase (host.canonicalize endpoint)
  -- `parent()` has no value for the root alone.
  require (source != []) (.new phase "socket endpoint has no parent directory")
  let parent ← inPhase phase (host.symlinkMetadata (AbsPath.bytes source.dropLast))
  let parentMode := parent.permissions
  require (parent.uid == currentUid && parentMode == 0o700)
    (.new phase (
      s!"socket parent must be current-user-owned mode 0o700; uid={parent.uid}" ++
        s!" expected_uid={currentUid} mode=0o" ++ octal parentMode))
  host.validateTrustedAncestors source currentUid phase
  return ⟨source, source⟩

structure LinuxStrictProfile where
  bubblewrap : AbsPath
  launcher : AbsPath
  roleRoot : AbsPath
  runtimeMounts : List LinuxReadonlyMount
  debugSockets : List LinuxSocketMount

namespace LinuxStrictProfile

def new (bubblewrap launcher roleRoot : OsString) : Except LinuxStrictError LinuxStrictProfile := do
  let bubblewrap ← validateBubblewrap host bubblewrap
  let launcher ← validateLauncher host launcher
  let roleRoot ← validateRoleRoot host roleRoot
  return ⟨bubblewrap, launcher, roleRoot, [], []⟩

def readonlyRuntime (profile : LinuxStrictProfile) (source destination : OsString) :
    Except LinuxStrictError LinuxStrictProfile := do
  let mount ← LinuxReadonlyMount.new host source destination
  require (!profile.runtimeMounts.any (components ·.destination == components mount.destination))
    ⟨"runtime mount", ⟨"duplicate destination ", mount.destination⟩⟩
  return { profile with runtimeMounts := profile.runtimeMounts ++ [mount] }

def debugReadonlySocket (profile : LinuxStrictProfile) (endpoint : OsString) :
    Except LinuxStrictError LinuxStrictProfile := do
  let socket ← LinuxSocketMount.new host endpoint "debug socket"
  require (!profile.debugSockets.any (·.destination == socket.destination))
    ⟨"debug socket", ⟨"duplicate endpoint ", AbsPath.bytes socket.destination⟩⟩
  return { profile with debugSockets := profile.debugSockets ++ [socket] }

end LinuxStrictProfile

/-! ## The arguments -/

/-- An option of ours. -/
def opt (text : String) : OsString := utf8 text

/-- `BTreeSet::insert` of a path: one that is there already stays as it is. -/
def insertPath (paths : List OsString) (path : OsString) : List OsString :=
  if paths.any (components · == components path) then paths else paths ++ [path]

/-- The order in which a `BTreeSet` of absolute paths is read. -/
def pathLe (left right : OsString) : Bool :=
  decide ((namesOf left).map (·.val.map UInt8.toNat) ≤ (namesOf right).map (·.val.map UInt8.toNat))

/-- The directories that are made for the destinations. -/
def directories (runtimeMounts : List LinuxReadonlyMount) (sockets : List LinuxSocketMount) :
    List OsString :=
  let paths :=
    (runtimeMounts.flatMap fun mount => (ancestors mount.destination).filter (namesOf · ≠ [])) ++
      sockets.flatMap fun socket =>
        (ancestors socket.destination.bytes).filter fun path =>
          namesOf path ≠ [] ∧ namesOf path ≠ fixed "/tmp"
  (paths.foldl insertPath []).mergeSort pathLe

/-- The options that are the same for every command. -/
def bubblewrapFlags : List String :=
  ["--unshare-user", "--unshare-pid", "--unshare-net", "--unshare-ipc", "--unshare-uts",
    "--unshare-cgroup-try", "--disable-userns", "--assert-userns-disabled", "--die-with-parent",
    "--new-session", "--clearenv"]

def appendBubblewrapMounts (program launcher roleRoot : AbsPath)
    (runtimeMounts : List LinuxReadonlyMount) (sockets : List LinuxSocketMount) : List OsString :=
  bubblewrapFlags.map opt ++
    [opt "--hostname", opt "keld", opt "--proc", opt "/proc", opt "--dev", opt "/dev",
      opt "--tmpfs", opt "/tmp", opt "--tmpfs", landlockCanaryRoot.bytes, opt "--dir",
      opt "/runtime", opt "--ro-bind", program.bytes, sandboxProgram.bytes, opt "--ro-bind",
      launcher.bytes, sandboxLauncher.bytes] ++
    ((directories runtimeMounts sockets).flatMap fun directory => [opt "--dir", directory]) ++
    (runtimeMounts.flatMap fun mount =>
      [opt "--ro-bind", mount.source.bytes, mount.destination]) ++
    (sockets.flatMap fun socket =>
      [opt "--ro-bind", socket.source.bytes, socket.destination.bytes]) ++
    [opt "--bind", roleRoot.bytes, sandboxRoleRoot.bytes]

/-- What the launcher is run with. -/
def launcherArgs (runtimeMounts : List LinuxReadonlyMount) (sockets : List LinuxSocketMount)
    (args : List OsString) : List OsString :=
  [sandboxLauncher.bytes, opt linuxStrictLauncherArg, opt "--ro", sandboxProgram.bytes, opt "--ro",
      sandboxLauncher.bytes, opt "--ro", opt "/proc"] ++
    (runtimeMounts.flatMap fun mount =>
      (((ancestors mount.destination).filter (namesOf · ≠ [])).flatMap fun parent =>
        [opt "--ro", parent]) ++ [opt "--ro", mount.destination]) ++
    (sockets.flatMap fun socket => [opt "--ro", AbsPath.bytes socket.destination.dropLast]) ++
    [opt "--rw", sandboxRoleRoot.bytes, opt "--rw", opt "/tmp", opt "--rw", opt "/dev"] ++
    [opt "--", sandboxProgram.bytes] ++ args

def appendStrictLaunch (runtimeMounts : List LinuxReadonlyMount) (sockets : List LinuxSocketMount)
    (environment : List (OsString × OsString)) (args : List OsString) : List OsString :=
  [opt "--chdir", sandboxRoleRoot.bytes, opt "--add-seccomp-fd", opt "3", opt "--add-seccomp-fd",
      opt "4"] ++
    (environment.flatMap fun entry => [opt "--setenv", entry.1, entry.2]) ++
    opt "--" :: launcherArgs runtimeMounts sockets args

structure LinuxStrictCommand where
  command : AbsPath
  args : List OsString

namespace LinuxStrictProfile

def commandInner (profile : LinuxStrictProfile) (program : OsString) (args : List OsString)
    (environment : List (OsString × OsString)) (sockets : List LinuxSocketMount) :
    Except LinuxStrictError LinuxStrictCommand := do
  let program ← validateProgram host program
  validateEnvironment [] environment
  host.seccompFiles
  host.readinessPipe
  return ⟨profile.bubblewrap,
    appendBubblewrapMounts program profile.launcher profile.roleRoot profile.runtimeMounts sockets ++
      appendStrictLaunch profile.runtimeMounts sockets environment args⟩

def command (profile : LinuxStrictProfile) (program : OsString) (args : List OsString)
    (environment : List (OsString × OsString)) : Except LinuxStrictError LinuxStrictCommand :=
  profile.commandInner host program args environment []

/-- The debug sockets come first, where the build has them. -/
def commandForAppLink (profile : LinuxStrictProfile) (program : OsString) (args : List OsString)
    (environment : List (OsString × OsString)) (appLinkEndpoint : OsString) :
    Except LinuxStrictError LinuxStrictCommand := do
  let appLink ← LinuxSocketMount.new host appLinkEndpoint "authenticated app-link"
  profile.commandInner host program args environment (profile.debugSockets ++ [appLink])

end LinuxStrictProfile

end Validation

/-! ## The launcher -/

structure LauncherArgs where
  readonly : List OsString
  readwrite : List OsString
  program : OsString
  args : List OsString
deriving DecidableEq

def launcherError (text : String) : LinuxStrictError := .new "launcher arguments" text

/-- The loop of `parse_launcher_args`. -/
def parseLauncherOptions (readonly readwrite : List OsString) :
    List OsString → Except LinuxStrictError LauncherArgs
  | [] => .error (launcherError "missing target separator")
  | option :: rest =>
    if fromUtf8 option = some "--ro" then
      match rest with
      | [] => .error (launcherError "missing read-only path")
      | path :: rest => parseLauncherOptions (readonly ++ [path]) readwrite rest
    else if fromUtf8 option = some "--rw" then
      match rest with
      | [] => .error (launcherError "missing read-write path")
      | path :: rest => parseLauncherOptions readonly (readwrite ++ [path]) rest
    else if fromUtf8 option = some "--" then
      match rest with
      | [] => .error (launcherError "missing target program")
      | program :: args => .ok ⟨readonly, readwrite, program, args⟩
    else .error (launcherError "unknown private launcher option")

def parseLauncherArgs (args : List OsString) : Except LinuxStrictError LauncherArgs :=
  if (args.drop 1).head? = some (opt linuxStrictLauncherArg) then
    parseLauncherOptions [] [] (args.drop 2)
  else .error (launcherError "missing private discriminator")

end Keld.Strict
