/-
# `Keld.Strict.Bubblewrap` — what the argument list says

Bubblewrap reads its options one after another, each with a fixed number of
operands, until `--` or the first string that is no option.  `parse` is that
reader and `Operation.args` the writer beside it; what is written is read back
whatever the operands are (`parse_args`), so the list of a strict command is
read as exactly the operations it was put together from (`parse_command`).

The same is shown for the private options of the launcher
(`parse_launcherArgs`).
-/
import Keld.Strict.Command
import Keld.Lib.Mounts

namespace Keld.Strict

open List

/-- The options that take nothing. -/
inductive Flag
  | unshareUser
  | unsharePid
  | unshareNet
  | unshareIpc
  | unshareUts
  | unshareCgroupTry
  | disableUserns
  | assertUsernsDisabled
  | dieWithParent
  | newSession
  | clearenv
deriving DecidableEq

def Flag.text : Flag → String
  | .unshareUser => "--unshare-user"
  | .unsharePid => "--unshare-pid"
  | .unshareNet => "--unshare-net"
  | .unshareIpc => "--unshare-ipc"
  | .unshareUts => "--unshare-uts"
  | .unshareCgroupTry => "--unshare-cgroup-try"
  | .disableUserns => "--disable-userns"
  | .assertUsernsDisabled => "--assert-userns-disabled"
  | .dieWithParent => "--die-with-parent"
  | .newSession => "--new-session"
  | .clearenv => "--clearenv"

def Flag.all : List Flag :=
  [.unshareUser, .unsharePid, .unshareNet, .unshareIpc, .unshareUts, .unshareCgroupTry,
    .disableUserns, .assertUsernsDisabled, .dieWithParent, .newSession, .clearenv]

inductive Unary
  | hostname
  | proc
  | dev
  | tmpfs
  | dir
  | chdir
  | addSeccompFd
deriving DecidableEq

def Unary.text : Unary → String
  | .hostname => "--hostname"
  | .proc => "--proc"
  | .dev => "--dev"
  | .tmpfs => "--tmpfs"
  | .dir => "--dir"
  | .chdir => "--chdir"
  | .addSeccompFd => "--add-seccomp-fd"

def Unary.all : List Unary := [.hostname, .proc, .dev, .tmpfs, .dir, .chdir, .addSeccompFd]

inductive Binary
  | bind
  | roBind
  | setenv
deriving DecidableEq

def Binary.text : Binary → String
  | .bind => "--bind"
  | .roBind => "--ro-bind"
  | .setenv => "--setenv"

def Binary.all : List Binary := [.bind, .roBind, .setenv]

inductive Operation
  | flag (option : Flag)
  | unary (option : Unary) (operand : OsString)
  | binary (option : Binary) (first second : OsString)
deriving DecidableEq

def Operation.args : Operation → List OsString
  | .flag option => [opt option.text]
  | .unary option operand => [opt option.text, operand]
  | .binary option first second => [opt option.text, first, second]

/-- The options of Bubblewrap by their arity. -/
inductive Arity
  | none (option : Flag)
  | one (option : Unary)
  | two (option : Binary)
deriving DecidableEq

/-- The option that a string is. -/
def arity (arg : OsString) : Option Arity :=
  ((Flag.all.map fun flag => (flag.text, Arity.none flag)) ++
    (Unary.all.map fun option => (option.text, Arity.one option)) ++
    (Binary.all.map fun option => (option.text, Arity.two option))).lookup
      ((fromUtf8 arg).getD "")

/-- The operations and what is left for the program that is run. -/
def parse : List OsString → Option (List Operation × List OsString)
  | [] => none
  | arg :: rest =>
    if arg = opt "--" then some ([], rest)
    else
      match arity arg with
      | some (.none flag) => (parse rest).map fun (ops, tail) => (.flag flag :: ops, tail)
      | some (.one option) =>
        match rest with
        | [] => none
        | operand :: rest =>
          (parse rest).map fun (ops, tail) => (.unary option operand :: ops, tail)
      | some (.two option) =>
        match rest with
        | first :: second :: rest =>
          (parse rest).map fun (ops, tail) => (.binary option first second :: ops, tail)
        | _ => none
      -- any other string that starts with a dash is an unknown option
      | none => if arg.head? = some 45 then none else some ([], arg :: rest)

theorem arity_opt (text : String) : arity (opt text) =
    ((Flag.all.map fun flag => (flag.text, Arity.none flag)) ++
      (Unary.all.map fun option => (option.text, Arity.one option)) ++
      (Binary.all.map fun option => (option.text, Arity.two option))).lookup text := by
  unfold arity opt
  rw [fromUtf8_utf8]
  rfl

theorem arity_flag (flag : Flag) : arity (opt flag.text) = some (.none flag) := by
  cases flag <;> decide

theorem arity_unary (option : Unary) : arity (opt option.text) = some (.one option) := by
  cases option <;> decide

theorem arity_binary (option : Binary) : arity (opt option.text) = some (.two option) := by
  cases option <;> decide

theorem ne_separator {arg : OsString} {found : Arity} (h : arity arg = some found) :
    arg ≠ opt "--" := by
  rintro rfl
  rw [arity_opt] at h
  exact absurd h (by rw [show List.lookup "--" _ = none by decide]; exact nofun)

theorem parse_operation (op : Operation) (rest : List OsString) :
    parse (op.args ++ rest) = (parse rest).map fun (ops, tail) => (op :: ops, tail) := by
  cases op with
  | flag flag =>
    show parse (opt flag.text :: rest) = _
    rw [parse, if_neg (ne_separator (arity_flag flag)), arity_flag]
  | unary option operand =>
    show parse (opt option.text :: operand :: rest) = _
    rw [parse, if_neg (ne_separator (arity_unary option)), arity_unary]
  | binary option first second =>
    show parse (opt option.text :: first :: second :: rest) = _
    rw [parse, if_neg (ne_separator (arity_binary option)), arity_binary]

theorem parse_args (ops : List Operation) (tail : List OsString) :
    parse (ops.flatMap Operation.args ++ opt "--" :: tail) = some (ops, tail) := by
  induction ops with
  | nil =>
    show parse (opt "--" :: tail) = _
    rw [parse, if_pos rfl]
  | cons op ops ih => rw [flatMap_cons, append_assoc, parse_operation, ih]; rfl

/-! ## The operations of a strict command -/

def operations (profile : LinuxStrictProfile) (program : AbsPath)
    (sockets : List LinuxSocketMount) (environment : List (OsString × OsString)) :
    List Operation :=
  Flag.all.map .flag ++
    [.unary .hostname (opt "keld"), .unary .proc (opt "/proc"), .unary .dev (opt "/dev"),
      .unary .tmpfs (opt "/tmp"), .unary .tmpfs landlockCanaryRoot.bytes,
      .unary .dir (opt "/runtime"), .binary .roBind program.bytes sandboxProgram.bytes,
      .binary .roBind profile.launcher.bytes sandboxLauncher.bytes] ++
    (directories profile.runtimeMounts sockets).map (.unary .dir) ++
    (profile.runtimeMounts.map fun mount =>
      .binary .roBind mount.source.bytes mount.destination) ++
    (sockets.map fun socket => .binary .roBind socket.source.bytes socket.destination.bytes) ++
    [.binary .bind profile.roleRoot.bytes sandboxRoleRoot.bytes,
      .unary .chdir sandboxRoleRoot.bytes, .unary .addSeccompFd (opt "3"),
      .unary .addSeccompFd (opt "4")] ++
    environment.map fun entry => .binary .setenv entry.1 entry.2

theorem commandInner_ok {host : Host} {profile : LinuxStrictProfile} {program : OsString}
    {args : List OsString} {environment : List (OsString × OsString)}
    {sockets : List LinuxSocketMount} {command : LinuxStrictCommand}
    (h : profile.commandInner host program args environment sockets = .ok command) :
    ∃ path, validateProgram host program = .ok path ∧ command.command = profile.bubblewrap ∧
      command.args = (operations profile path sockets environment).flatMap Operation.args ++
        opt "--" :: launcherArgs profile.runtimeMounts sockets args := by
  obtain ⟨path, hpa, h⟩ := bind_ok.mp h
  obtain ⟨-, h⟩ := bind_unit_ok.mp h
  obtain ⟨-, h⟩ := bind_unit_ok.mp h
  obtain ⟨-, h⟩ := bind_unit_ok.mp h
  cases h
  refine ⟨path, hpa, rfl, ?_⟩
  simp [operations, appendBubblewrapMounts, appendStrictLaunch, Operation.args, bubblewrapFlags,
    Flag.all, Flag.text, Unary.text, Binary.text, flatMap_map]

/-! ## The launcher's own options -/

theorem fromUtf8_opt (text : String) : fromUtf8 (opt text) = some text := fromUtf8_utf8 text

theorem parseLauncherOptions_readonly (readonly readwrite paths rest : List OsString) :
    parseLauncherOptions readonly readwrite
        ((paths.flatMap fun path => [opt "--ro", path]) ++ rest) =
      parseLauncherOptions (readonly ++ paths) readwrite rest := by
  induction paths generalizing readonly with
  | nil => rw [append_nil]; rfl
  | cons path paths ih =>
    show parseLauncherOptions _ _ (opt "--ro" :: path :: (_ ++ rest)) = _
    rw [parseLauncherOptions, if_pos (fromUtf8_opt _)]
    exact (ih (readonly ++ [path])).trans (by rw [append_assoc, singleton_append])

theorem parseLauncherOptions_readwrite (readonly readwrite paths rest : List OsString) :
    parseLauncherOptions readonly readwrite
        ((paths.flatMap fun path => [opt "--rw", path]) ++ rest) =
      parseLauncherOptions readonly (readwrite ++ paths) rest := by
  induction paths generalizing readwrite with
  | nil => rw [append_nil]; rfl
  | cons path paths ih =>
    have ho : fromUtf8 (opt "--rw") ≠ some "--ro" := by
      decide
    show parseLauncherOptions _ _ (opt "--rw" :: path :: (_ ++ rest)) = _
    rw [parseLauncherOptions, if_neg ho, if_pos (fromUtf8_opt _)]
    exact (ih (readwrite ++ [path])).trans (by rw [append_assoc, singleton_append])

theorem parseLauncherOptions_target (readonly readwrite args : List OsString) (program : OsString) :
    parseLauncherOptions readonly readwrite (opt "--" :: program :: args) =
      .ok ⟨readonly, readwrite, program, args⟩ := by
  have hro : fromUtf8 (opt "--") ≠ some "--ro" := by
    decide
  have hrw : fromUtf8 (opt "--") ≠ some "--rw" := by
    decide
  rw [parseLauncherOptions, if_neg hro, if_neg hrw, if_pos (fromUtf8_opt _)]

/-- What a role may read. -/
def readonlyPaths (runtimeMounts : List LinuxReadonlyMount) (sockets : List LinuxSocketMount) :
    List OsString :=
  [sandboxProgram.bytes, sandboxLauncher.bytes, opt "/proc"] ++
    (runtimeMounts.flatMap fun mount =>
      (ancestors mount.destination).filter (namesOf · ≠ []) ++ [mount.destination]) ++
    sockets.map fun socket => AbsPath.bytes socket.destination.dropLast

/-- What a role may write. -/
def readwritePaths : List OsString := [sandboxRoleRoot.bytes, opt "/tmp", opt "/dev"]

/-- The launcher reads back exactly what was written for it. -/
theorem parse_launcherArgs (runtimeMounts : List LinuxReadonlyMount)
    (sockets : List LinuxSocketMount) (args : List OsString) :
    parseLauncherArgs (launcherArgs runtimeMounts sockets args) =
      .ok ⟨readonlyPaths runtimeMounts sockets, readwritePaths, sandboxProgram.bytes, args⟩ := by
  have har : launcherArgs runtimeMounts sockets args =
      sandboxLauncher.bytes :: opt linuxStrictLauncherArg ::
        (((readonlyPaths runtimeMounts sockets).flatMap fun path => [opt "--ro", path]) ++
          ((readwritePaths.flatMap fun path => [opt "--rw", path]) ++
            opt "--" :: sandboxProgram.bytes :: args)) := by
    simp [launcherArgs, readonlyPaths, readwritePaths, flatMap_map, flatMap_assoc]
  rw [har]
  refine (if_pos rfl).trans ?_
  rw [drop_succ_cons, drop_succ_cons, drop_zero]
  rw [parseLauncherOptions_readonly, parseLauncherOptions_readwrite, parseLauncherOptions_target]
  rfl

end Keld.Strict
