/-
# `Keld.Runtime.Lifecycle` — errors and causes that the supervisor shares

The typed supervisor errors with their texts, and why a prepared generation
loses its authority.  An error that is handed on under a lifecycle phase keeps
its kind and its text.  Where the host marks an error with a private type, the
type stands for its text, which nothing else writes.
-/
import Mathlib.Tactic.Common
import Mathlib.Data.Int.Notation
import Mathlib.Data.Nat.Notation

namespace Keld.Runtime

/-- The kinds of I/O error that some code distinguishes or makes. -/
inductive IoKind where
  | brokenPipe
  | connectionReset
  | unexpectedEof
  | invalidData
  | timedOut
  | permissionDenied
  | interrupted
  | invalidInput
  | writeZero
  | other
deriving DecidableEq, Repr

structure IoError where
  kind : IoKind
  text : String
deriving DecidableEq, Repr

inductive RuntimeError where
  /-- A spawn attempt failed. -/
  | spawn (source : IoError)
  | lifecycle (phase : String) (source : IoError)
  | crashLoop (crashes windowSecs : ℕ) (lastExitCode : Option ℤ) (stderrTail : String)
  | childCrashed (pid : ℕ) (exitCode : Option ℤ) (stderrTail : String)
deriving DecidableEq, Repr

def RuntimeError.display : RuntimeError → String
  | .spawn e => "KELD-RUNTIME-001: failed to spawn the supervised child — " ++ e.text ++
      ". Check that `bun` is on PATH and re-run `keld doctor`."
  | .lifecycle phase source => "KELD-RUNTIME-003: prepared child lifecycle failed during " ++
      phase ++ " — " ++ source.text ++
      ". Check the role bootstrap endpoint and retry `keld dev`."
  | .crashLoop crashes windowSecs lastExitCode stderrTail =>
    "KELD-RUNTIME-002: child crashed " ++ toString crashes ++ " times within " ++
    toString windowSecs ++ "s (crash-loop breaker tripped); last exit code " ++
    (match lastExitCode with
      | some code => "Some(" ++ toString code ++ ")"
      | none => "None") ++
    ". Fix the crash, then re-run `keld dev`." ++
    (if stderrTail.isEmpty then "" else " stderr tail:\n" ++ stderrTail)
  | .childCrashed pid exitCode stderrTail =>
    "KELD-RUNTIME-012: the supervised app process (pid " ++ toString pid ++ ") " ++
    (match exitCode with
      | some 0 => "exited 0 without a host shutdown request; the crash-loop breaker did not " ++
          "apply. Keep the app process alive while its host-owned session is active."
      | some code => "exited " ++ toString code ++ "; the crash-loop breaker did not trip."
      | none => "was terminated by a signal; the crash-loop breaker did not trip.") ++
    (if exitCode = some 0 then ""
      else " Fix the crash shown in the captured stderr, then re-run `keld dev`.") ++
    (if stderrTail.isEmpty then "" else " stderr tail:\n" ++ stderrTail)

def lifecycleError (phase : String) (kind : IoKind) (text : String) : RuntimeError :=
  .lifecycle phase ⟨kind, text⟩

def runtimeIoKind : RuntimeError → Option IoKind
  | .spawn source | .lifecycle _ source => some source.kind
  | .crashLoop .. | .childCrashed .. => none

def collapseFailures : List RuntimeError → RuntimeError
  | [error] => error
  | failures => lifecycleError "macOS guardian cleanup" .other
      ("; ".intercalate (failures.map RuntimeError.display))

/-- Why a prepared generation lost authority. -/
inductive RevocationCause where
  | childExited
  | shutdown
  /-- Windows only. -/
  | linkFailed
  | captureFailed
  | admissionFailed
  | spawnFailed
  | waitFailed
deriving DecidableEq, Repr

end Keld.Runtime
