/-
# `Keld.Guardian.Record` — the generation-control records

The guardian asks and the host answers, one fixed record each: a kind, the
attempt it is about, a process id, a revocation cause and a payload, of which
each kind uses its own.  A response is checked against the request it answers
before anything in it is believed.
-/
import Keld.Runtime.Lifecycle

namespace Keld.Guardian

open Keld.Runtime

/-- The cause has no code where it cannot arise. -/
def encodeRevocationCause : RevocationCause → ℕ
  | .childExited => 1
  | .shutdown => 2
  | .captureFailed => 3
  | .admissionFailed => 4
  | .spawnFailed => 5
  | .waitFailed => 6
  | .linkFailed => 0

def decodeRevocationCause : ℕ → Except RuntimeError RevocationCause
  | 1 => .ok .childExited
  | 2 => .ok .shutdown
  | 3 => .ok .captureFailed
  | 4 => .ok .admissionFailed
  | 5 => .ok .spawnFailed
  | 6 => .ok .waitFailed
  | _ => .error (lifecycleError "macOS guardian generation control decode" .invalidData
      "unknown revocation cause")

def controlPrepare : ℕ := 1
def controlPrepared : ℕ := 2
def controlSpawned : ℕ := 3
def controlRegistered : ℕ := 4
def controlRevoke : ℕ := 5
def controlRevoked : ℕ := 6
def controlClear : ℕ := 7
def controlCleared : ℕ := 8

structure GenerationControlRecord where
  kind : ℕ
  cause : ℕ := 0
  attempt : ℕ
  pid : ℕ := 0
  payload : List UInt8 := []
deriving DecidableEq, Repr

namespace GenerationControlRecord

def new (kind attempt : ℕ) : GenerationControlRecord := { kind := kind, attempt := attempt }

def withPid (r : GenerationControlRecord) (pid : ℕ) : GenerationControlRecord :=
  { r with pid := pid }

def withCause (r : GenerationControlRecord) (cause : RevocationCause) : GenerationControlRecord :=
  { r with cause := encodeRevocationCause cause }

def withPayload (r : GenerationControlRecord) (payload : List UInt8) : GenerationControlRecord :=
  { r with payload := payload }

end GenerationControlRecord

/-- The fields that a response of this kind must have, given its request. -/
def validateControlResponse (request response : GenerationControlRecord) : Bool :=
  if response.kind = controlPrepared then
    request.kind == controlPrepare && response.pid == 0 && response.cause == 0 &&
      !response.payload.isEmpty
  else if response.kind = controlRegistered then
    request.kind == controlSpawned && response.pid == request.pid && response.cause == 0 &&
      response.payload.isEmpty
  else if response.kind = controlRevoked then
    request.kind == controlRevoke && response.pid == 0 && response.cause == 0 &&
      response.payload.isEmpty
  else if response.kind = controlCleared then
    request.kind == controlClear && response.pid == request.pid && response.cause == 0 &&
      response.payload.isEmpty
  else false

end Keld.Guardian
