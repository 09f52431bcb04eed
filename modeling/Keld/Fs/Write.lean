/-
# `Keld.Fs.Write` — one write through a retained grant

A write looks at the cancel flag and at the clock in front of and behind every
call, and from the call that truncates or creates the file on it answers a
failure with `WriteEffect` and the bytes that were acknowledged so far.

The operating system is the environment: what each look finds and what each call
returns is arbitrary, except that a call that writes takes no more than it is
offered.  A run records its looks, each with the error of the call before it,
and the calls that had an effect.
-/
import Keld.Fs.Prepare
import Keld.Lib.Proc

namespace Keld.Fs

open Proc

open Guard (Text Platform Principal DenyReason)

def maxFsContentBytes : ℕ := 8 * 1024 * 1024

def fsIoChunkBytes : ℕ := 64 * 1024

/-! ## Errors -/

/-- An error of one of the calls that a write makes of itself. -/
inductive StageError where
  | io (source : IoError)
  | alreadyExists
  | writeZero
  /-- `io::Error::other`, for an object that is not what was created. -/
  | notRegular (error : FsError)
deriving DecidableEq

inductive WriteInterruption where
  | io (source : StageError)
  | deadline
  | cancelled
deriving DecidableEq

inductive WriteError where
  | denied (reason : DenyReason)
  | snapshotMismatch (prepared presented : List Byte)
  /-- What a read can end with as well. -/
  | fs (error : FsError)
  | io (source : StageError)
  | writeEffect (cause : WriteInterruption) (committedBytes requestedBytes : ℕ)

namespace WriteError

def deadline : WriteError := .fs .deadline

def cancelled : WriteError := .fs .cancelled

end WriteError

/-! ## Looking at the flag and the clock -/

/-- What the flag and the clock say at one check. -/
structure Sample where
  cancelled : Bool
  expired : Bool
deriving DecidableEq

def Sample.cause (sample : Sample) : Option Interruption :=
  if sample.cancelled then some .cancelled
  else if sample.expired then some .deadline
  else none

/-- A check, with the error of the call it stands behind. -/
structure Check where
  sample : Sample
  stageError : Option StageError := none

def Check.cause (check : Check) : Option WriteInterruption :=
  match check.sample.cause with
  | some .cancelled => some .cancelled
  | some .deadline => some .deadline
  | none => check.stageError.map .io

/-- How an interruption is told, in front of the first effect and behind it. -/
def interrupted (effected : Bool) (committed requested : ℕ) (cause : WriteInterruption) : WriteError :=
  if effected then .writeEffect cause committed requested
  else
    match cause with
    | .cancelled => .cancelled
    | .deadline => .deadline
    | .io source => .io source

/-! ## Runs -/

/-- A call that succeeded and changed something. -/
inductive Effect where
  | truncated (file : Object)
  | created (parent : Object) (leaf : Text) (file : Object)
  | wrote (file : Object) (bytes : List Byte)
deriving DecidableEq

structure WriteRun where
  checks : List Check := []
  /-- Calls that wrote or tried to. -/
  calls : ℕ := 0
  effects : List Effect := []

/-- What the looks and the calls of a write find. -/
structure WriteOs where
  first : Moment
  rounds : ℕ → Round
  sample : ℕ → Sample
  metadata : Except StageError Metadata
  setLen : Except StageError Unit
  createNewFile : Except StageError Object
  write : ℕ → (offered : ℕ) → Except StageError (Fin (offered + 1))

namespace WriteRun

def checked (run : WriteRun) (check : Check) : WriteRun :=
  { run with checks := run.checks ++ [check] }

def effected (run : WriteRun) (effect : Effect) : WriteRun :=
  { run with effects := run.effects ++ [effect] }

end WriteRun

abbrev Writing := Proc WriteRun WriteError

namespace Writing

variable (os : WriteOs)

/-- The next look. -/
def look (stageError : Option StageError) : Writing Check := fun run =>
  let check := { sample := os.sample run.checks.length, stageError }
  (.ok check, run.checked check)

def checkWrite (effected : Bool) (committed requested : ℕ) (stageError : Option StageError) :
    Writing Unit := do
  let check ← look os stageError
  match check.cause with
  | none => pure ()
  | some cause => fail (interrupted effected committed requested cause)

def errorOf {α : Type} : Except StageError α → Option StageError
  | .ok _ => none
  | .error source => some source

/-- `Progress::finish_read_io`, in front of every effect. -/
def finishReadIo {α : Type} (result : Except StageError α) : Writing α := do
  let check ← look os (errorOf result)
  match check.sample.cause with
  | some .cancelled => fail .cancelled
  | some .deadline => fail .deadline
  | none => ofExcept (result.mapError .io)

/-- `file.set_len(0)`. -/
def truncateCall (file : Object) : Writing (Except StageError Unit) := fun run =>
  match os.setLen with
  | .ok () => (.ok (.ok ()), run.effected (.truncated file))
  | .error source => (.ok (.error source), run)

def createCall (parent : Object) (leaf : Text) : Writing (Except StageError Object) := fun run =>
  match os.createNewFile with
  | .ok file => (.ok (.ok file), run.effected (.created parent leaf file))
  | .error source => (.ok (.error source), run)

/-- One call that writes: what is offered is a front of the rest. -/
def writeCall (file : Object) (offered : List Byte) :
    Writing (Except StageError (Fin (offered.length + 1))) := fun run =>
  let answer := os.write run.calls offered.length
  let run := { run with calls := run.calls + 1 }
  match answer with
  | .error source => (.ok (.error source), run)
  | .ok count =>
    -- taking nothing is no effect
    if count.val = 0 then (.ok (.ok count), run)
    else (.ok (.ok count), run.effected (.wrote file (offered.take count)))

/-- The loop of `write_content`; `rest` is what lies behind the offset. -/
def writeContentFrom (file : Object) (requested : ℕ) (committed : ℕ) (rest : List Byte) :
    Writing Unit :=
  if rest = [] then checkWrite os true committed requested none
  else do
    checkWrite os true committed requested none
    let answer ← writeCall os file (rest.take fsIoChunkBytes)
    match answer with
    | .error source => checkWrite os true committed requested (some source)
    | .ok count =>
      if count.val = 0 then checkWrite os true committed requested (some .writeZero)
      else do
        checkWrite os true (committed + count) requested none
        writeContentFrom file requested (committed + count) (rest.drop count)
termination_by rest.length
decreasing_by
  rename_i hrest hcount
  have hpos := List.length_pos_of_ne_nil hrest
  rw [List.length_drop]
  omega

def writeContent (file : Object) (bytes : List Byte) : Writing Unit :=
  writeContentFrom os file bytes.length 0 bytes

/-- A file that the walk opened. -/
def existing (platform : Platform) (grant : RetainedGrant) (path : Text) (bytes : List Byte)
    (file : Object) : Writing Unit := do
  let metadata ← finishReadIo os os.metadata
  ofExcept ((ensureRegularAndDevice platform metadata grant path).mapError .fs)
  checkWrite os false 0 bytes.length none
  let result ← truncateCall os file
  checkWrite os true 0 bytes.length (errorOf result)
  writeContent os file bytes

/-- A leaf that the walk did not find. -/
def missing (platform : Platform) (grant : RetainedGrant) (path : Text) (bytes : List Byte)
    (parent : Object) (leaf : Text) : Writing Unit := do
  checkWrite os false 0 bytes.length none
  let result ← createCall os parent leaf
  match result with
  | .ok file => do
    checkWrite os true 0 bytes.length none
    match os.metadata with
    | .error source => checkWrite os true 0 bytes.length (some source)
    | .ok metadata => do
      checkWrite os true 0 bytes.length none
      ofExcept ((ensureRegularAndDevice platform metadata grant path).mapError fun error =>
        .writeEffect (.io (.notRegular error)) 0 bytes.length)
      writeContent os file bytes
  | .error .alreadyExists => do
    checkWrite os false 0 bytes.length none
    fail (.fs (.resolvedOutOfScope path "final leaf appeared before create-new"))
  | .error source => checkWrite os true 0 bytes.length (some source)

end Writing

namespace FsBroker

variable (platform : Platform) (os : WriteOs) (broker : FsBroker)

/-- `walk` ends within its rounds, so there is always a result. -/
def walkTo (grant : RetainedGrant) (path : Text) : Except FsError WalkResult :=
  (({ platform, grant, requested := path, purpose := .write } : Walker).walk os.first os.rounds).getD
    (.error (.io .notFound))

def writeAllowed (path : Text) (bytes : List Byte) (grantIndex : ℕ) : Writing Unit := do
  Writing.checkWrite os false 0 bytes.length none
  let grant ← ofExcept ((selectedGrant broker.writeGrants grantIndex path).mapError .fs)
  let resolved ← ofExcept ((walkTo platform os grant path).mapError .fs)
  Writing.checkWrite os false 0 bytes.length none
  match resolved with
  | .file file => Writing.existing os platform grant path bytes file
  | .missing parent leaf => Writing.missing os platform grant path bytes parent leaf

def write (verified : VerifiedManifest) (principal : Principal) (path : Text) (bytes : List Byte) :
    Writing Unit := do
  ofExcept (require (broker.preparedDigest = verified.verifiedSha256)
    (.snapshotMismatch broker.preparedDigest verified.verifiedSha256))
  ofExcept ((validateRequestShape path).mapError .fs)
  ofExcept (require (bytes.length ≤ maxFsContentBytes)
    (.fs (.limitExceeded "content-bytes" bytes.length maxFsContentBytes)))
  match Guard.dispatchPrivileged platform verified.manifest principal Guard.Capability.fsWrite path
      (writeAllowed platform os broker path bytes) with
  | .ok result => result
  | .error reason => fail (.denied reason)

end FsBroker

end Keld.Fs
