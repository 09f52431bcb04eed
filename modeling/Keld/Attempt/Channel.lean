/-
# `Keld.Attempt.Channel` — the accepted connection and its two ends

After the receipt each end is a phase machine over its stream.  The owner reads
the boot acknowledgement, then Ready or a failure, waits out the health window
and writes one health result; the candidate sends its records and reads that
one result.  A step called out of order is refused before any I/O, and after a
failed step only the rollback remains.

A read or write that meets its deadline is one of the failures a stream can
report, so the deadlines themselves do not appear here.
-/
import Keld.Attempt.Records

namespace Keld.Attempt

open Ipc (Instant Duration Env ErrorKind Link Delivery unread)

/-- `WindowsLifecyclePeerPin`: the retained process and what its state queries find. -/
structure Pin where
  processId : UInt32
  sessionId : UInt32
  /-- the nth query whether the process has exited -/
  hasExited : Nat → Except ErrorKind Bool

/-! ## The health window -/

/-- `ATTEMPT_HEALTH_WINDOW`, thirty seconds. -/
def attemptHealthWindow : Duration := 30 * 1000000000

/-- `Duration::MAX` in nanoseconds. -/
def durationMax : Duration := 2 ^ 64 * 1000000000 - 1

inductive AttemptHealthWindowFailure
  | byteReceived
  | endOfFile
  | launchExited
  | launchUnverifiable
  | notObserved
  | unrepresentable
deriving DecidableEq, Repr

inductive WindowRead
  | byte
  | endOfFile
  | deadlineElapsed
deriving DecidableEq, Repr

inductive WindowStep
  | read (until_ : Instant)
  | checkLaunch
  | refuse (failure : AttemptHealthWindowFailure)
deriving DecidableEq, Repr

structure HealthWindow where
  ends : Instant
deriving DecidableEq, Repr

namespace HealthWindow

def ofLength (env : Env) (readyReadAt : Instant) (length : Duration) :
    Except AttemptHealthWindowFailure HealthWindow :=
  match env.checkedAdd readyReadAt length with
  | some ends => .ok ⟨ends⟩
  | none => .error .unrepresentable

def afterReady (env : Env) (readyReadAt : Instant) (margin : Duration) :
    Except AttemptHealthWindowFailure HealthWindow :=
  if attemptHealthWindow + margin ≤ durationMax then
    ofLength env readyReadAt (attemptHealthWindow + margin)
  else .error .unrepresentable

def begin (window : HealthWindow) (now : Instant) : WindowStep :=
  if now < window.ends then .read window.ends else .refuse .notObserved

def afterRead (window : HealthWindow) (read : WindowRead) (now : Instant) : WindowStep :=
  match read with
  | .byte => .refuse .byteReceived
  | .endOfFile => .refuse .endOfFile
  | .deadlineElapsed => if now < window.ends then .read window.ends else .checkLaunch

def afterLaunchCheck (launchExited : Option Bool) : Except AttemptHealthWindowFailure Unit :=
  match launchExited with
  | some false => .ok ()
  | some true => .error .launchExited
  | none => .error .launchUnverifiable

end HealthWindow

/-! ## Errors -/

inductive ExchangeError
  /-- an endpoint operation failed in the operating system -/
  | endpoint (operation : String) (source : ErrorKind)
  | record (err : AttemptRecordError)
  | claimDeadline
  | claimCancelled
  | outOfSequence (step phase : String)
  | candidateFailure (cls : AttemptFailureClass)
  | healthWindow (failure : AttemptHealthWindowFailure) (source : Option ErrorKind)
  | healthRolledBack
deriving DecidableEq, Repr

def ExchangeError.isEndOfFile : ExchangeError → Bool
  | .record (.io source) => source == .unexpectedEof
  | .healthWindow failure _ => failure == .endOfFile
  | _ => false

/-- Why a step of the exchange has no value. -/
inductive ExchangeHalt
  | failed (err : ExchangeError)
  | waiting
  | panicked
deriving DecidableEq, Repr

def ExchangeHalt.ofRecord : RecordHalt → ExchangeHalt
  | .refused err => .failed (.record err)
  | .waiting => .waiting
  | .panicked => .panicked

abbrev ExchangeIo := Proc Link ExchangeHalt

def orEnd {α : Type} (r : Except ExchangeError α) : ExchangeIo α :=
  Proc.ofExcept (r.mapError .failed)

def readRecord (position : AttemptReadPosition) : ExchangeIo AttemptRecord :=
  (readFrom position).mapError .ofRecord

/-- `Instant::now()`. -/
def readClock (env : Env) : ExchangeIo Instant := fun link =>
  (.ok (env.now link.readings), { link with readings := link.readings + 1 })

/-- The expiry of a deadline-bounded read (`ERROR_SEM_TIMEOUT`); an aborted operation is another
error. -/
def isDeadline (source : ErrorKind) : Bool := source == .timedOut

/-! ## The owner -/

inductive OwnerPhase
  | accepted
  | booted
  | ready (readAt : Instant)
  | healthy
  | ended (endOfFile : Bool)
deriving DecidableEq, Repr

def OwnerPhase.describe : OwnerPhase → String
  | .accepted => "after KELD-AR1"
  | .booted => "after KELD-AB1"
  | .ready _ => "after KELD-AY1"
  | .healthy => "after the health window"
  | .ended _ => "after a failure"

structure OwnerChannel where
  link : Link
  pin : Pin
  transcript : AttemptTranscript
  phase : OwnerPhase
  /-- state queries of the pin so far -/
  queries : Nat

abbrev OwnerIo := Proc OwnerChannel ExchangeHalt

/-- What the owner observed after it wrote the accepted result. -/
inductive CloseWait
  | candidateClosed
  | deadlineElapsed
  | bytesReceived
  | readFailed (source : ErrorKind)
  | writeFailed (err : AttemptRecordError)
deriving DecidableEq, Repr

/-- What the owner did on the rollback path. -/
inductive RollBack
  | sent
  | notSentAfterEndOfFile
  | notSentAfterLaunchExit
  | writeFailed (err : AttemptRecordError)
deriving DecidableEq, Repr

/-- Equality of the boot acknowledgements. -/
def AttemptBootAcknowledgement.requireMatch (expected received : AttemptBootAcknowledgement) :
    Except AttemptRecordError Unit := require (expected == received) .bootMismatch

namespace OwnerChannel

def outOfSequence (channel : OwnerChannel) (step : String) : ExchangeError :=
  .outOfSequence step channel.phase.describe

/-- The phase after a step over the stream: the next one, or the end. -/
def settle {α : Type} (channel : OwnerChannel) (next : α → OwnerPhase)
    (r : Except ExchangeHalt α × Link) : Except ExchangeHalt Unit × OwnerChannel :=
  match r with
  | (.ok a, link) => (.ok (), { channel with link := link, phase := next a })
  | (.error (.failed err), link) =>
    (.error (.failed err), { channel with link := link, phase := .ended err.isEndOfFile })
  | (.error halt, link) => (.error halt, { channel with link := link })

/-- The boot acknowledgement the owner builds from the accepted attempt. -/
def expectedBoot (channel : OwnerChannel) (digest : Id) : AttemptBootAcknowledgement :=
  ⟨channel.transcript.attemptId, channel.transcript.healthChannelId, digest⟩

def bootOutcome (expected : AttemptBootAcknowledgement) (record : AttemptRecord) :
    Except ExchangeError Unit :=
  match record with
  | .bootAcknowledgement received => (expected.requireMatch received).mapError .record
  | .failure cls => .error (.candidateFailure cls)
  | other => .error (.record (other.notAdmittedAt .ownerBoot))

def readBootRecord (expected : AttemptBootAcknowledgement) : ExchangeIo Unit := do
  let record ← readRecord .ownerBoot
  orEnd (bootOutcome expected record)

def readBoot (digest : Id) : OwnerIo Unit := fun channel =>
  if channel.phase ≠ .accepted then
    (.error (.failed (channel.outOfSequence "read KELD-AB1")), channel)
  else
    channel.settle (fun _ => .booted) (readBootRecord (channel.expectedBoot digest) channel.link)

/-- Whether the second record is Ready. -/
def readyOutcome (record : AttemptRecord) : Except ExchangeError Unit :=
  match record with
  | .ready => .ok ()
  | .failure cls => .error (.candidateFailure cls)
  | other => .error (.record (other.notAdmittedAt .ownerReady))

def readReadyRecord (env : Env) : ExchangeIo Instant := do
  let record ← readRecord .ownerReady
  orEnd (readyOutcome record)
  readClock env

def readReady (env : Env) : OwnerIo Unit := fun channel =>
  if channel.phase ≠ .booted then
    (.error (.failed (channel.outOfSequence "read KELD-AY1")), channel)
  else channel.settle .ready (readReadyRecord env channel.link)

/-- The launch query at the window's end. -/
def launchOutcome (exited : Except ErrorKind Bool) : Except ExchangeError Unit :=
  match exited with
  | .ok exited =>
    (HealthWindow.afterLaunchCheck (some exited)).mapError fun failure =>
      .healthWindow failure none
  | .error source => .error (.healthWindow .launchUnverifiable (some source))

/-- What `read` into one byte observes, and what it leaves behind. -/
def observe (delivery : Delivery) (rest : List Delivery) :
    Except ErrorKind WindowRead × List Delivery :=
  match delivery with
  | .bytes _ more => (.ok .byte, unread more rest)
  | .eof => (.ok .endOfFile, rest)
  | .failed kind => (if isDeadline kind then .ok .deadlineElapsed else .error kind, rest)

/-- The loop of `decide_window`: it ends as soon as its step is not a read. -/
def decideLoop (env : Env) (window : HealthWindow) (exited : Except ErrorKind Bool) (link : Link)
    (step : WindowStep) (script : List Delivery) : Except ExchangeHalt Unit × Link :=
  match step with
  | .checkLaunch => ((launchOutcome exited).mapError .failed, link)
  | .refuse failure => (.error (.failed (.healthWindow failure none)), link)
  | .read _ =>
    match script with
    | [] => (.error .waiting, link)
    | delivery :: rest =>
      let link := { link with script := (observe delivery rest).2 }
      match (observe delivery rest).1 with
      | .error source => (.error (.failed (.record (.io source))), link)
      | .ok seen =>
        decideLoop env window exited { link with readings := link.readings + 1 }
          (window.afterRead seen (env.now link.readings)) rest

def decideFrom (env : Env) (window : HealthWindow) (exited : Except ErrorKind Bool)
    (step : WindowStep) : ExchangeIo Unit := fun link =>
  decideLoop env window exited link step link.script

def decideWindow (env : Env) (window : HealthWindow) (exited : Except ErrorKind Bool) :
    ExchangeIo Unit := do
  let now ← readClock env
  decideFrom env window exited (window.begin now)

/-- The window of a margin after the read of Ready, decided. -/
def decideHealth (env : Env) (readAt : Instant) (margin : Duration)
    (exited : Except ErrorKind Bool) : ExchangeIo Unit := do
  let window ← orEnd ((HealthWindow.afterReady env readAt margin).mapError fun failure =>
    .healthWindow failure none)
  decideWindow env window exited

def awaitHealthWindow (env : Env) (margin : Duration) : OwnerIo Unit := fun channel =>
  match channel.phase with
  | .ready readAt =>
    let channel' := { channel with queries := channel.queries + 1 }
    channel'.settle (fun _ => .healthy)
      (decideHealth env readAt margin (channel.pin.hasExited channel.queries) channel.link)
  | _ => (.error (.failed (channel.outOfSequence "await the health window")), channel)

/-- A write whose failure the caller reports. -/
def tryWrite (env : Env) (record : AttemptRecord) : OwnerIo (Except AttemptRecordError Unit) :=
  fun channel =>
    match record.writeTo env.writeFault channel.link with
    | (.ok (), link) => (.ok (.ok ()), { channel with link := link })
    | (.error (.refused err), link) => (.ok (.error err), { channel with link := link })
    | (.error halt, link) => (.error (.ofRecord halt), { channel with link := link })

/-- The first half of `accept`: the phase check and the write. -/
def acceptWrite (env : Env) : OwnerIo (Except AttemptRecordError Unit) := fun channel =>
  if channel.phase ≠ .healthy then
    (.error (.failed (channel.outOfSequence "write KELD-AK1 accepted")), channel)
  else tryWrite env (.healthResult .accepted) channel

/-- The second half: one read that waits for the candidate's end of file. -/
def closeWait : OwnerIo CloseWait := fun channel =>
  match channel.link.script with
  | [] => (.error .waiting, channel)
  | delivery :: rest =>
    let (seen, left) := observe delivery rest
    let channel := { channel with link := { channel.link with script := left } }
    match seen with
    | .ok .endOfFile => (.ok .candidateClosed, channel)
    | .ok .byte => (.ok .bytesReceived, channel)
    | .ok .deadlineElapsed => (.ok .deadlineElapsed, channel)
    | .error source => (.ok (.readFailed source), channel)

def accept (env : Env) : OwnerIo CloseWait := do
  match ← acceptWrite env with
  | .error err => return .writeFailed err
  | .ok () => closeWait

def rollBack (env : Env) : OwnerIo RollBack := fun channel =>
  if channel.phase = .ended true then (.ok .notSentAfterEndOfFile, channel)
  else
    let exited := channel.pin.hasExited channel.queries
    let channel := { channel with queries := channel.queries + 1 }
    match exited with
    | .ok true => (.ok .notSentAfterLaunchExit, channel)
    | _ =>
      match tryWrite env (.healthResult .rolledBack) channel with
      | (.ok (.ok ()), channel) => (.ok .sent, channel)
      | (.ok (.error err), channel) => (.ok (.writeFailed err), channel)
      | (.error halt, channel) => (.error halt, channel)

end OwnerChannel

/-! ## The candidate -/

inductive ClaimantPhase
  | accepted
  | booted
  | reported
  | ended
deriving DecidableEq, Repr

def ClaimantPhase.describe : ClaimantPhase → String
  | .accepted => "after KELD-AR1"
  | .booted => "after KELD-AB1"
  | .reported => "after KELD-AY1 or KELD-AF1"
  | .ended => "after a failure"

structure ClaimantChannel where
  link : Link
  transcript : AttemptTranscript
  phase : ClaimantPhase

abbrev ClaimantIo := Proc ClaimantChannel ExchangeHalt

namespace ClaimantChannel

def outOfSequence (channel : ClaimantChannel) (step : String) : ExchangeError :=
  .outOfSequence step channel.phase.describe

def send (env : Env) (record : AttemptRecord) (next : ClaimantPhase) : ClaimantIo Unit :=
  fun channel =>
    match record.writeTo env.writeFault channel.link with
    | (.ok (), link) => (.ok (), { channel with link := link, phase := next })
    | (.error halt, link) =>
      (.error (.ofRecord halt), { channel with link := link, phase := .ended })

def sendBoot (env : Env) (digest : Id) : ClaimantIo Unit := fun channel =>
  if channel.phase ≠ .accepted then
    (.error (.failed (channel.outOfSequence "send KELD-AB1")), channel)
  else
    send env (.bootAcknowledgement
      ⟨channel.transcript.attemptId, channel.transcript.healthChannelId, digest⟩) .booted channel

def sendReady (env : Env) : ClaimantIo Unit := fun channel =>
  if channel.phase ≠ .booted then
    (.error (.failed (channel.outOfSequence "send KELD-AY1")), channel)
  else send env .ready .reported channel

/-- Where the owner will read a failure sent in this phase. -/
def failurePosition : ClaimantPhase → Option AttemptReadPosition
  | .accepted => some .ownerBoot
  | .booted => some .ownerReady
  | .reported | .ended => none

def sendFailure (env : Env) (cls : AttemptFailureClass) : ClaimantIo Unit := fun channel =>
  match failurePosition channel.phase with
  | none => (.error (.failed (channel.outOfSequence "send KELD-AF1")), channel)
  | some position =>
    if position.admitsFailure cls then send env (.failure cls) .reported channel
    else (.error (.failed (.record (.failureClassNotAdmitted position cls))), channel)

def healthOutcome (record : AttemptRecord) : Except ExchangeError Unit :=
  match record with
  | .healthResult .accepted => .ok ()
  | .healthResult .rolledBack => .error .healthRolledBack
  | other => .error (.record (other.notAdmittedAt .candidateHealthResult))

def readHealthResult : ExchangeIo Unit := do
  let record ← readRecord .candidateHealthResult
  orEnd (healthOutcome record)

def awaitHealthAccepted : ClaimantIo Unit := fun channel =>
  if channel.phase ≠ .reported then
    (.error (.failed (channel.outOfSequence "read KELD-AK1")), channel)
  else
    let (r, link) := readHealthResult channel.link
    (r, { channel with link := link })

end ClaimantChannel

end Keld.Attempt
