/-
# `Keld.Attempt.Claim` — the claim exchange

The owner waits on one pipe instance for one claimant.  Every connection runs
the same exchange: the claim, the checks on the connected process, the
challenge, the acknowledgement of the whole transcript, and only then the
one-shot and the receipt.  A refused connection is disconnected and the
instance waits again, under the same deadline.  The claimant runs the other
half, with the locator check before it acknowledges.

What the operating system answers, and when, is the environment's choice; the
log keeps what the owner did in the order it did it.
-/
import Keld.Attempt.Channel

namespace Keld.Attempt

open Ipc (Instant Duration ErrorKind WriteFault Link Delivery SessionToken)

/-! ## Transcripts -/

namespace AttemptTranscript

def join (claim : AttemptClaim) (challenge : AttemptChallenge) : AttemptTranscript :=
  ⟨claim.installationId, challenge.attemptId, challenge.healthChannelId, claim.clientNonce,
    challenge.serverNonce, claim.clientPid, challenge.serverPid⟩

/-- The owner's acceptance of a claim. -/
def forOwner (claim : AttemptClaim) (installationId : Id) (connectedClientPid : UInt32)
    (challenge : AttemptChallenge) : Except AttemptRecordError AttemptTranscript := do
  require (claim.installationId == installationId) .foreignInstallation
  require (claim.clientPid == connectedClientPid)
    (.clientProcessMismatch claim.clientPid connectedClientPid)
  return join claim challenge

/-- Equality field by field; nonces are compared in constant time. -/
def same (transcript received : AttemptTranscript) : Bool :=
  transcript.installationId == received.installationId &&
    transcript.attemptId == received.attemptId &&
    transcript.healthChannelId == received.healthChannelId &&
    transcript.clientNonce.sameAs received.clientNonce &&
    transcript.serverNonce.sameAs received.serverNonce &&
    transcript.clientPid == received.clientPid && transcript.serverPid == received.serverPid

def requireMatch (transcript received : AttemptTranscript) : Except AttemptRecordError Unit :=
  require (transcript.same received) .transcriptMismatch

end AttemptTranscript

/-! ## The locator -/

inductive LocatorInput
  | installationId
  | attemptId
  | healthChannelId
deriving DecidableEq, Repr

inductive LocatorError
  | zeroInput (input : LocatorInput)
  | equalInputs (first second : LocatorInput)
deriving DecidableEq, Repr

def attemptEndpointPrefix : String := "\\\\.\\pipe\\keld-attempt-"

/-- `LOCATOR_DOMAIN`, NUL included. -/
def locatorDomain : List Byte :=
  "keld.attempt-endpoint/v1".toList.map (fun c => UInt8.ofNat c.toNat) ++ [0]

def toHex (bytes : List Byte) : String :=
  String.ofList (bytes.flatMap fun b =>
    [Nat.digitChar (b.toNat / 16), Nat.digitChar (b.toNat % 16)])

section Locator

-- the hash, of a byte string
variable (blake3 : List Byte → Chunk 32)

/-- The one encoder, for the connect-back purpose `1`. -/
def attemptEndpoint (installationId a b : Id) : String :=
  attemptEndpointPrefix ++
    toHex (blake3 (locatorDomain ++ [1] ++ installationId.bytes ++ a.bytes ++ b.bytes)).bytes

def windowsAttemptConnectBackEndpoint (installationId attemptId healthChannelId : Id) :
    Except LocatorError String := do
  require (installationId != .zero idLen) (.zeroInput .installationId)
  require (attemptId != .zero idLen) (.zeroInput .attemptId)
  require (healthChannelId != .zero idLen) (.zeroInput .healthChannelId)
  require (installationId != attemptId) (.equalInputs .installationId .attemptId)
  require (installationId != healthChannelId) (.equalInputs .installationId .healthChannelId)
  require (attemptId != healthChannelId) (.equalInputs .attemptId .healthChannelId)
  return attemptEndpoint blake3 installationId attemptId healthChannelId

/-- The claimant's acceptance of a challenge for its own claim. -/
def AttemptTranscript.forClaimant (claim : AttemptClaim) (challenge : AttemptChallenge)
    (rendezvous : String) (connectedServerPid : UInt32) :
    Except AttemptRecordError AttemptTranscript := do
  require (challenge.serverPid == connectedServerPid)
    (.serverProcessMismatch challenge.serverPid connectedServerPid)
  let derived ← (windowsAttemptConnectBackEndpoint blake3 claim.installationId challenge.attemptId
    challenge.healthChannelId).mapError fun _ => .locatorMismatch
  require (derived == rendezvous) .locatorMismatch
  return join claim challenge

end Locator

/-! ## The owner's side of one connection -/

/-- `WindowsPeerTokenFacts`. -/
structure TokenFacts where
  userSid : List Byte
  sessionId : UInt32
  integrityRid : UInt32
  authenticationId : UInt64
  elevated : Bool
  elevationType : Nat
deriving DecidableEq, Repr

/-- The IDs an endpoint is bound to and the process that serves it. -/
structure Endpoint where
  installation : Id
  attempt : Id
  healthChannel : Id
  processId : UInt32

/-- One connection, as the operating system and the caller's check answer on it. -/
structure Peer where
  /-- what the owner's reads meet -/
  script : List Delivery
  writeFault : Nat → Option WriteFault
  /-- opening a stream on the connected instance -/
  opened : Except ErrorKind Unit
  processId : Except ErrorKind UInt32
  sessionId : Except ErrorKind UInt32
  nonce : Except ErrorKind SessionToken
  token : Except ErrorKind TokenFacts
  /-- the caller's claimant check -/
  checkClaimant : UInt32 → UInt32 → TokenFacts → Option Pin

inductive ClaimRefusal
  | clientIdentity (source : ErrorKind)
  | record (err : AttemptRecordError)
  | token (source : ErrorKind)
  | claimantCheck
  | pinMismatch
  | claimantExited
deriving DecidableEq, Repr

/-- What the owner did, in order. -/
inductive ClaimEvent
  | clock (now : Instant)
  | connected
  | deadlineSet (deadline : Option Instant)
  /-- the record was handed to the stream -/
  | wrote (record : AttemptRecord)
  | consumed
  | refused (refusal : ClaimRefusal)
  | closed
deriving DecidableEq

/-- The clock, the canceller and the pipe instance. -/
structure OwnerEnv where
  /-- the nth reading of the clock -/
  now : Nat → Instant
  /-- the last instant the clock can represent -/
  horizon : Instant
  /-- whether a cancel lands before the nth look at the cancelled flag -/
  cancels : Nat → Bool
  /-- what goes wrong with the nth disconnect -/
  rearmFault : Nat → Option ErrorKind
  closeFault : Option ErrorKind

/-- The instance and the connection on it. -/
structure OwnerState where
  link : Link
  consumed : Bool
  cancelled : Bool
  readings : Nat
  looks : Nat
  rearms : Nat
  log : List ClaimEvent

/-- A fresh instance. -/
def OwnerState.fresh : OwnerState := ⟨.fresh [], false, false, 0, 0, 0, []⟩

/-- How one connection can end without an accepted claimant. -/
inductive Stop
  | refused (refusal : ClaimRefusal)
  | expired
  | cancelled
  | failed (err : ExchangeError)
  | waiting
  | panicked
deriving DecidableEq

abbrev ClaimIo := Proc OwnerState Stop

section Connection

variable (env : OwnerEnv)

def note (event : ClaimEvent) : ClaimIo Unit := fun s =>
  (.ok (), { s with log := s.log ++ [event] })

/-- `Instant::now()`. -/
def ownerClock : ClaimIo Instant := fun s =>
  let now := env.now s.readings
  (.ok now, { s with readings := s.readings + 1, log := s.log ++ [.clock now] })

/-- A record operation on the connection; `stop` is what its refusal becomes. -/
def overLink {α : Type} (stop : AttemptRecordError → Stop) (x : RecordIo α) : ClaimIo α := fun s =>
  let (r, link) := x s.link
  (match r with
    | .ok a => .ok a
    | .error (.refused err) => .error (stop err)
    | .error .waiting => .error .waiting
    | .error .panicked => .error .panicked, { s with link := link })

/-- A query of the operating system; `stop` is what its failure becomes. -/
def asked {α : Type} (stop : ErrorKind → Stop) (answer : Except ErrorKind α) : ClaimIo α :=
  Proc.ofExcept (answer.mapError stop)

def orStop {α : Type} (stop : Stop) (value : Option α) : ClaimIo α :=
  Proc.ofExcept (orElseError value stop)

def refuseRecord (err : AttemptRecordError) : Stop := .refused (.record err)

def orRefuseRecord {α : Type} (r : Except AttemptRecordError α) : ClaimIo α :=
  Proc.ofExcept (r.mapError refuseRecord)

def os (operation : String) (source : ErrorKind) : ExchangeError := .endpoint operation source

/-- A cancel does nothing to a consumed instance. -/
def cancelLands (s : OwnerState) : OwnerState :=
  { s with
    cancelled := s.cancelled || (env.cancels s.looks && !s.consumed)
    looks := s.looks + 1 }

/-- Takes the one-shot unless a cancel acted first. -/
def consume : ClaimIo Bool := fun s =>
  let s := cancelLands env s
  if s.cancelled then (.ok false, s)
  else (.ok true, { s with consumed := true, log := s.log ++ [.consumed] })

/-- `peer_handshake_window`: the deadline of one connection. -/
def peerHandshakeWindow (started deadline : Instant) (limit : Duration) : Option Instant :=
  if started ≤ deadline then
    let timeout := min (deadline - started) limit
    if timeout = 0 then none
    else if started + timeout ≤ env.horizon then some (started + timeout) else none
  else none

/-- The pin reports its process running. -/
def stillRuns (pin : Pin) (query : Nat) : ClaimIo Unit :=
  Proc.ofExcept (require (match pin.hasExited query with
    | .ok false => true
    | _ => false) (.refused .claimantExited))

/-- The record a claimant must send first. -/
def claimOf : AttemptRecord → Except AttemptRecordError AttemptClaim
  | .claim claim => .ok claim
  | other => .error (other.notAdmittedAt .ownerClaim)

def acknowledgementOf : AttemptRecord → Except AttemptRecordError AttemptTranscript
  | .acknowledgement transcript => .ok transcript
  | other => .error (other.notAdmittedAt .ownerAcknowledgement)

/-- Hands a record to the connection. -/
def writeRecord (peer : Peer) (stop : AttemptRecordError → Stop) (record : AttemptRecord) :
    ClaimIo Unit := do
  note (.wrote record)
  overLink stop (record.writeTo peer.writeFault)

variable (endpoint : Endpoint) (peer : Peer) (deadline : Instant) (perConnection : Duration)

/-- The exchange up to the acknowledgement: every check before the one-shot. -/
def admitClaimant : ClaimIo (Pin × AttemptTranscript) := do
  let started ← ownerClock env
  let window ← orStop .expired (peerHandshakeWindow env started deadline perConnection)
  asked (fun source => .failed (os "open the connected instance" source)) peer.opened
  note (.deadlineSet (some window))
  let clientPid ← asked (fun source => .refused (.clientIdentity source)) peer.processId
  let clientSession ← asked (fun source => .refused (.clientIdentity source)) peer.sessionId
  let record ← overLink refuseRecord (readFrom .ownerClaim)
  let claim ← orRefuseRecord (claimOf record)
  let serverNonce ← asked (fun source => .failed (os "draw the server nonce" source)) peer.nonce
  let challenge : AttemptChallenge :=
    ⟨endpoint.attempt, endpoint.healthChannel, serverNonce, endpoint.processId⟩
  let transcript ←
    orRefuseRecord (AttemptTranscript.forOwner claim endpoint.installation clientPid challenge)
  let token ← asked (fun source => .refused (.token source)) peer.token
  let pin ← orStop (.refused .claimantCheck) (peer.checkClaimant clientPid clientSession token)
  Proc.ofExcept (require (pin.processId == clientPid && pin.sessionId == clientSession &&
    token.sessionId == clientSession) (.refused .pinMismatch))
  stillRuns pin 0
  writeRecord peer refuseRecord (.challenge challenge)
  let record ← overLink refuseRecord (readFrom .ownerAcknowledgement)
  let acknowledged ← orRefuseRecord (acknowledgementOf record)
  orRefuseRecord (transcript.requireMatch acknowledged)
  stillRuns pin 1
  return (pin, transcript)

/-- The deadline, the one-shot and the receipt. -/
def grantReceipt (pin : Pin) (transcript : AttemptTranscript) : ClaimIo OwnerChannel := do
  let now ← ownerClock env
  Proc.ofExcept (require (now < deadline) .expired)
  if ← consume env then
    writeRecord peer (fun err => .failed (.record err)) (.receipt transcript)
    note (.deadlineSet none)
    let s ← Proc.state
    return ⟨s.link, pin, transcript, .accepted, 2⟩
  else Proc.fail .cancelled

def exchangeOne : ClaimIo OwnerChannel := do
  let (pin, transcript) ← admitClaimant env endpoint peer deadline perConnection
  grantReceipt env peer deadline pin transcript

end Connection

/-! ## The accept loop -/

/-- What a wait for a claimant can bring. -/
inductive Arrival
  | ready (peer : Peer)
  | peerClosed
  | cancelled
  | deadlineElapsed
  | failed (source : ErrorKind)

/-- `io::ErrorKind::NotConnected`, the answer of an instance that is consumed. -/
def notConnected : ErrorKind := .other 0

section Loop

variable (env : OwnerEnv)

def closeTerminal (s : OwnerState) : Option ErrorKind × OwnerState :=
  (env.closeFault, { s with consumed := true, log := s.log ++ [.closed] })

/-- Closes the instance and reports how the wait ended. -/
def endWith (ended : ExchangeError) (s : OwnerState) :
    Except ExchangeHalt OwnerChannel × OwnerState :=
  match closeTerminal env s with
  | (none, s) => (.error (.failed ended), s)
  | (some source, s) =>
    (.error (.failed (os "close the endpoint at the end of its claim wait" source)), s)

/-- The wait itself closed the instance. -/
def waitEnded (ended : ExchangeError) (s : OwnerState) :
    Except ExchangeHalt OwnerChannel × OwnerState :=
  match closeTerminal env s with
  | (none, s) => (.error (.failed ended), s)
  | (some source, s) => (.error (.failed (os "wait for a claimant" source)), s)

/-- `disconnect_for_retry`: no value when the instance waits again. -/
def disconnectForRetry (s : OwnerState) : Option ErrorKind × OwnerState :=
  if s.consumed then (some notConnected, s)
  else (env.rearmFault s.rearms, { s with rearms := s.rearms + 1 })

variable (endpoint : Endpoint) (deadline : Instant) (perConnection : Duration)

/-- `accept_claim_with`, over what each wait brings; it is still waiting where the list ends. -/
def acceptClaimWith (arrivals : List Arrival) (s : OwnerState) :
    Except ExchangeHalt OwnerChannel × OwnerState :=
  let s := cancelLands env s
  if s.cancelled then endWith env .claimCancelled s
  else
    let now := env.now s.readings
    let s := { s with readings := s.readings + 1, log := s.log ++ [.clock now] }
    if deadline ≤ now then endWith env .claimDeadline s
    else
      match arrivals with
      | [] => (.error .waiting, s)
      | arrival :: rest =>
        let again := fun s : OwnerState =>
          match disconnectForRetry env s with
          | (some source, s) =>
            (.error (.failed (os "disconnect a refused claimant" source)), s)
          | (none, s) => acceptClaimWith rest s
        if s.consumed then (.error (.failed (os "wait for a claimant" notConnected)), s)
        else
          match arrival with
          | .failed source => (.error (.failed (os "wait for a claimant" source)), s)
          | .cancelled => waitEnded env .claimCancelled s
          | .deadlineElapsed => waitEnded env .claimDeadline s
          | .peerClosed => again s
          | .ready peer =>
            let s := { s with link := .fresh peer.script, log := s.log ++ [.connected] }
            match exchangeOne env endpoint peer deadline perConnection s with
            | (.ok channel, s) => (.ok channel, s)
            | (.error (.refused refusal), s) =>
              again { s with log := s.log ++ [.refused refusal] }
            | (.error .expired, s) => endWith env .claimDeadline s
            | (.error .cancelled, s) => endWith env .claimCancelled s
            | (.error (.failed err), s) => (.error (.failed err), s)
            | (.error .waiting, s) => (.error .waiting, s)
            | (.error .panicked, s) => (.error .panicked, s)

end Loop

/-! ## The claimant -/

/-- What the claimant was launched with and what the operating system answers. -/
structure Claimant where
  /-- the rendezvous name -/
  endpoint : String
  processId : UInt32
  serverPid : Except ErrorKind UInt32
  nonce : Except ErrorKind SessionToken
  writeFault : Nat → Option WriteFault

def challengeOf : AttemptRecord → Except AttemptRecordError AttemptChallenge
  | .challenge challenge => .ok challenge
  | other => .error (other.notAdmittedAt .candidateChallenge)

def receiptOf : AttemptRecord → Except AttemptRecordError AttemptTranscript
  | .receipt transcript => .ok transcript
  | other => .error (other.notAdmittedAt .candidateReceipt)

def orRecord {α : Type} (r : Except AttemptRecordError α) : ExchangeIo α :=
  orEnd (r.mapError .record)

def claim (blake3 : List Byte → Chunk 32) (client : Claimant) (installationId : Id) :
    ExchangeIo ClaimantChannel := do
  let serverPid ← orEnd (client.serverPid.mapError (os "query the server process ID"))
  let clientNonce ← orEnd (client.nonce.mapError (os "draw the client nonce"))
  let claim : AttemptClaim := ⟨installationId, clientNonce, client.processId⟩
  ((AttemptRecord.claim claim).writeTo client.writeFault).mapError .ofRecord
  let record ← readRecord .candidateChallenge
  let challenge ← orRecord (challengeOf record)
  let transcript ← orRecord
    (AttemptTranscript.forClaimant blake3 claim challenge client.endpoint serverPid)
  ((AttemptRecord.acknowledgement transcript).writeTo client.writeFault).mapError .ofRecord
  let record ← readRecord .candidateReceipt
  let receipt ← orRecord (receiptOf record)
  orRecord (transcript.requireMatch receipt)
  let link ← Proc.state
  return ⟨link, transcript, .accepted⟩

end Keld.Attempt
