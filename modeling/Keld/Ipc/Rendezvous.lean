/-
# `Keld.Ipc.Rendezvous` — the lifecycle rendezvous of a keeper

A listener admits one client on a stable pipe name.  On each connection two nonces are
echoed as `HELLO` frames; then the listener sends its binding as a challenge (`LC1`),
the client answers with an acknowledgement (`LA1`), the listener takes its one-shot and
confirms it with a receipt (`LR1`).  All three carry the binding, both nonces and both
process ids.

A listener is called again and again and meets one party after another: an honest
client, which runs `connectWindowsLifecycleRendezvousUntil`, or anybody.  What a client
hears is what the listener has written to its connection, in order; what the system
answers comes from the run.
-/
import Keld.Ipc.Bootstrap
import Keld.Lib.Layout

namespace Keld.Ipc

/-! ## Bindings -/

/-- `[u8; 32]` -/
abbrev LifecycleId := Chunk 32

/-- Whether all bytes are zero. -/
def LifecycleId.zero (id : LifecycleId) : Bool := id.bytes.all (· == 0)

inductive WindowsLifecyclePurpose
  | coordinatorToKeeper
  | keeperToSuccessor
deriving DecidableEq, Repr

/-- `purpose as u8`. -/
def WindowsLifecyclePurpose.toU8 : WindowsLifecyclePurpose → Byte
  | .coordinatorToKeeper => 1
  | .keeperToSuccessor => 2

/-- What `WindowsLifecycleBinding::new` refuses. -/
def aliased (installationId attemptId lifecycleChannelId : LifecycleId) : Bool :=
  installationId.zero || attemptId.zero || lifecycleChannelId.zero ||
    installationId == attemptId || installationId == lifecycleChannelId ||
    attemptId == lifecycleChannelId

structure WindowsLifecycleBinding where
  installationId : LifecycleId
  attemptId : LifecycleId
  lifecycleChannelId : LifecycleId
  purpose : WindowsLifecyclePurpose
  distinct : aliased installationId attemptId lifecycleChannelId = false
deriving DecidableEq

/-- An `io::Error` made by this code. -/
inductive RefusedKind
  | invalidInput
  | permissionDenied
  | timedOut
  | connectionAborted
  | notConnected
deriving DecidableEq, Repr

inductive RendezvousError
  | io (kind : ErrorKind)
  | ipc (err : IpcError)
  | refused (kind : RefusedKind) (text : String)
deriving DecidableEq, Repr

def WindowsLifecycleBinding.new (installationId attemptId lifecycleChannelId : LifecycleId)
    (purpose : WindowsLifecyclePurpose) : Except RendezvousError WindowsLifecycleBinding :=
  if h : aliased installationId attemptId lifecycleChannelId = true then
    .error (.refused .invalidInput "lifecycle identifiers must be nonzero and distinct")
  else .ok ⟨installationId, attemptId, lifecycleChannelId, purpose, Bool.eq_false_iff.mpr h⟩

inductive WindowsLifecycleBindingKnowledge
  | independentlyExpected
  | keeperSuppliedAwaitingJournalRevalidation
deriving DecidableEq, Repr

structure WindowsLifecycleExpectation where
  installationId : LifecycleId
  attemptId : Option LifecycleId
  lifecycleChannelId : Option LifecycleId
  purpose : WindowsLifecyclePurpose
deriving DecidableEq

namespace WindowsLifecycleExpectation

def exact (binding : WindowsLifecycleBinding) : WindowsLifecycleExpectation where
  installationId := binding.installationId
  attemptId := some binding.attemptId
  lifecycleChannelId := some binding.lifecycleChannelId
  purpose := binding.purpose

def fromKeeper (installationId : LifecycleId) :
    Except RendezvousError WindowsLifecycleExpectation :=
  if installationId.zero then
    .error (.refused .invalidInput "lifecycle install identity must be nonzero")
  else .ok ⟨installationId, none, none, .keeperToSuccessor⟩

def accepts (expectation : WindowsLifecycleExpectation) (binding : WindowsLifecycleBinding) :
    Option WindowsLifecycleBindingKnowledge :=
  if expectation.installationId ≠ binding.installationId ∨
      expectation.purpose ≠ binding.purpose then none
  else
    match expectation.attemptId, expectation.lifecycleChannelId with
    | some attempt, some channel =>
      if attempt = binding.attemptId ∧ channel = binding.lifecycleChannelId then
        some .independentlyExpected
      else none
    | none, none =>
      if expectation.purpose = .keeperToSuccessor then
        some .keeperSuppliedAwaitingJournalRevalidation
      else none
    | _, _ => none

end WindowsLifecycleExpectation

/-! ## Records -/

def lifecycleBindingRecordLen : ℕ := 8 + 1 + 32 * 3 + 32 * 2 + 4 * 2

/-- `b"KELD-LC1"`, the challenge. -/
def challengeMagic : List Byte := [75, 69, 76, 68, 45, 76, 67, 49]

/-- `b"KELD-LA1"`, the acknowledgement. -/
def acknowledgementMagic : List Byte := [75, 69, 76, 68, 45, 76, 65, 49]

/-- `b"KELD-LR1"`, the receipt. -/
def receiptMagic : List Byte := [75, 69, 76, 68, 45, 76, 82, 49]

/-- What both sides put into their records. -/
structure Transcript where
  binding : WindowsLifecycleBinding
  clientNonce : SessionToken
  serverNonce : SessionToken
  clientPid : UInt32
  serverPid : UInt32
deriving DecidableEq

def lifecycleBindingRecord (magic : List Byte) (t : Transcript) : List Byte :=
  magic ++ ([t.binding.purpose.toU8] ++ (t.binding.installationId.bytes ++
    (t.binding.attemptId.bytes ++ (t.binding.lifecycleChannelId.bytes ++ (t.clientNonce.bytes ++
      (t.serverNonce.bytes ++ (leBytes 4 t.clientPid.toNat ++ leBytes 4 t.serverPid.toNat)))))))

/-- Thirty-two bytes of a record: their range is checked. -/
def lifecycleIdAt (record : List Byte) (start : ℕ) : Except RendezvousError LifecycleId :=
  if h : (slice record start 32).length = 32 then .ok ⟨slice record start 32, h⟩
  else .error (.io (.other 0))

def lifecyclePurposeOf : Byte → Except RendezvousError WindowsLifecyclePurpose
  | 1 => .ok .coordinatorToKeeper
  | 2 => .ok .keeperToSuccessor
  | _ => .error (.refused .permissionDenied "keeper challenge has an unknown lifecycle purpose")

def decodeLifecycleChallenge (record : List Byte) (clientNonce serverNonce : SessionToken)
    (clientPid serverPid : UInt32) : Except RendezvousError WindowsLifecycleBinding := do
  require (slice record 0 8 == challengeMagic && slice record 105 32 == clientNonce.bytes &&
      slice record 137 32 == serverNonce.bytes && slice record 169 4 == leBytes 4 clientPid.toNat &&
      slice record 173 4 == leBytes 4 serverPid.toNat)
    (.refused .permissionDenied
      "keeper challenge has wrong protocol, nonce or connected-process transcript")
  let purpose ← lifecyclePurposeOf (record.getD 8 0)
  let installationId ← lifecycleIdAt record 9
  let attemptId ← lifecycleIdAt record 41
  let lifecycleChannelId ← lifecycleIdAt record 73
  WindowsLifecycleBinding.new installationId attemptId lifecycleChannelId purpose

/-! ## The two programs on a stream -/

inductive RendezvousHalt
  | failed (err : RendezvousError)
  | waiting
deriving DecidableEq, Repr

abbrev RendezvousIo := Proc Link RendezvousHalt

def ofIpc {α : Type} (x : Io α) : RendezvousIo α :=
  x.mapError fun
    | .failed err => .failed (.ipc err)
    | .waiting => .waiting

def orRefuse {α : Type} (r : Except RendezvousError α) : RendezvousIo α :=
  Proc.ofExcept (r.mapError .failed)

def readRecord : RendezvousIo (List Byte) :=
  (readExactIo lifecycleBindingRecordLen).mapError fun
    | .failed kind => .failed (.io kind)
    | .waiting => .waiting

/-- `Write::write_all`, with the error of the standard library. -/
def writeRecord (env : Env) (bytes : List Byte) : RendezvousIo Unit := fun link =>
  let link' := { link with writes := link.writes + 1 }
  match env.writeFault link.writes with
  | none => (.ok (), { link' with written := link.written ++ bytes })
  | some fault =>
    (.error (.failed (.io fault.kind)),
      { link' with written := link.written ++ bytes.take fault.put })

/-- The one payload length a `HELLO` of a policy can have is checked once more. -/
def readRendezvousHello (env : Env) (policy : ReceivePolicy) : Io SessionToken := do
  let (validated, payload) ← readValidatedFrame env policy
  if h : validated.header.kind = .hello ∧ payload.length = sessionTokenLen then
    return ⟨payload, h.2⟩
  else
    orFail (.error (.protocol "lifecycle rendezvous HELLO is not the exact 32-byte shape"))

/-- `handshake_server_rendezvous`, with what the callback and the random source give. -/
def handshakeServerRendezvous {α : Type} (env : Env) (authenticatePeer : Except IpcError α)
    (random : Except IpcError SessionToken) : Io (SessionToken × SessionToken × α) := do
  let clientNonce ← readRendezvousHello env .serverPreAuthHello
  let peer ← orFail authenticatePeer
  writeHello env clientNonce
  let serverNonce ← orFail random
  writeHello env serverNonce
  readAndVerifyHello env serverNonce .serverPreAuthHello
  return (clientNonce, serverNonce, peer)

def handshakeClientRendezvous (env : Env) (random : Except IpcError SessionToken) :
    Io (SessionToken × SessionToken) := do
  let clientNonce ← orFail random
  writeHello env clientNonce
  readAndVerifyHello env clientNonce .clientAwaitHello
  let serverNonce ← readRendezvousHello env .clientAwaitHello
  writeHello env serverNonce
  return (clientNonce, serverNonce)

/-- The receipt is returned: it is not sent yet. -/
def authenticateLifecycleBindingServer (env : Env) (t : Transcript) : RendezvousIo (List Byte) := do
  writeRecord env (lifecycleBindingRecord challengeMagic t)
  let acknowledgement ← readRecord
  orRefuse (require (acknowledgement == lifecycleBindingRecord acknowledgementMagic t)
    (.refused .permissionDenied
      "lifecycle acknowledgement does not match the authenticated install/attempt/peer"))
  return lifecycleBindingRecord receiptMagic t

def authenticateLifecycleBindingClient (env : Env) (expectation : WindowsLifecycleExpectation)
    (clientNonce serverNonce : SessionToken) (clientPid serverPid : UInt32) :
    RendezvousIo (WindowsLifecycleBinding × WindowsLifecycleBindingKnowledge) := do
  let received ← readRecord
  let binding ← orRefuse
    (decodeLifecycleChallenge received clientNonce serverNonce clientPid serverPid)
  let knowledge ← orRefuse (orElseError (expectation.accepts binding)
    (.refused .permissionDenied
      "keeper lifecycle challenge changed install, attempt, channel or purpose"))
  let t : Transcript := ⟨binding, clientNonce, serverNonce, clientPid, serverPid⟩
  writeRecord env (lifecycleBindingRecord acknowledgementMagic t)
  let receipt ← readRecord
  orRefuse (require (receipt == lifecycleBindingRecord receiptMagic t)
    (.refused .permissionDenied
      "lifecycle listener did not confirm one-use context consumption"))
  return (binding, knowledge)

/-! ## The client -/

/-- A retained process: `WindowsLifecyclePeerPin`. -/
structure PeerPin where
  processId : UInt32
  sessionId : UInt32
deriving DecidableEq, Repr

/-- What the system answers a client, in the order it asks. -/
structure ClientAnswers where
  lifecycleEndpoint : Bool
  connect : Except ErrorKind Unit
  /-- The pipe tells the process id of its server, or fails. -/
  peerProcessId : Except ErrorKind Unit
  peerSessionId : Except ErrorKind UInt32
  authenticateServer : Option PeerPin
  exited : Except ErrorKind Bool
  started : Instant
  horizon : Instant
  setDeadlines : Except ErrorKind Unit
  nonce : Except IpcError SessionToken
  exitedAfter : Except ErrorKind Bool
  finished : Instant

structure HonestClient where
  expectation : WindowsLifecycleExpectation
  deadline : Instant
  env : Env
  answers : ClientAnswers

/-- `WindowsLifecycleRendezvousClient` -/
structure RendezvousClient where
  transcript : Transcript
  bindingKnowledge : WindowsLifecycleBindingKnowledge
deriving DecidableEq

def orIo {α : Type} (r : Except ErrorKind α) : RendezvousIo α :=
  Proc.ofExcept (r.mapError fun kind => .failed (.io kind))

def connectWindowsLifecycleRendezvousUntil (client : HonestClient) (clientPid serverPid : UInt32) :
    RendezvousIo RendezvousClient := do
  let answers := client.answers
  orRefuse (require answers.lifecycleEndpoint
    (.refused .invalidInput
      "lifecycle rendezvous endpoint is not in the lifecycle protocol namespace"))
  orIo answers.connect
  orIo answers.peerProcessId
  let sessionId ← orIo answers.peerSessionId
  let process ← orRefuse (orElseError answers.authenticateServer
    (.refused .permissionDenied "lifecycle server process identity was not authenticated"))
  let mismatch := RendezvousError.refused .permissionDenied
    "retained lifecycle server process pin mismatches the connected pipe"
  orRefuse (require (process.processId == serverPid && process.sessionId == sessionId) mismatch)
  let exited ← orIo answers.exited
  orRefuse (require (!exited) mismatch)
  let _ ← orRefuse (orElseError
    (peerHandshakeWindow answers.horizon answers.started (some client.deadline) appLinkIoDeadline)
    (.refused .timedOut "lifecycle rendezvous deadline elapsed before handshake"))
  orIo answers.setDeadlines
  let (clientNonce, serverNonce) ← ofIpc (handshakeClientRendezvous client.env answers.nonce)
  let (binding, bindingKnowledge) ← authenticateLifecycleBindingClient client.env
    client.expectation clientNonce serverNonce clientPid serverPid
  let exitedAfter ← orIo answers.exitedAfter
  orRefuse (require (!exitedAfter)
    (.refused .connectionAborted
      "authenticated lifecycle server exited during the nonce exchange"))
  orRefuse (require (answers.finished < client.deadline)
    (.refused .timedOut "lifecycle rendezvous deadline elapsed after handshake"))
  return ⟨⟨binding, clientNonce, serverNonce, clientPid, serverPid⟩, bindingKnowledge⟩

/-! ## The listener with one peer -/

/-- What the listener is made with. -/
structure RendezvousConfig where
  binding : WindowsLifecycleBinding
  processId : UInt32
  horizon : Instant

/-- What the system and the policy of the caller answer about a peer. -/
structure PeerAnswers where
  /-- The session of `last_client_token_facts`. -/
  tokenSession : Except ErrorKind UInt32
  authenticateClient : Option PeerPin
  exited : Except ErrorKind Bool
  nonce : Except IpcError SessionToken
  exitedAfter : Except ErrorKind Bool

/-- The callback of the handshake. -/
def authenticatePeer (peerProcessId peerSessionId : UInt32) (answers : PeerAnswers) :
    Except IpcError PeerPin := do
  let tokenSession ← answers.tokenSession.mapError .ofIo
  let pin ← orElseError answers.authenticateClient
    (.helloAuth "lifecycle peer rejected by process identity policy")
  let mismatch := IpcError.helloAuth "lifecycle peer pin does not match the connected endpoint"
  require (pin.processId == peerProcessId && pin.sessionId == peerSessionId &&
    tokenSession == peerSessionId) mismatch
  let exited ← answers.exited.mapError .ofIo
  require (!exited) mismatch
  return pin

inductive PeerAdmission
  | hostFailed
  | refused
  | acknowledged (t : Transcript) (pin : PeerPin)

/-- A connection being admitted. -/
structure PeerAttempt where
  env : Env
  answers : PeerAnswers
  processId : UInt32
  sessionId : UInt32

/-- The exchange of `accept_until` up to the acknowledgement. -/
def admitPeer (config : RendezvousConfig) (attempt : PeerAttempt) : RendezvousIo PeerAdmission := do
  let (clientNonce, serverNonce, pin) ← ofIpc (handshakeServerRendezvous attempt.env
    (authenticatePeer attempt.processId attempt.sessionId attempt.answers) attempt.answers.nonce)
  match attempt.answers.exitedAfter with
  | .error _ => return .hostFailed
  | .ok true => return .refused
  | .ok false =>
    let t : Transcript :=
      ⟨config.binding, clientNonce, serverNonce, attempt.processId, config.processId⟩
    let _ ← authenticateLifecycleBindingServer attempt.env t
    return .acknowledged t pin

/-! ## The listener -/

/-- Who is at the other end of a connection, and what has passed over it. -/
structure RendezvousParty where
  pid : UInt32
  /-- An honest client, or anybody. -/
  client : Option HonestClient
  /-- What the reads of the client have met. -/
  met : List Delivery := []
  /-- What the listener has written in attempts that are over, and its receipt. -/
  sent : List Byte := []
  /-- A write to it has failed; nothing that is written later arrives. -/
  broken : Bool := false
  /-- How much of what it has sent was read in attempts that are over. -/
  taken : ℕ := 0

def HonestClient.run (client : HonestClient) (pid serverPid : UInt32) (met : List Delivery) :
    Except RendezvousHalt RendezvousClient × Link :=
  connectWindowsLifecycleRendezvousUntil client pid serverPid (.fresh met)

def PeerAttempt.run (config : RendezvousConfig) (attempt : PeerAttempt) (heard : List Delivery) :
    Except RendezvousHalt PeerAdmission × Link :=
  admitPeer config attempt (.fresh heard)

/-- Whether a write has failed. -/
def Link.broke (env : Env) (link : Link) : Bool :=
  (List.range link.writes).any fun n => (env.writeFault n).isSome

inductive RendezvousResult
  | failed
  | none
  | peer (conn : ℕ) (t : Transcript)
deriving DecidableEq

/-- What a run notes. -/
inductive RendezvousFact
  | called (deadline : Instant)
  | accepted (conn : ℕ)
  | windowed (conn : ℕ) (started until_ : Instant)
  | refused (conn : ℕ)
  /-- The acknowledgement of a connection came after all that was read in this attempt. -/
  | acknowledged (conn : ℕ) (t : Transcript) (pin : PeerPin) (attempt : PeerAttempt)
      (heard : List Delivery)
  | consumed (conn : ℕ)
  /-- The instance is being closed for good. -/
  | closed (time : Instant)
  | hostFailed
  | spent
  | returned (result : RendezvousResult) (time : Instant)

/-- Where `accept_until` is. -/
inductive RendezvousLoop
  | idle
  | top
  | accept
  | openStream (conn : ℕ)
  | window (conn : ℕ)
  | setDeadlines (conn : ℕ)
  | peerProcessId (conn : ℕ)
  | peerSessionId (conn : ℕ)
  | tryClone (conn : ℕ) (sessionId : UInt32)
  | exchange (conn : ℕ) (attempt : PeerAttempt) (heard : List Delivery)
  | acknowledged (conn : ℕ) (t : Transcript)
  | consume (conn : ℕ) (t : Transcript)
  | confirm (conn : ℕ) (t : Transcript)
  | unconfirmed
  | confirmed (conn : ℕ) (t : Transcript)
  | closing
  | retry

inductive RendezvousEvent
  | tick (elapsed : Duration)
  | call (deadline : Instant)
  | advance
  /-- The instance waits; a party connects unless one is connected still. -/
  | acceptUntil (outcome : WaitOutcome) (pid : UInt32) (client : Option HonestClient)
  | openStream (ok : Bool)
  | setDeadlines (ok : Bool)
  | peerProcessId (ok : Bool)
  | peerSessionId (sessionId : Option UInt32)
  | tryClone (ok : Bool) (env : Env) (answers : PeerAnswers)
  /-- A read of the listener, or of a client, meets this. -/
  | hear (delivery : Delivery)
  | meet (conn : ℕ) (delivery : Delivery)
  | confirm (fault : Option WriteFault)
  | closeTerminal (ok : Bool)
  | disconnect (ok : Bool)

structure RendezvousListener where
  config : RendezvousConfig
  /-- Whether the instance is in the listener's slot. -/
  server : Bool := true
  consumed : Bool := false
  parties : List RendezvousParty := []
  /-- The party the instance is connected with. -/
  connection : Option ℕ := none
  now : Instant := 0
  deadline : Instant := 0
  loop : RendezvousLoop := .idle
  log : List RendezvousFact := []

/-- What an honest client has written. -/
def RendezvousParty.said (serverPid : UInt32) (party : RendezvousParty) : List Byte :=
  match party.client with
  | none => []
  | some client => (client.run party.pid serverPid party.met).2.written

/-- Whether a party can have sent these bytes: anybody sends what it likes. -/
def RendezvousParty.canSend (serverPid : UInt32) (party : RendezvousParty) (bytes : List Byte) :
    Bool :=
  party.client.isNone || bytes.isPrefixOf ((party.said serverPid).drop party.taken)

/-- An attempt ends with its link so. -/
def RendezvousParty.after (party : RendezvousParty) (env : Env) (heard : List Delivery)
    (link : Link) : RendezvousParty :=
  { party with
    sent := if party.broken then party.sent else party.sent ++ link.written
    broken := party.broken || link.broke env
    taken := party.taken + ((arriving heard).length - (arriving link.script).length) }

namespace RendezvousListener

def goto (s : RendezvousListener) (loop : RendezvousLoop) : RendezvousListener :=
  { s with loop := loop }

def note (s : RendezvousListener) (fact : RendezvousFact) : RendezvousListener :=
  { s with log := s.log ++ [fact] }

def finish (s : RendezvousListener) (result : RendezvousResult) : RendezvousListener :=
  (s.note (.returned result s.now)).goto .idle

def failed (s : RendezvousListener) : RendezvousListener := (s.note .hostFailed).finish .failed

def update (s : RendezvousListener) (conn : ℕ) (f : RendezvousParty → RendezvousParty) :
    RendezvousListener :=
  { s with parties := s.parties.modify conn f }

/-- What the attempt under way has written to a party. -/
def writing (s : RendezvousListener) (conn : ℕ) : List Byte :=
  match s.loop with
  | .exchange other attempt heard =>
    if other = conn then (attempt.run s.config heard).2.written else []
  | _ => []

/-- What a party can have met. -/
def told (s : RendezvousListener) (conn : ℕ) (party : RendezvousParty) : List Byte :=
  if party.broken then party.sent else party.sent ++ s.writing conn

def advance (s : RendezvousListener) : RendezvousListener :=
  match s.loop with
  | .top =>
    if ¬ s.server then (s.note .spent).finish .failed
    else if s.deadline ≤ s.now then s.goto .closing else s.goto .accept
  | .window conn =>
    match peerHandshakeWindow s.config.horizon s.now (some s.deadline) appLinkIoDeadline with
    | none => s.goto .closing
    | some (_, until_) => (s.note (.windowed conn s.now until_)).goto (.setDeadlines conn)
  | .exchange conn attempt heard =>
    match attempt.run s.config heard with
    | (.error .waiting, _) => s
    | (.error (.failed _), link) =>
      ((s.update conn (·.after attempt.env heard link)).note (.refused conn)).goto .retry
    | (.ok .refused, link) =>
      ((s.update conn (·.after attempt.env heard link)).note (.refused conn)).goto .retry
    | (.ok .hostFailed, link) => (s.update conn (·.after attempt.env heard link)).failed
    | (.ok (.acknowledged t pin), link) =>
      ((s.update conn (·.after attempt.env heard link)).note
        (.acknowledged conn t pin attempt heard)).goto (.acknowledged conn t)
  | .acknowledged conn t => if s.deadline ≤ s.now then s.goto .closing else s.goto (.consume conn t)
  -- No canceller reaches this instance, so its one-shot is not refused.
  | .consume conn t =>
    ({ s with
      consumed := true
      server := false }.note (.consumed conn)).goto (.confirm conn t)
  | .unconfirmed => if s.deadline ≤ s.now then s.finish .none else s.failed
  | .confirmed conn t =>
    if s.deadline ≤ s.now then s.finish .none else s.finish (.peer conn t)
  | _ => s

/-- A party is there: the one that is still connected, or a new one. -/
def connect (s : RendezvousListener) (pid : UInt32) (client : Option HonestClient) :
    RendezvousListener × ℕ :=
  match s.connection with
  | some conn => (s.note (.accepted conn), conn)
  | none =>
    let conn := s.parties.length
    let party : RendezvousParty :=
      { pid := pid
        client := client }
    ({ s with
      parties := s.parties ++ [party]
      connection := some conn }.note (.accepted conn), conn)

def refuse (s : RendezvousListener) (conn : ℕ) : RendezvousListener :=
  (s.note (.refused conn)).goto .retry

def acceptUntil (s : RendezvousListener) (outcome : WaitOutcome) (pid : UInt32)
    (client : Option HonestClient) : RendezvousListener :=
  if s.consumed then (s.note .spent).finish .failed
  else
    match outcome with
    | .failed => s.failed
    -- Nobody cancels this instance.
    | .cancelled => s
    | .deadlineElapsed => if s.deadline ≤ s.now then s.goto .closing else s
    | .peerClosed => (s.connect pid client).1.refuse (s.connect pid client).2
    | .ready => (s.connect pid client).1.goto (.openStream (s.connect pid client).2)

/-- A read of the listener meets this. -/
def hear (s : RendezvousListener) (delivery : Delivery) : RendezvousListener :=
  match s.loop with
  | .exchange conn attempt heard =>
    match s.parties[conn]?, (attempt.run s.config heard).1 with
    | some party, .error .waiting =>
      if party.canSend s.config.processId (arriving (heard ++ [delivery])) then
        s.goto (.exchange conn attempt (heard ++ [delivery]))
      else s
    | _, _ => s
  | _ => s

/-- A read of a client meets this. -/
def meet (s : RendezvousListener) (conn : ℕ) (delivery : Delivery) : RendezvousListener :=
  match s.parties[conn]? with
  | none => s
  | some party =>
    match party.client with
    | none => s
    | some client =>
      match (client.run party.pid s.config.processId party.met).1 with
      | .error .waiting =>
        if (arriving (party.met ++ [delivery])).isPrefixOf (s.told conn party) then
          s.update conn fun party => { party with met := party.met ++ [delivery] }
        else s
      | _ => s

def confirm (s : RendezvousListener) (conn : ℕ) (t : Transcript) (fault : Option WriteFault) :
    RendezvousListener :=
  let receipt := lifecycleBindingRecord receiptMagic t
  let put := match fault with
    | none => receipt
    | some fault => receipt.take fault.put
  let s := s.update conn fun party =>
    { party with sent := if party.broken then party.sent else party.sent ++ put }
  match fault with
  | none => s.goto (.confirmed conn t)
  | some _ => s.goto .unconfirmed

def step (s : RendezvousListener) : RendezvousEvent → RendezvousListener
  | .tick elapsed => { s with now := s.now + elapsed }
  | .call deadline =>
    match s.loop with
    | .idle => ({ s with deadline := deadline }.note (.called deadline)).goto .top
    | _ => s
  | .advance => s.advance
  | .acceptUntil outcome pid client =>
    match s.loop with
    | .accept => s.acceptUntil outcome pid client
    | _ => s
  | .openStream ok =>
    match s.loop with
    | .openStream conn => if ok then s.goto (.window conn) else s.failed
    | _ => s
  | .setDeadlines ok =>
    match s.loop with
    | .setDeadlines conn => if ok then s.goto (.peerProcessId conn) else s.failed
    | _ => s
  | .peerProcessId ok =>
    match s.loop with
    | .peerProcessId conn => if ok then s.goto (.peerSessionId conn) else s.refuse conn
    | _ => s
  | .peerSessionId sessionId =>
    match s.loop with
    | .peerSessionId conn =>
      match sessionId with
      | some sessionId => s.goto (.tryClone conn sessionId)
      | none => s.refuse conn
    | _ => s
  | .tryClone ok env answers =>
    match s.loop with
    | .tryClone conn sessionId =>
      match ok, s.parties[conn]? with
      -- The pipe tells the process id of its client truthfully.
      | true, some party => s.goto (.exchange conn ⟨env, answers, party.pid, sessionId⟩ [])
      | _, _ => s.failed
    | _ => s
  | .hear delivery => s.hear delivery
  | .meet conn delivery => s.meet conn delivery
  | .confirm fault =>
    match s.loop with
    | .confirm conn t => s.confirm conn t fault
    | _ => s
  | .closeTerminal ok =>
    match s.loop with
    | .closing =>
      let s := { s with consumed := true }.note (.closed s.now)
      if ok then { s with server := false }.finish .none else s.failed
    | _ => s
  | .disconnect ok =>
    match s.loop with
    | .retry => if ok then { s with connection := none }.goto .top else s.failed
    | _ => s

def run (config : RendezvousConfig) (events : List RendezvousEvent) : RendezvousListener :=
  events.foldl step { config := config }

/-- An honest client has completed. -/
def Completes (s : RendezvousListener) (conn : ℕ) (done : RendezvousClient) : Prop :=
  ∃ party client, s.parties[conn]? = some party ∧ party.client = some client ∧
    (client.run party.pid s.config.processId party.met).1 = .ok done

end RendezvousListener

end Keld.Ipc
