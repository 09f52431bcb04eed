/-
# `Keld.Ipc.Receive` — the receiver's semantic contract

A receiver selects a `ReceivePolicy` before it looks at any byte, and
`validateReceivedHeader` checks a decoded header against it in a fixed order:
kind, flags, channel, correlation, declared length.  The first check that fails
gives the error.  A `ValidatedFrameHeader` can only come from there: it carries
the policy it passed.

The primary app link multiplexes several rows of the contract on one stream.
`validatePrimaryAppHeaderWithPrivilegedCalls` picks the policy from trusted host
state, the pending echo correlation and the host's own list of guarded
channels, never from the wire.
-/
import Keld.Ipc.Frame

namespace Keld.Ipc

/-! ## Errors -/

/-- The `std::io::ErrorKind`s the link tells apart. -/
inductive ErrorKind
  | interrupted
  | timedOut
  | wouldBlock
  | unexpectedEof
  | other (code : Nat)
deriving DecidableEq, Repr

inductive IpcError
  | io (kind : ErrorKind)
  | header (err : HeaderError)
  | codec
  | payloadTooLarge
  | protocol (detail : String)
  | helloAuth (detail : String)
  | timeout
deriving DecidableEq, Repr

/-- `From<std::io::Error>`: an expired socket deadline is a timeout. -/
def IpcError.ofIo : ErrorKind → IpcError
  | .timedOut => .timeout
  | .wouldBlock => .timeout
  | kind => .io kind

/-! ## The channel table -/

/-- Reserved for `HELLO`, never allocated. -/
def handshakeChannel : ChannelId := ⟨0⟩

/-- Which receive-policy family may name a channel. -/
inductive ReceiveClass
  | hostCall
  | hostCallWithEvents
  | guardedCall
deriving DecidableEq, Repr

/-- What authorizes a call on a channel. -/
inductive Authority
  | hostInternal
  | guarded (capabilities : List String)
deriving DecidableEq, Repr

structure ChannelEntry where
  name : String
  id : ChannelId
  receiveClass : ReceiveClass
  authority : Authority
deriving DecidableEq, Repr

def echo : ChannelEntry := ⟨"echo", ⟨1⟩, .hostCall, .hostInternal⟩
def fs : ChannelEntry := ⟨"fs", ⟨2⟩, .guardedCall, .guarded ["fs.read", "fs.write"]⟩
def lifecycle : ChannelEntry := ⟨"lifecycle", ⟨3⟩, .hostCallWithEvents, .hostInternal⟩
def auth : ChannelEntry := ⟨"auth", ⟨4⟩, .guardedCall, .guarded ["auth.begin", "auth.token"]⟩
def window : ChannelEntry := ⟨"window", ⟨5⟩, .hostCallWithEvents, .hostInternal⟩

/-- Every allocated channel: entries are built nowhere else. -/
def channelTable : List ChannelEntry := [echo, fs, lifecycle, auth, window]

/-! ## Policies -/

inductive Direction
  | fromClient
  | fromServer
deriving DecidableEq, Repr

inductive SessionPhase
  | preAuth
  | authenticated
deriving DecidableEq, Repr

inductive PayloadMode
  | exactLen (len : UInt32)
  | empty
  | codec
deriving DecidableEq, Repr

inductive ExpectedCorrelation
  | zero
  | nonZero
  | exactly (corr : CorrelationId)
deriving DecidableEq, Repr

/-- A set of frame kinds, as a bitmask over their bytes. -/
structure AllowedKinds where
  mask : UInt16
deriving DecidableEq, Repr

def AllowedKinds.only (kind : FrameKind) : AllowedKinds := ⟨1 <<< kind.toU8.toUInt16⟩

def AllowedKinds.with (kinds : AllowedKinds) (kind : FrameKind) : AllowedKinds :=
  ⟨kinds.mask ||| 1 <<< kind.toU8.toUInt16⟩

def AllowedKinds.contains (kinds : AllowedKinds) (kind : FrameKind) : Bool :=
  kinds.mask &&& 1 <<< kind.toU8.toUInt16 != 0

@[simp] theorem AllowedKinds.contains_only (kind other : FrameKind) :
    (only kind).contains other = (other == kind) := by
  cases kind <;> cases other <;> decide

@[simp] theorem AllowedKinds.contains_reply_err (kind : FrameKind) :
    ((only .reply).with .err).contains kind = (kind == .reply || kind == .err) := by
  cases kind <;> decide

structure ReceivePolicy where
  direction : Direction
  phase : SessionPhase
  channel : ChannelId
  payload : PayloadMode
  expectedCorr : ExpectedCorrelation
  kinds : AllowedKinds
  /-- the liveness probe is admissible on this session -/
  allowPing : Bool
  /-- second declared channel of the one multiplexed session -/
  alsoChannel : Option ChannelId
deriving DecidableEq, Repr

/-- Bytes of a session token. -/
def sessionTokenLen : Nat := 32

namespace ReceivePolicy

def hello (direction : Direction) : ReceivePolicy where
  direction := direction
  phase := .preAuth
  channel := handshakeChannel
  payload := .exactLen (UInt32.ofNat sessionTokenLen)
  expectedCorr := .zero
  kinds := .only .hello
  allowPing := false
  alsoChannel := none

def serverPreAuthHello : ReceivePolicy := hello .fromClient

def clientAwaitHello : ReceivePolicy := hello .fromServer

def lifecycleReceiver : ReceivePolicy where
  direction := .fromClient
  phase := .authenticated
  channel := lifecycle.id
  payload := .codec
  expectedCorr := .nonZero
  kinds := .only .call
  allowPing := true
  alsoChannel := none

def windowReceiver : ReceivePolicy := { lifecycleReceiver with channel := window.id }

def primaryAppReceiver : ReceivePolicy where
  direction := .fromClient
  phase := .authenticated
  channel := echo.id
  payload := .codec
  expectedCorr := .nonZero
  kinds := .only .call
  allowPing := true
  alsoChannel := some lifecycle.id

def primaryEchoReplyWaiter (corr : CorrelationId) : ReceivePolicy where
  direction := .fromClient
  phase := .authenticated
  channel := echo.id
  payload := .codec
  expectedCorr := .exactly corr
  kinds := (AllowedKinds.only .reply).with .err
  allowPing := false
  alsoChannel := none

/-- Only a guarded entry admits the privileged policy. -/
def privilegedCallReceiver (entry : ChannelEntry) : Except IpcError ReceivePolicy := do
  require (entry.receiveClass == .guardedCall) (.protocol "channel class does not admit this policy")
  return {
    direction := .fromClient
    phase := .authenticated
    channel := entry.id
    payload := .codec
    expectedCorr := .nonZero
    kinds := .only .call
    allowPing := false
    alsoChannel := none }

end ReceivePolicy

/-! ## The validator -/

/-- Flag bits a structured session permits: none. -/
def structuredFlagsMask : UInt16 := 0

@[simp] theorem and_not_structuredFlagsMask (flags : UInt16) :
    flags &&& ~~~structuredFlagsMask = flags := by
  simp [structuredFlagsMask]

def ExpectedCorrelation.check (corr : CorrelationId) : ExpectedCorrelation → Except IpcError Unit
  | .zero => require (corr == ⟨0⟩) (.protocol "correlation must be 0 for this frame")
  | .nonZero => require (corr != ⟨0⟩) (.protocol "correlation 0 is reserved")
  | .exactly expected =>
    require (corr == expected) (.protocol "correlation does not match the awaited call")

def PayloadMode.check (len : UInt32) : PayloadMode → Except IpcError Unit
  | .exactLen expected =>
    require (len == expected) (.protocol "payload length does not match the declared exact shape")
  | .empty => require (len == 0) (.protocol "payload must be empty for this frame")
  | .codec => .ok ()

/-- The checks of `validate_received_header`, in the order the contract fixes. -/
def ReceivePolicy.check (policy : ReceivePolicy) (header : FrameHeader) : Except IpcError Unit :=
  if policy.allowPing && header.kind == .ping then do
    -- channel and correlation of the probe are echoed, not constrained
    require (header.flags &&& ~~~structuredFlagsMask == 0) (.protocol "PING flags must be 0")
    require (header.len == 0) (.protocol "PING payload must be empty")
  else do
    require (policy.kinds.contains header.kind)
      (.protocol "frame kind is not declared by the session policy")
    require (header.flags &&& flagRaw == 0)
      (.protocol "FLAG_RAW is invalid for a structured session")
    require (header.flags &&& ~~~structuredFlagsMask == 0)
      (.protocol "unknown flag bits are reserved")
    require (header.channel == policy.channel || policy.alsoChannel == some header.channel)
      (.protocol "wrong channel for the session policy")
    policy.expectedCorr.check header.corr
    policy.payload.check header.len

/-- A header some policy has admitted. -/
structure ValidatedFrameHeader where
  header : FrameHeader
  admitted : ∃ policy : ReceivePolicy, policy.check header = .ok ()
deriving DecidableEq

def validateReceivedHeader (policy : ReceivePolicy) (header : FrameHeader) :
    Except IpcError ValidatedFrameHeader :=
  match h : policy.check header with
  | .ok () => .ok ⟨header, policy, h⟩
  | .error err => .error err

variable {policy : ReceivePolicy} {header : FrameHeader}

theorem validateReceivedHeader_ok {v : ValidatedFrameHeader} :
    validateReceivedHeader policy header = .ok v ↔
      policy.check header = .ok () ∧ v.header = header := by
  unfold validateReceivedHeader
  split
  next h =>
    constructor
    · intro hv
      cases hv
      exact ⟨h, rfl⟩
    · rintro ⟨-, hv⟩
      cases v with
      | mk header' admitted =>
        cases hv
        rfl
  next err h =>
    rw [h]
    constructor
    · intro hv
      cases hv
    · rintro ⟨hv, -⟩
      cases hv

theorem validateReceivedHeader_error {err : IpcError} :
    validateReceivedHeader policy header = .error err ↔ policy.check header = .error err := by
  unfold validateReceivedHeader
  split
  next h => simp [h]
  next e h => simp [h]

/-! ## The primary app link -/

/-- The first entry of the host's list that names the header's channel. -/
def firstMatch (calls : List ChannelEntry) (header : FrameHeader) : Option ChannelEntry :=
  calls.find? (fun entry => header.channel == entry.id)

def validatePrimaryAppHeaderWithPrivilegedCalls (pendingEchoReply : Option CorrelationId)
    (privilegedCalls : List ChannelEntry) (header : FrameHeader) :
    Except IpcError ValidatedFrameHeader :=
  match header.kind with
  | .reply | .err =>
    match pendingEchoReply with
    | none => .error (.protocol "frame kind is not declared by the session policy")
    | some corr => validateReceivedHeader (.primaryEchoReplyWaiter corr) header
  | .call =>
    if header.channel = window.id then
      validateReceivedHeader .windowReceiver header
    else
      match firstMatch privilegedCalls header with
      | some entry => do
        let policy ← ReceivePolicy.privilegedCallReceiver entry
        validateReceivedHeader policy header
      | none => validateReceivedHeader .primaryAppReceiver header
  | _ => validateReceivedHeader .primaryAppReceiver header

/-- What the channel's owner says of one guarded call. -/
inductive GuardedCallAdmission
  | admitted
  | atCapacity
  | rejectSession
deriving DecidableEq, Repr

/-- The owner of a guarded channel is asked for the first entry that names it; every other frame
is admitted. -/
def guardedOutcome (privilegedCalls : List ChannelEntry)
    (admission : ChannelEntry → CorrelationId → GuardedCallAdmission) (header : FrameHeader) :
    GuardedCallAdmission :=
  if header.kind = .call then
    match firstMatch privilegedCalls header with
    | some entry => admission entry header.corr
    | none => .admitted
  else .admitted

/-- The closure `read_primary_app_frame_interruptible_with_admission` hands its reader: the
header's policy, then the owner of the guarded channel. -/
def validatePrimaryAppAdmission (pendingEchoReply : Option CorrelationId)
    (privilegedCalls : List ChannelEntry)
    (admission : ChannelEntry → CorrelationId → GuardedCallAdmission) (header : FrameHeader) :
    Except IpcError (ValidatedFrameHeader × GuardedCallAdmission) := do
  let validated ←
    validatePrimaryAppHeaderWithPrivilegedCalls pendingEchoReply privilegedCalls header
  let outcome := guardedOutcome privilegedCalls admission header
  require (outcome != .rejectSession)
    (.protocol "privileged Call is already outstanding for this session")
  return (validated, outcome)

end Keld.Ipc
