/-
# `Keld.Kipc.Receive` — the application side's receive policies

The TypeScript transport has its own copy of the receive contract: policies as
plain objects, and `validateReceivedHeader` with the same checks in the same
order as the host's.  The Worker that owns the socket does not let a frame
choose its policy.  `selectInboundPolicy` picks one from the frame's kind and
channel, the role's validated receive table and the map of pending calls, and
the validator runs under it.

Numbers are natural numbers here: a decoded header's fields are unsigned, and
`requireChannel` turns every other JavaScript value away.
-/
import Keld.Lib.Except
import Keld.Lib.OrdMap
import Mathlib.Data.Int.Notation
import Mathlib.Data.Nat.Basic

namespace Keld.Kipc

/-- An error of the transport: its code and its detail. -/
structure KipcError where
  code : String
  detail : String
deriving DecidableEq, Repr

/-! ## Constants -/

namespace FrameKind

def hello : ℕ := 0
def call : ℕ := 1
def reply : ℕ := 2
def err : ℕ := 3
def event : ℕ := 4
def streamOpen : ℕ := 5
def streamChunk : ℕ := 6
def streamClose : ℕ := 7
def cancel : ℕ := 8
def grant : ℕ := 9
def ping : ℕ := 10

end FrameKind

def flagRaw : ℕ := 1

def handshakeChannel : ℕ := 0
def echoChannel : ℕ := 1
def fsChannel : ℕ := 2
def lifecycleChannel : ℕ := 3
def authChannel : ℕ := 4
def windowChannel : ℕ := 5

/-- Every allocated channel id, in table order. -/
def allocatedChannels : List ℕ :=
  [echoChannel, fsChannel, lifecycleChannel, authChannel, windowChannel]

/-- Channels whose class carries host events. -/
def hostEventChannels : List ℕ := [lifecycleChannel, windowChannel]

def isAllocatedChannel (channel : ℕ) : Bool := decide (channel ∈ allocatedChannels)

/-! ## Policies -/

structure FrameHeader where
  kind : ℕ
  flags : ℕ
  channel : ℕ
  corr : ℕ
  len : ℕ
deriving DecidableEq, Repr

inductive CorrRule where
  | zero
  | nonZero
  | exactly (id : ℕ)
deriving DecidableEq, Repr

/-- The optional properties are absent unless a policy sets them. -/
structure ReceivePolicy where
  channel : ℕ
  alsoChannel : Option ℕ := none
  kinds : List ℕ
  corr : CorrRule
  exactLen : Option ℕ := none
  emptyPayload : Option Bool := none
  allowPing : Option Bool := none
deriving DecidableEq, Repr

def clientAwaitHello : ReceivePolicy :=
  { channel := handshakeChannel, kinds := [FrameKind.hello], corr := .zero, exactLen := some 32 }

def echoReceiver : ReceivePolicy :=
  { channel := echoChannel, kinds := [FrameKind.call], corr := .nonZero, allowPing := some true }

def lifecycleReceiver : ReceivePolicy :=
  { channel := lifecycleChannel, kinds := [FrameKind.call], corr := .nonZero,
    allowPing := some true }

def eventReceiverOn (channel : ℕ) : ReceivePolicy :=
  { channel := channel, kinds := [FrameKind.event], corr := .zero, allowPing := some true }

def lifecycleEventReceiver : ReceivePolicy := eventReceiverOn lifecycleChannel

/-- Echo replies are `REPLY` only. -/
def echoReplyWaiter (corr : ℕ) : ReceivePolicy :=
  { channel := echoChannel, kinds := [FrameKind.reply], corr := .exactly corr }

def replyWaiter (channel corr : ℕ) : Except KipcError ReceivePolicy := do
  require (channel != handshakeChannel) ⟨"KELD-IPC-005", "channel 0 carries only HELLO"⟩
  require (isAllocatedChannel channel)
    ⟨"KELD-IPC-005", "channel is not allocated by the channel table"⟩
  require (channel != echoChannel)
    ⟨"KELD-IPC-005", "echo replies use the REPLY-only echo reply waiter"⟩
  return { channel := channel, kinds := [FrameKind.reply, FrameKind.err], corr := .exactly corr }

def eventReceiver (channel : ℕ) : Except KipcError ReceivePolicy := do
  require (decide (channel ∈ hostEventChannels)) ⟨"KELD-IPC-005", "channel carries no host EVENTs"⟩
  return eventReceiverOn channel

def privilegedCallReceiver (channel : ℕ) : ReceivePolicy :=
  { channel := channel, kinds := [FrameKind.call], corr := .nonZero }

/-! ## The validator -/

def CorrRule.check (corr : ℕ) : CorrRule → Except KipcError Unit
  | .zero => require (corr == 0) ⟨"KELD-IPC-005", "correlation must be 0 for this frame"⟩
  | .nonZero => require (corr != 0) ⟨"KELD-IPC-005", "correlation 0 is reserved"⟩
  | .exactly id =>
    require (corr == id) ⟨"KELD-IPC-005", "correlation does not match the awaited call"⟩

def validateReceivedHeader (policy : ReceivePolicy) (header : FrameHeader) :
    Except KipcError FrameHeader :=
  if policy.allowPing == some true && header.kind == FrameKind.ping then do
    require (header.flags == 0) ⟨"KELD-IPC-005", "PING flags must be 0"⟩
    require (header.len == 0) ⟨"KELD-IPC-005", "PING payload must be empty"⟩
    return header
  else do
    require (policy.kinds.contains header.kind)
      ⟨"KELD-IPC-005", "frame kind is not declared by the session policy"⟩
    require (header.flags &&& flagRaw == 0)
      ⟨"KELD-IPC-005", "FLAG_RAW is invalid for a structured session"⟩
    require (header.flags == 0) ⟨"KELD-IPC-005", "unknown flag bits are reserved"⟩
    require (header.channel == policy.channel || some header.channel == policy.alsoChannel)
      ⟨"KELD-IPC-005", "wrong channel for the session policy"⟩
    policy.corr.check header.corr
    require (policy.exactLen.all (header.len == ·))
      ⟨"KELD-IPC-005", "payload length does not match the declared exact shape"⟩
    require (!(policy.emptyPayload == some true && header.len != 0))
      ⟨"KELD-IPC-005", "payload must be empty for this frame"⟩
    return header

/-! ## The receive table -/

/-- A JavaScript value where a channel number is expected: an integer, or anything else with the
text it converts to. -/
inductive JsValue where
  | integer (n : ℤ)
  | other (text : String)
deriving DecidableEq, Repr

def JsValue.toText : JsValue → String
  | .integer n => toString n
  | .other text => text

def requireChannel (name : String) (value : JsValue) : Except KipcError ℕ :=
  let refused : KipcError :=
    ⟨"KELD-IPC-005", name ++ " must be a channel from 1 to 65535; got " ++ value.toText⟩
  match value with
  | .integer n => if 1 ≤ n ∧ n ≤ 0xffff then .ok n.toNat else .error refused
  | .other _ => .error refused

/-- A `callReceivers` entry as the caller wrote it. -/
inductive WorkerCallReceiver where
  | echoReceiver
  | privilegedCallReceiver (channel : JsValue)
  | unknown
deriving DecidableEq, Repr

inductive ReceiverPolicy where
  | echoReceiver
  | privilegedCallReceiver
deriving DecidableEq, Repr

/-- A `callReceivers` entry of the validated configuration. -/
structure CallReceiver where
  policy : ReceiverPolicy
  channel : ℕ
deriving DecidableEq, Repr

structure InboundTable where
  eventChannels : List ℕ
  callPolicies : OrdMap ℕ ReceivePolicy

/-- The part of `WorkerLinkConfig` that the receive table becomes. -/
structure WorkerLinkConfig where
  eventChannels : List ℕ
  callReceivers : List CallReceiver
  table : InboundTable

/-- What the validation has collected so far, with the channels that are taken. -/
structure TableDraft where
  seen : List ℕ
  eventChannels : List ℕ
  callReceivers : List CallReceiver
  callPolicies : OrdMap ℕ ReceivePolicy

def claim (seen : List ℕ) : Option ℕ → Except KipcError (List ℕ)
  | none => .ok seen
  | some channel =>
    if channel = handshakeChannel ∨ channel ∈ seen then
      .error ⟨"KELD-IPC-005", "receive table names channel " ++ toString channel ++ " " ++
        (if channel = handshakeChannel then "(reserved for HELLO)" else "twice")⟩
    else .ok (channel :: seen)

/-- A policy under each channel it declares. -/
def setPolicy (callPolicies : OrdMap ℕ ReceivePolicy) (policy : ReceivePolicy) :
    OrdMap ℕ ReceivePolicy :=
  match policy.alsoChannel with
  | none => callPolicies.insert policy.channel policy
  | some also => (callPolicies.insert policy.channel policy).insert also policy

def declareEventChannel (draft : TableDraft) (value : JsValue) : Except KipcError TableDraft := do
  let channel ← requireChannel "an eventChannels entry" value
  let _ ← eventReceiver channel
  let seen ← claim draft.seen (some channel)
  return { draft with seen := seen, eventChannels := draft.eventChannels ++ [channel] }

/-- The policy an entry names, and the entry's kind. -/
def namedPolicy : WorkerCallReceiver → Except KipcError (ReceivePolicy × ReceiverPolicy)
  | .echoReceiver => .ok (echoReceiver, .echoReceiver)
  | .privilegedCallReceiver value => do
    let channel ← requireChannel "a privilegedCallReceiver channel" value
    return (privilegedCallReceiver channel, .privilegedCallReceiver)
  | .unknown => .error
      ⟨"KELD-IPC-005", "a callReceivers entry must name echoReceiver or privilegedCallReceiver"⟩

def declareCallReceiver (draft : TableDraft) (receiver : WorkerCallReceiver) :
    Except KipcError TableDraft := do
  let (policy, kind) ← namedPolicy receiver
  let seen ← claim draft.seen (some policy.channel)
  let seen ← claim seen policy.alsoChannel
  return {
    seen := seen
    eventChannels := draft.eventChannels
    callReceivers := draft.callReceivers ++ [⟨kind, policy.channel⟩]
    callPolicies := setPolicy draft.callPolicies policy }

/-- The receive table's part of `validateWorkerLinkOptions`. -/
def validateReceiveTable (eventChannels : List JsValue) (callReceivers : List WorkerCallReceiver) :
    Except KipcError WorkerLinkConfig := do
  let draft ← eventChannels.foldlM declareEventChannel ⟨[], [], [], OrdMap.empty⟩
  let draft ← callReceivers.foldlM declareCallReceiver draft
  return {
    eventChannels := draft.eventChannels
    callReceivers := draft.callReceivers
    table := ⟨draft.eventChannels, draft.callPolicies⟩ }

def CallReceiver.receivePolicy (receiver : CallReceiver) : ReceivePolicy :=
  match receiver.policy with
  | .echoReceiver => Kipc.echoReceiver
  | .privilegedCallReceiver => Kipc.privilegedCallReceiver receiver.channel

/-- The Worker builds the same table again from the configuration it is sent. -/
def inboundTable (eventChannels : List ℕ) (callReceivers : List CallReceiver) : InboundTable :=
  ⟨eventChannels,
    callReceivers.foldl (fun policies receiver => setPolicy policies receiver.receivePolicy)
      OrdMap.empty⟩

/-! ## Selection -/

structure PendingCallEntry where
  channel : ℕ
  blocking : Bool
  abandoned : Bool
deriving DecidableEq, Repr

inductive InboundAction where
  | ping
  | append
  | claim
  | discard
deriving DecidableEq, Repr

/-- A policy that admits no kind. -/
def noFramePolicy : ReceivePolicy := { channel := handshakeChannel, kinds := [], corr := .zero }

/-- The waiter of a pending call's channel; an unallocated channel has none. -/
def pendingPolicy (entry : PendingCallEntry) (corr : ℕ) : Except KipcError ReceivePolicy :=
  if entry.channel = echoChannel then .ok (echoReplyWaiter corr)
  else if isAllocatedChannel entry.channel then replyWaiter entry.channel corr
  else .ok noFramePolicy

def PendingCallEntry.action (entry : PendingCallEntry) : InboundAction :=
  if entry.abandoned then .discard else if entry.blocking then .claim else .append

def selectInboundPolicy (header : FrameHeader) (table : InboundTable)
    (pending : OrdMap ℕ PendingCallEntry) : Except KipcError (ReceivePolicy × InboundAction) :=
  if header.kind = FrameKind.ping then .ok (lifecycleEventReceiver, .ping)
  else if header.kind = FrameKind.reply ∨ header.kind = FrameKind.err then
    match pending.get? header.corr with
    | none => .ok (noFramePolicy, .append)
    | some entry => do
      let policy ← pendingPolicy entry header.corr
      return (policy, entry.action)
  else if header.kind = FrameKind.event then
    if header.channel ∈ table.eventChannels then do
      let policy ← eventReceiver header.channel
      return (policy, .append)
    else .ok (noFramePolicy, .append)
  else if header.kind = FrameKind.call then
    .ok ((table.callPolicies.get? header.channel).getD noFramePolicy, .append)
  else .ok (noFramePolicy, .append)

/-- The Worker's admission of one frame: selection, then the validator. -/
def admitInbound (header : FrameHeader) (table : InboundTable)
    (pending : OrdMap ℕ PendingCallEntry) : Except KipcError InboundAction := do
  let (policy, action) ← selectInboundPolicy header table pending
  let _ ← validateReceivedHeader policy header
  return action

end Keld.Kipc
