/-
# `Keld.Bridge.Scripts` — the two scripts of a renderer document

A document carries a facade in the page's world and a relay in an isolated one.
The facade keeps one pending request; the relay keeps the nonce that the host
gave the document, a call that waits for it, and whether a call is under way.
Both talk through the window's messages, and only the relay talks to the host.
-/
import Keld.Lib.Hex

namespace Keld.Bridge

/-! ## Messages -/

/-- The nonce of a document, as the host spells it. -/
abbrev Nonce := List Char

structure RelayCall where
  request : ℕ
  channel : ℕ
  payload : List Byte
deriving DecidableEq

/-- What a document is told about one of its requests. -/
structure PageOutcome where
  request : ℕ
  ok : Bool
  payload : Option (List Byte) := none
  code : Option String := none
  detail : Option String := none
deriving DecidableEq

/-- A message of the window, `invoke-v1` or `result-v1`. -/
inductive WindowMessage where
  | invoke (call : RelayCall)
  | result (outcome : PageOutcome)
deriving DecidableEq

/-- `keld.wv-link/v1`. -/
inductive WvLinkEnvelope where
  | bind
  | invoke (document : Nonce) (call : RelayCall)
deriving DecidableEq

/-- `maxPayload`: the bound of the facade, the relay and the host. -/
def maxRendererPayloadLen : ℕ := 4096

def wvLinkCode : String := "KELD-WV-011"

/-! ## The facade -/

structure Facade where
  nextRequest : ℕ := 1
  /-- The request that has a waiter. -/
  pending : Option ℕ := none
deriving DecidableEq

/-- What the page passes: whether there are options, the channel if it is an integer, and the
payload if it is a byte array. -/
structure InvokeArguments where
  opts : Bool := false
  channel : Option ℤ
  payload : Option (List Byte)

/-- `n >>> 0 || 1`. -/
def requestId (n : ℕ) : ℕ := if n % 2 ^ 32 = 0 then 1 else n % 2 ^ 32

/-- The payload of a call that the facade lets through. -/
def Facade.accepts (admittedChannel : ℕ) (facade : Facade) (args : InvokeArguments) :
    Option (List Byte) := do
  if args.opts then none
  let channel ← args.channel
  if channel ≤ 0 ∨ channel > 0xffff then none
  if channel ≠ admittedChannel then none
  let payload ← args.payload
  if payload.length > maxRendererPayloadLen then none
  if facade.pending.isSome then none
  return payload

/-- `window.keld.invoke`: the new facade and what it posts; a refusal posts nothing. -/
def Facade.invoke (admittedChannel : ℕ) (facade : Facade) (args : InvokeArguments) :
    Facade × List WindowMessage :=
  match facade.accepts admittedChannel args with
  | none => (facade, [])
  | some payload =>
    let request := requestId facade.nextRequest
    ({ nextRequest := requestId (request + 1)
       pending := some request },
      [.invoke ⟨request, admittedChannel, payload⟩])

/-- `onResult`: the waiter of the request is settled. -/
def Facade.onResult (facade : Facade) (outcome : PageOutcome) : Facade :=
  if facade.pending = some outcome.request then { facade with pending := none } else facade

/-! ## The relay -/

structure Relay where
  documentNonce : Option Nonce := none
  queued : Option RelayCall := none
  inflight : Bool := false
deriving DecidableEq

def Relay.sendNative (relay : Relay) (call : RelayCall) : Relay × List WvLinkEnvelope :=
  match relay.documentNonce with
  | none => (relay, [])
  | some nonce =>
    if relay.inflight then (relay, [])
    else ({ relay with inflight := true }, [.invoke nonce call])

/-- `__keldBridgeNativeBind`. -/
def Relay.nativeBind (relay : Relay) (nonce : Nonce) : Relay × List WvLinkEnvelope :=
  if nonce.length = 0 then (relay, [])
  else
    match relay.queued with
    | none => ({ relay with documentNonce := some nonce }, [])
    | some call =>
      { relay with
        documentNonce := some nonce
        queued := none }.sendNative call

/-- `__keldBridgeNativeResult`. -/
def Relay.nativeResult (relay : Relay) (outcome : PageOutcome) : Relay × List WindowMessage :=
  ({ relay with inflight := false }, [.result outcome])

/-- What the relay checks of a call before it looks at its own state. -/
def RelayCall.WellFormed (admittedChannel : ℕ) (call : RelayCall) : Prop :=
  0 < call.request ∧ call.request ≤ 0xffffffff ∧ 0 < call.channel ∧ call.channel ≤ 0xffff ∧
    call.channel = admittedChannel ∧ call.payload.length ≤ maxRendererPayloadLen

instance (admittedChannel : ℕ) : DecidablePred (RelayCall.WellFormed admittedChannel) :=
  fun call => by unfold RelayCall.WellFormed; infer_instance

/-- What the relay answers by itself. -/
def relayBusy (request : ℕ) : PageOutcome where
  request := request
  ok := false
  code := some wvLinkCode
  detail := some "another renderer invoke is already pending"

/-- The listener of the relay, for a call. -/
def Relay.onInvoke (admittedChannel : ℕ) (relay : Relay) (call : RelayCall) :
    Relay × List WindowMessage × List WvLinkEnvelope :=
  if ¬ call.WellFormed admittedChannel then (relay, [], [])
  else if relay.queued.isSome ∨ relay.inflight then
    (relay, [.result (relayBusy call.request)], [])
  else
    match relay.documentNonce with
    | none => ({ relay with queued := some call }, [], [])
    | some _ => ((relay.sendNative call).1, [], (relay.sendNative call).2)

end Keld.Bridge
