/-
# `Keld.Bridge.State` — the host's side of a renderer bridge

`BridgeState` knows the navigation, the nonce it gave the current document and
the one call it admitted.  `handleMessage` is what the host does with a message
of the isolated world, `deliver` what it does with an outcome of the application.
-/
import Keld.Bridge.Scripts

namespace Keld.Bridge

/-- `RendererBridgeRequest`: what the application is asked. -/
structure RendererBridgeRequest where
  webview : ℕ
  navigation : ℕ
  request : ℕ
  channel : ℕ
  payload : List Byte
deriving DecidableEq

inductive RendererBridgeOutcome where
  | reply (webview navigation request : ℕ) (payload : List Byte)
  | error (webview navigation request : ℕ) (code detail : String)
deriving DecidableEq

namespace RendererBridgeOutcome

def webview : RendererBridgeOutcome → ℕ
  | .reply webview .. | .error webview .. => webview

def navigation : RendererBridgeOutcome → ℕ
  | .reply _ navigation .. | .error _ navigation .. => navigation

def request : RendererBridgeOutcome → ℕ
  | .reply _ _ request _ | .error _ _ request _ _ => request

/-- `PageOutcome::from`. -/
def toPage : RendererBridgeOutcome → PageOutcome
  | .reply _ _ request payload => { request := request, ok := true, payload := some payload }
  | .error _ _ request code detail =>
    { request := request
      ok := false
      code := some code
      detail := some detail }

end RendererBridgeOutcome

structure PendingRequest where
  navigation : ℕ
  request : ℕ
deriving DecidableEq

structure BridgeState where
  webview : ℕ
  admittedChannel : ℕ
  expectedWebview : Option ℕ := none
  navigationGeneration : ℕ := 0
  documentNonce : Option Nonce := none
  pending : Option PendingRequest := none
  destroyed : Bool := false
deriving DecidableEq

inductive BridgeRefusal where
  | destroyed
  | unverified
  | alreadyBound
  | noRandomness
  | stale
  | undeclaredChannel
  | alreadyPending
  | queueUnavailable
deriving DecidableEq, Repr

def BridgeRefusal.detail : BridgeRefusal → String
  | .destroyed => "renderer bridge was destroyed"
  | .unverified => "renderer bridge WebView identity is not bound"
  | .alreadyBound => "document is already bound"
  | .noRandomness => "host randomness is unavailable"
  | .stale => "renderer document is stale or forged"
  | .undeclaredChannel => "renderer channel is not declared by this build"
  | .alreadyPending => "another renderer invoke is already pending"
  | .queueUnavailable => "host renderer dispatch queue is unavailable"

/-- Sixteen random bytes, where the host has them. -/
abbrev RandomBytes := Option { bytes : List Byte // bytes.length = 16 }

namespace BridgeState

/-- `bind_webview`; another address is an error that changes nothing. -/
def bindWebview (state : BridgeState) (address : ℕ) : BridgeState :=
  match state.expectedWebview with
  | none => { state with expectedWebview := some address }
  | some _ => state

def acceptsWebview (state : BridgeState) (address : ℕ) : Bool :=
  state.expectedWebview = some address

/-- `generation.wrapping_add(1).max(1)`. -/
def nextGeneration (generation : ℕ) : ℕ := max ((generation + 1) % 2 ^ 64) 1

def navigationStarted (state : BridgeState) : BridgeState :=
  { state with
    navigationGeneration := nextGeneration state.navigationGeneration
    documentNonce := none
    pending := none }

def destroy (state : BridgeState) : BridgeState :=
  { state with
    destroyed := true
    documentNonce := none
    pending := none }

/-- The generation of a document that is about to be bound. -/
def boundGeneration (state : BridgeState) : ℕ :=
  if state.navigationGeneration = 0 then 1 else state.navigationGeneration

/-- `bind`: the state is the one left behind, also after a refusal. -/
def bind (state : BridgeState) (random : RandomBytes) :
    Except BridgeRefusal Nonce × BridgeState :=
  if state.destroyed then (.error .destroyed, state)
  else if state.expectedWebview.isNone then (.error .unverified, state)
  else
    let state := { state with navigationGeneration := state.boundGeneration }
    if state.documentNonce.isSome then (.error .alreadyBound, state)
    else
      match random with
      | none => (.error .noRandomness, state)
      | some bytes =>
        let nonce := encodeLowerHex bytes.val
        (.ok nonce, { state with documentNonce := some nonce })

def admitInvoke (state : BridgeState) (document : Nonce) (call : RelayCall) :
    Except BridgeRefusal RendererBridgeRequest × BridgeState :=
  if state.destroyed then (.error .destroyed, state)
  else if state.documentNonce ≠ some document then (.error .stale, state)
  else if call.channel ≠ state.admittedChannel then (.error .undeclaredChannel, state)
  else if state.pending.isSome then (.error .alreadyPending, state)
  else
    (.ok ⟨state.webview, state.navigationGeneration, call.request, call.channel, call.payload⟩,
      { state with pending := some ⟨state.navigationGeneration, call.request⟩ })

def settle (state : BridgeState) (navigation request : ℕ) : Bool × BridgeState :=
  if state.pending = some ⟨navigation, request⟩ then (true, { state with pending := none })
  else (false, state)

end BridgeState

/-- A script that the host evaluates in the isolated world. -/
inductive Evaluation where
  | bind (nonce : Nonce)
  | result (outcome : PageOutcome)
deriving DecidableEq

/-- `reply_immediate_error`. -/
def immediateError (request : ℕ) (refusal : BridgeRefusal) : PageOutcome where
  request := request
  ok := false
  code := some wvLinkCode
  detail := some refusal.detail

/-- What the decoder asks of a message before the state is looked at. -/
def WvLinkEnvelope.WellFormed : WvLinkEnvelope → Prop
  | .bind => True
  | .invoke _ call =>
    call.request ≠ 0 ∧ call.request < 2 ^ 32 ∧ call.channel ≠ 0 ∧ call.channel < 2 ^ 16 ∧
      call.payload.length ≤ maxRendererPayloadLen

instance : DecidablePred WvLinkEnvelope.WellFormed := fun envelope => by
  cases envelope <;> unfold WvLinkEnvelope.WellFormed <;> infer_instance

/-- What the host did with a message: its new state, what it evaluates in the document, and the
request it admitted with whether the application's queue took it. -/
structure Handled where
  state : BridgeState
  evaluations : List Evaluation := []
  admitted : Option (RendererBridgeRequest × Bool) := none

/-- `handle_message`, for a message of the web view at `address`; `sent` is whether the
application's queue has room. -/
def handleMessage (state : BridgeState) (address : ℕ) (envelope : WvLinkEnvelope)
    (random : RandomBytes) (sent : Bool) : Handled :=
  if ¬ state.acceptsWebview address then { state := state }
  else if ¬ envelope.WellFormed then { state := state }
  else
    match envelope with
    | .bind =>
      match state.bind random with
      | (.ok nonce, state') => { state := state', evaluations := [.bind nonce] }
      | (.error _, state') => { state := state' }
    | .invoke document call =>
      match state.admitInvoke document call with
      | (.error refusal, state') =>
        { state := state'
          evaluations := [.result (immediateError call.request refusal)] }
      | (.ok request, state') =>
        if sent then { state := state', admitted := some (request, true) }
        else
          { state := (state'.settle request.navigation request.request).2
            evaluations := [.result (immediateError request.request .queueUnavailable)]
            admitted := some (request, false) }

/-- `deliver`: the outcome of a call that is not pending is dropped. -/
def deliver (state : BridgeState) (outcome : RendererBridgeOutcome) :
    BridgeState × List Evaluation :=
  match state.settle outcome.navigation outcome.request with
  | (true, state') => (state', [.result outcome.toPage])
  | (false, state') => (state', [])

/-! ## What a message can do -/

/-- The request of an admitted call. -/
def BridgeState.requestOf (state : BridgeState) (call : RelayCall) : RendererBridgeRequest :=
  ⟨state.webview, state.navigationGeneration, call.request, call.channel, call.payload⟩

/-- The cases of `handleMessage`, with why each is taken. -/
inductive Handling (state : BridgeState) (address : ℕ) (random : RandomBytes) (sent : Bool) :
    WvLinkEnvelope → Handled → Prop where
  | ignored (envelope : WvLinkEnvelope)
      (why : state.acceptsWebview address = false ∨ ¬ envelope.WellFormed) :
      Handling state address random sent envelope { state := state }
  | unbound (generation : ℕ)
      (same : generation = state.navigationGeneration ∨ generation = state.boundGeneration) :
      Handling state address random sent .bind
        { state := { state with navigationGeneration := generation } }
  | bound (bytes : { bytes : List Byte // bytes.length = 16 }) (drawn : random = some bytes)
      (live : state.destroyed = false) (fresh : state.documentNonce = none)
      (accepted : state.acceptsWebview address = true) :
      Handling state address random sent .bind
        { state := { state with
            navigationGeneration := state.boundGeneration
            documentNonce := some (encodeLowerHex bytes.val) }
          evaluations := [.bind (encodeLowerHex bytes.val)] }
  | refused (document : Nonce) (call : RelayCall) (refusal : BridgeRefusal)
      (why : state.destroyed = true ∨ state.documentNonce ≠ some document ∨
        call.channel ≠ state.admittedChannel ∨ state.pending.isSome = true) :
      Handling state address random sent (.invoke document call)
        { state := state
          evaluations := [.result (immediateError call.request refusal)] }
  | admitted (document : Nonce) (call : RelayCall) (taken : sent = true)
      (live : state.destroyed = false) (nonce : state.documentNonce = some document)
      (idle : state.pending = none) :
      Handling state address random sent (.invoke document call)
        { state := { state with pending := some ⟨state.navigationGeneration, call.request⟩ }
          admitted := some (state.requestOf call, true) }
  | returned (document : Nonce) (call : RelayCall) (full : sent = false)
      (live : state.destroyed = false) (nonce : state.documentNonce = some document)
      (idle : state.pending = none) :
      Handling state address random sent (.invoke document call)
        { state := state
          evaluations := [.result (immediateError call.request .queueUnavailable)]
          admitted := some (state.requestOf call, false) }

theorem handling_bind {state : BridgeState} {address : ℕ} (random : RandomBytes) (sent : Bool)
    (hac : state.acceptsWebview address = true) :
    Handling state address random sent .bind
      (match state.bind random with
        | (.ok nonce, state') => { state := state', evaluations := [.bind nonce] }
        | (.error _, state') => { state := state' }) := by
  unfold BridgeState.bind
  by_cases hde : state.destroyed = true
  · rw [if_pos hde]
    exact .unbound _ (.inl rfl)
  rw [if_neg hde]
  by_cases hexp : state.expectedWebview.isNone = true
  · rw [if_pos hexp]
    exact .unbound _ (.inl rfl)
  rw [if_neg hexp]
  by_cases hno : state.documentNonce.isSome = true
  · rw [if_pos hno]
    exact .unbound _ (.inr rfl)
  rw [if_neg hno]
  cases random with
  | none => exact .unbound _ (.inr rfl)
  | some bytes =>
    exact .bound bytes rfl (Bool.eq_false_of_not_eq_true hde)
      (Option.not_isSome_iff_eq_none.mp hno) hac

theorem handleMessage_cases (state : BridgeState) (address : ℕ) (envelope : WvLinkEnvelope)
    (random : RandomBytes) (sent : Bool) :
    Handling state address random sent envelope
      (handleMessage state address envelope random sent) := by
  unfold handleMessage
  by_cases hac : state.acceptsWebview address = true
  · rw [if_neg (not_not.mpr hac)]
    by_cases hwe : envelope.WellFormed
    · rw [if_neg (not_not.mpr hwe)]
      cases envelope with
      | bind => exact handling_bind random sent hac
      | invoke document call =>
        dsimp only
        unfold BridgeState.admitInvoke
        by_cases hde : state.destroyed = true
        · rw [if_pos hde]
          exact .refused document call .destroyed (.inl hde)
        rw [if_neg hde]
        by_cases hno : state.documentNonce ≠ some document
        · rw [if_pos hno]
          exact .refused document call .stale (.inr (.inl hno))
        rw [if_neg hno]
        by_cases hc : call.channel ≠ state.admittedChannel
        · rw [if_pos hc]
          exact .refused document call .undeclaredChannel (.inr (.inr (.inl hc)))
        rw [if_neg hc]
        by_cases hp : state.pending.isSome = true
        · rw [if_pos hp]
          exact .refused document call .alreadyPending (.inr (.inr (.inr hp)))
        rw [if_neg hp]
        have hl := Bool.eq_false_of_not_eq_true hde
        have hi := Option.not_isSome_iff_eq_none.mp hp
        cases sent with
        | true => exact .admitted document call rfl hl (not_not.mp hno) hi
        | false =>
          have hre : Handling state address random false (.invoke document call) _ :=
            .returned document call rfl hl (not_not.mp hno) hi
          obtain ⟨webview, channel, expected, generation, nonce, pending, destroyed⟩ := state
          cases hi
          simp only [BridgeState.settle]
          exact hre
    · rw [if_pos hwe]
      exact .ignored envelope (.inr hwe)
  · rw [if_pos hac]
    exact .ignored envelope (.inl (Bool.eq_false_of_not_eq_true hac))

end Keld.Bridge
