/-
# `Keld.Bridge.System` — a renderer bridge with its document and its host

The window's messages, the messages of the relay to the host and the scripts the
host evaluates are queues; an event of the system is one of the parties taking
the next of its own.  A navigation replaces the document, its two scripts and
what was on the way inside it and to it.  What the old relay had posted to the
host may still arrive, and the application's outcomes may be anything.

`log` records what the host did; nothing reads it.
-/
import Keld.Bridge.State
import Keld.Lib.Trace

namespace Keld.Bridge

inductive BridgeFact where
  /-- A document got its nonce. -/
  | bound (document generation : ℕ) (nonce : Nonce)
  /-- A call of the document `issuer` was admitted, under a nonce, and the application's queue
  took it or did not. -/
  | admitted (issuer : ℕ) (nonce : Nonce) (request : RendererBridgeRequest) (sent : Bool)
  /-- An outcome of the application was evaluated in a document. -/
  | evaluated (document : ℕ) (outcome : RendererBridgeOutcome)
  | navigated
  | destroyed
deriving DecidableEq

structure Bridge where
  facade : Facade := {}
  relay : Relay := {}
  window : List WindowMessage := []
  /-- To the host, with the document that posted it. -/
  outbound : List (ℕ × WvLinkEnvelope)
  /-- To the current document. -/
  inbound : List Evaluation := []
  native : BridgeState
  /-- The number of the current document. -/
  document : ℕ := 0
  /-- Whether a call of an earlier document was handled during the current one. -/
  crossed : Bool := false
  log : List BridgeFact := []
deriving DecidableEq

inductive BridgeEvent where
  /-- The page calls `window.keld.invoke`. -/
  | invoke (args : InvokeArguments)
  /-- The window dispatches its next message. -/
  | window
  /-- The host handles the next message of a relay. -/
  | native (random : RandomBytes) (sent : Bool)
  /-- The document evaluates the next script of the host. -/
  | evaluate
  | deliver (outcome : RendererBridgeOutcome)
  | verify (address : ℕ)
  | navigate
  | destroy

/-- The first document's scripts have started. -/
def Bridge.start (webview admittedChannel : ℕ) : Bridge where
  outbound := [(0, .bind)]
  native := { webview := webview, admittedChannel := admittedChannel }

namespace Bridge

def post (s : Bridge) (envelopes : List WvLinkEnvelope) : List (ℕ × WvLinkEnvelope) :=
  s.outbound ++ envelopes.map fun envelope => (s.document, envelope)

def pageInvoke (s : Bridge) (args : InvokeArguments) : Bridge :=
  let (facade, posted) := s.facade.invoke s.native.admittedChannel args
  { s with
    facade := facade
    window := s.window ++ posted }

def dispatch (s : Bridge) : Bridge :=
  match s.window with
  | [] => s
  | .result outcome :: rest =>
    { s with
      window := rest
      facade := s.facade.onResult outcome }
  | .invoke call :: rest =>
    let (relay, answers, envelopes) := s.relay.onInvoke s.native.admittedChannel call
    { s with
      window := rest ++ answers
      relay := relay
      outbound := s.post envelopes }

/-- What the log says of a handled message. -/
def facts (document issuer : ℕ) (handled : Handled) : WvLinkEnvelope → List BridgeFact
  | .bind =>
    match handled.evaluations with
    | .bind nonce :: _ => [.bound document handled.state.navigationGeneration nonce]
    | _ => []
  | .invoke nonce _ =>
    match handled.admitted with
    | some (request, sent) => [.admitted issuer nonce request sent]
    | none => []

def receive (s : Bridge) (address : ℕ) (random : RandomBytes) (sent : Bool) : Bridge :=
  match s.outbound with
  | [] => s
  | (issuer, envelope) :: rest =>
    let handled := handleMessage s.native address envelope random sent
    { s with
      outbound := rest
      native := handled.state
      inbound := s.inbound ++ handled.evaluations
      crossed := s.crossed || (issuer ≠ s.document && envelope ≠ .bind)
      log := s.log ++ facts s.document issuer handled envelope }

def evaluate (s : Bridge) : Bridge :=
  match s.inbound with
  | [] => s
  | .bind nonce :: rest =>
    let (relay, envelopes) := s.relay.nativeBind nonce
    { s with
      inbound := rest
      relay := relay
      outbound := s.post envelopes }
  | .result outcome :: rest =>
    let (relay, posted) := s.relay.nativeResult outcome
    { s with
      inbound := rest
      relay := relay
      window := s.window ++ posted }

/-- An outcome goes to the bridge of its web view. -/
def deliverOutcome (s : Bridge) (outcome : RendererBridgeOutcome) : Bridge :=
  if outcome.webview ≠ s.native.webview then s
  else
    let (native, evaluations) := deliver s.native outcome
    { s with
      native := native
      inbound := s.inbound ++ evaluations
      log := s.log ++ if evaluations = [] then [] else [.evaluated s.document outcome] }

/-- A new document, whose relay has asked to be bound. -/
def navigate (s : Bridge) : Bridge where
  outbound := s.outbound ++ [(s.document + 1, .bind)]
  native := s.native.navigationStarted
  document := s.document + 1
  log := s.log ++ [.navigated]

def destroy (s : Bridge) : Bridge :=
  { s with
    native := s.native.destroy
    log := s.log ++ [.destroyed] }

/-- One event, for the web view at `address`. -/
def step (address : ℕ) (s : Bridge) : BridgeEvent → Bridge
  | .invoke args => s.pageInvoke args
  | .window => s.dispatch
  | .native random sent => s.receive address random sent
  | .evaluate => s.evaluate
  | .deliver outcome => s.deliverOutcome outcome
  | .verify other => { s with native := s.native.bindWebview other }
  | .navigate => s.navigate
  | .destroy => s.destroy

def run (webview admittedChannel address : ℕ) (events : List BridgeEvent) : Bridge :=
  events.foldl (step address) (start webview admittedChannel)

end Bridge

end Keld.Bridge
