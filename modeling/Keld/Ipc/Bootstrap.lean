/-
# `Keld.Ipc.Bootstrap` — one-shot admission, and the cancels that race it

A listener runs `accept_loop` on one thread while any number of cancels run on
others.  Each load of the stop flag, each lock and each call outside is a step
of its own, so a run is any interleaving.  The Unix loop keeps a clone of the
stream it is admitting in a slot that a cancel empties and shuts down; the
Windows loop takes the one-shot of its pipe instance, which a cancel that acted
first refuses.

A run notes what happened (`AdmitFact`); a handshake is that of `Ipc.Handshake`,
over any link and under any clock, with loads of the stop flag that find it set
only once it is.
-/
import Keld.Ipc.Handshake
import Keld.Lib.Trace

namespace Keld.Ipc

inductive BootstrapRejection
  | io
  | header
  | payloadTooLarge
  | protocol
  | timeout
  | helloAuth
deriving DecidableEq, Repr

def BootstrapRejection.classify : IpcError → BootstrapRejection
  | .io _ => .io
  | .header _ => .header
  | .payloadTooLarge => .payloadTooLarge
  | .protocol _ => .protocol
  | .codec => .protocol
  | .timeout => .timeout
  | .helloAuth _ => .helloAuth

/-- `peer_handshake_window`: the time a peer is given, and when it is over. -/
def peerHandshakeWindow (horizon started : Instant) (generation : Option Instant)
    (limit : Duration) : Option (Duration × Instant) :=
  let timeout :=
    match generation with
    | some deadline =>
      if started ≤ deadline then some (min (deadline - started) limit) else none
    | none => some limit
  match timeout with
  | none => none
  | some timeout =>
    if timeout = 0 then none
    else if started + timeout ≤ horizon then some (timeout, started + timeout)
    else none

/-- `BootstrapAdmission`, for the connection it names. -/
inductive BootstrapAdmission
  | authenticated (conn : ℕ)
  | cancelled
  | deadlineElapsed
deriving DecidableEq, Repr

/-- What a run notes. -/
inductive AdmitFact
  | called (deadline : Option Instant)
  | accepted (conn : ℕ)
  | windowed (conn : ℕ) (started until_ : Instant)
  /-- The handshake with a connection was completed, its link as it was before and after. -/
  | answered (conn : ℕ) (before after : Link) (time : Instant)
  /-- Nothing more is asked about a stop before the connection is returned. -/
  | passed (conn : ℕ)
  | rejected (conn : ℕ) (rejection : BootstrapRejection)
  | closed (time : Instant)
  /-- A call outside failed, or the listener was found consumed. -/
  | hostFailed
  | spent
  | returned (admission : Option BootstrapAdmission) (time : Instant)
  /-- A cancel has set the stop flag, has acted on a connection, has returned. -/
  | stopping
  | shut (conn : ℕ)
  | cancelled

/-- Where `accept_loop` is. -/
inductive AdmitLoop
  | idle
  | top
  | clock
  | accept
  | accepted (conn : ℕ)
  | window (conn : ℕ)
  /-- The socket options, or the stream of the pipe. -/
  | options (conn : ℕ) (until_ : Instant)
  | clone (conn : ℕ) (until_ : Instant)
  | publish (conn : ℕ) (until_ : Instant)
  | handshake (conn : ℕ) (until_ : Instant)
  | refused (conn : ℕ) (err : IpcError)
  | refusedClock (conn : ℕ) (err : IpcError)
  | checkStop (conn : ℕ)
  | checkClock (conn : ℕ)
  | consume (conn : ℕ)
  | closing (admission : BootstrapAdmission)
  /-- The guard of the slot goes, and with it the call or this turn of the loop. -/
  | leaving (admission : Option BootstrapAdmission)
  | retry
deriving DecidableEq, Repr

/-- The connection that the loop has in hand. -/
def AdmitLoop.conn : AdmitLoop → Option ℕ
  | .accepted conn | .window conn | .options conn _ | .clone conn _ | .publish conn _
  | .handshake conn _ | .refused conn _ | .refusedClock conn _ | .checkStop conn
  | .checkClock conn | .consume conn | .closing (.authenticated conn)
  | .leaving (some (.authenticated conn)) => some conn
  | _ => none

/-- Whether the connection in hand is still being admitted. -/
def AdmitLoop.holding : AdmitLoop → Bool
  | .accepted _ | .window _ | .options _ _ | .clone _ _ | .publish _ _ | .handshake _ _
  | .refused _ _ | .refusedClock _ _ | .checkStop _ | .checkClock _ | .consume _ => true
  | _ => false

/-- What both listeners are made with. -/
structure AdmitConfig where
  token : SessionToken
  limit : Duration
  horizon : Instant
  limit_pos : 0 < limit

/-- Whether a deadline has come. -/
def reached (deadline : Option Instant) (now : Instant) : Bool := deadline.any (· ≤ now)

/-- A handshake has found the stop flag set only if it is set by its end. -/
def Env.stoppedBy (env : Env) (stopping : Bool) : Env :=
  { env with stop := fun load => stopping && env.stop load }

/-! ## Unix -/

/-- What `try_accept` gives. -/
inductive TryAccept
  | stream
  | wouldBlock
  | failed

inductive UnixEvent
  | tick (elapsed : Duration)
  | call (deadline : Option Instant)
  /-- A load of the stop flag, a reading of the clock or a lock, whichever is next. -/
  | advance
  | tryAccept (result : TryAccept)
  | setOptions (ok : Bool)
  | tryClone (ok : Bool)
  | handshake (env : Env) (link : Link)
  | closeEndpoint (ok : Bool)
  /-- The steps of a cancel. -/
  | cancelStop
  | cancelTake
  | cancelLook
  | cancelWake

structure UnixListener where
  config : AdmitConfig
  stopping : Bool := false
  /-- Whether the listening socket is there. -/
  listener : Bool := true
  listening : Bool := true
  activeStream : Option ℕ := none
  now : Instant := 0
  nextConn : ℕ := 0
  deadline : Option Instant := none
  loop : AdmitLoop := .idle
  /-- How many cancels are before their take, their look at `listening`, their wake connection. -/
  taking : ℕ := 0
  looking : ℕ := 0
  waking : ℕ := 0
  log : List AdmitFact := []

namespace UnixListener

def goto (s : UnixListener) (loop : AdmitLoop) : UnixListener := { s with loop := loop }

def note (s : UnixListener) (fact : AdmitFact) : UnixListener := { s with log := s.log ++ [fact] }

/-- The call returns; the guard of the slot, if there is one, goes first. -/
def finish (s : UnixListener) (admission : Option BootstrapAdmission) : UnixListener :=
  { s with
    activeStream := none
    loop := .idle }.note (.returned admission s.now)

def reject (s : UnixListener) (conn : ℕ) (rejection : BootstrapRejection) : UnixListener :=
  (s.note (.rejected conn rejection)).goto .retry

def advance (s : UnixListener) : UnixListener :=
  match s.loop with
  | .top => if s.stopping then s.goto (.closing .cancelled) else s.goto .clock
  | .clock => if reached s.deadline s.now then s.goto (.closing .deadlineElapsed) else s.goto .accept
  | .accepted conn => if s.stopping then s.goto (.closing .cancelled) else s.goto (.window conn)
  | .window conn =>
    match peerHandshakeWindow s.config.horizon s.now s.deadline s.config.limit with
    | none => s.goto (.closing .deadlineElapsed)
    | some (_, until_) => (s.note (.windowed conn s.now until_)).goto (.options conn until_)
  | .publish conn until_ => { s with activeStream := some conn }.goto (.handshake conn until_)
  | .refused conn err =>
    if s.stopping then s.goto (.closing .cancelled)
    else if err = .timeout then s.goto (.refusedClock conn err)
    else s.reject conn (.classify err)
  | .refusedClock conn err =>
    if reached s.deadline s.now then s.goto (.closing .deadlineElapsed)
    else s.reject conn (.classify err)
  | .checkStop conn =>
    if s.stopping then s.goto (.closing .cancelled)
    else (s.note (.passed conn)).goto (.checkClock conn)
  | .checkClock conn =>
    if reached s.deadline s.now then s.goto (.closing .deadlineElapsed)
    else s.goto (.closing (.authenticated conn))
  | .leaving admission => s.finish admission
  | .retry => { s with activeStream := none }.goto .top
  | _ => s

def step (s : UnixListener) : UnixEvent → UnixListener
  | .tick elapsed => { s with now := s.now + elapsed }
  | .call deadline =>
    if s.loop = .idle then ({ s with deadline := deadline }.note (.called deadline)).goto .top else s
  | .advance => s.advance
  | .tryAccept result =>
    if s.loop ≠ .accept then s
    else if ¬ s.listener then (s.note .spent).goto (.leaving none)
    else
      match result with
      | .wouldBlock => s.goto .top
      | .failed => (s.note .hostFailed).goto (.leaving none)
      | .stream =>
        ({ s with nextConn := s.nextConn + 1 }.note (.accepted s.nextConn)).goto
          (.accepted s.nextConn)
  | .setOptions ok =>
    match s.loop with
    | .options conn until_ => if ok then s.goto (.clone conn until_) else s.reject conn .io
    | _ => s
  | .tryClone ok =>
    match s.loop with
    | .clone conn until_ =>
      if ok then s.goto (.publish conn until_) else (s.note .hostFailed).goto (.leaving none)
    | _ => s
  | .handshake env link =>
    match s.loop with
    | .handshake conn until_ =>
      match handshakeServerInterruptibleUntil (env.stoppedBy s.stopping) s.config.token until_
          link with
      | (.ok true, link') => (s.note (.answered conn link link' s.now)).goto (.checkStop conn)
      | (.ok false, _) => s.goto (.closing .cancelled)
      | (.error (.failed err), _) => s.goto (.refused conn err)
      | (.error .waiting, _) => s
    | _ => s
  | .closeEndpoint ok =>
    match s.loop with
    | .closing admission =>
      let s := { s with
        listener := false
        listening := false }
      if ok then (s.note (.closed s.now)).goto (.leaving (some admission))
      else (s.note .hostFailed).goto (.leaving none)
    | _ => s
  | .cancelStop =>
    { s with
      stopping := true
      taking := s.taking + 1 }.note .stopping
  | .cancelTake =>
    if s.taking = 0 then s
    else
      let s := { s with
        taking := s.taking - 1
        looking := s.looking + 1 }
      match s.activeStream with
      | none => s
      | some conn => { s with activeStream := none }.note (.shut conn)
  | .cancelLook =>
    if s.looking = 0 then s
    else if s.listening then
      { s with
        looking := s.looking - 1
        waking := s.waking + 1 }
    else { s with looking := s.looking - 1 }.note .cancelled
  | .cancelWake =>
    if s.waking = 0 then s
    else { s with waking := s.waking - 1 }.note .cancelled

def run (config : AdmitConfig) (events : List UnixEvent) : UnixListener :=
  events.foldl step { config := config }

end UnixListener

/-! ## Windows -/

/-- What `accept_until` of the pipe instance gives. -/
inductive WaitOutcome
  | ready
  | peerClosed
  | cancelled
  | deadlineElapsed
  | failed

inductive WindowsEvent
  | tick (elapsed : Duration)
  | call (deadline : Option Instant)
  | advance
  | acceptUntil (outcome : WaitOutcome)
  /-- The stream of the instance, and its deadlines. -/
  | openStream (ok : Bool)
  | handshake (env : Env) (link : Link)
  | closeTerminal (ok : Bool)
  | disconnect (ok : Bool)
  | cancelStop
  | cancelAct

structure WindowsListener where
  config : AdmitConfig
  stopping : Bool := false
  /-- Whether the instance is still in the listener's slot. -/
  server : Bool := true
  consumed : Bool := false
  cancelled : Bool := false
  /-- The connection of the instance. -/
  connection : Option ℕ := none
  now : Instant := 0
  nextConn : ℕ := 0
  deadline : Option Instant := none
  loop : AdmitLoop := .idle
  /-- How many cancels have set the flag and not acted. -/
  acting : ℕ := 0
  log : List AdmitFact := []

namespace WindowsListener

def goto (s : WindowsListener) (loop : AdmitLoop) : WindowsListener := { s with loop := loop }

def note (s : WindowsListener) (fact : AdmitFact) : WindowsListener :=
  { s with log := s.log ++ [fact] }

def finish (s : WindowsListener) (admission : Option BootstrapAdmission) : WindowsListener :=
  { s with loop := .idle }.note (.returned admission s.now)

def reject (s : WindowsListener) (conn : ℕ) (rejection : BootstrapRejection) : WindowsListener :=
  (s.note (.rejected conn rejection)).goto .retry

def advance (s : WindowsListener) : WindowsListener :=
  match s.loop with
  | .top =>
    if ¬ s.server then (s.note .spent).goto (.leaving none)
    else if s.stopping then s.goto (.closing .cancelled) else s.goto .clock
  | .clock => if reached s.deadline s.now then s.goto (.closing .deadlineElapsed) else s.goto .accept
  | .accepted conn => if s.stopping then s.goto (.closing .cancelled) else s.goto (.window conn)
  | .window conn =>
    match peerHandshakeWindow s.config.horizon s.now s.deadline s.config.limit with
    | none => s.goto (.closing .deadlineElapsed)
    | some (_, until_) => (s.note (.windowed conn s.now until_)).goto (.options conn until_)
  | .refused conn err =>
    if s.stopping then s.goto (.closing .cancelled)
    else if err = .timeout then s.goto (.refusedClock conn err)
    else s.reject conn (.classify err)
  | .refusedClock conn err =>
    if reached s.deadline s.now then s.goto (.closing .deadlineElapsed)
    else s.reject conn (.classify err)
  | .checkStop conn => if s.stopping then s.goto (.closing .cancelled) else s.goto (.checkClock conn)
  | .checkClock conn =>
    if reached s.deadline s.now then s.goto (.closing .deadlineElapsed)
    else s.goto (.consume conn)
  | .consume conn =>
    if s.cancelled then s.goto (.closing .cancelled)
    else
      (({ s with
        consumed := true
        server := false }.note (.passed conn)).note (.closed s.now)).goto
          (.leaving (some (.authenticated conn)))
  | .leaving admission => s.finish admission
  | _ => s

def step (s : WindowsListener) : WindowsEvent → WindowsListener
  | .tick elapsed => { s with now := s.now + elapsed }
  | .call deadline =>
    if s.loop = .idle then ({ s with deadline := deadline }.note (.called deadline)).goto .top else s
  | .advance => s.advance
  | .acceptUntil outcome =>
    if s.loop ≠ .accept then s
    else if s.consumed then (s.note .spent).goto (.leaving none)
    else
      let connected :=
        { s with
          nextConn := s.nextConn + 1
          connection := some s.nextConn }.note (.accepted s.nextConn)
      match outcome with
      | .ready => connected.goto (.accepted s.nextConn)
      | .peerClosed => connected.reject s.nextConn .io
      | .cancelled => if s.cancelled then s.goto (.closing .cancelled) else s
      | .deadlineElapsed =>
        if reached s.deadline s.now then s.goto (.closing .deadlineElapsed) else s
      | .failed => (s.note .hostFailed).goto (.leaving none)
  | .openStream ok =>
    match s.loop with
    | .options conn until_ =>
      if ok then s.goto (.handshake conn until_) else (s.note .hostFailed).goto (.leaving none)
    | _ => s
  | .handshake env link =>
    match s.loop with
    | .handshake conn until_ =>
      match handshakeServerInterruptibleUntil (env.stoppedBy s.stopping) s.config.token until_
          link with
      | (.ok true, link') => (s.note (.answered conn link link' s.now)).goto (.checkStop conn)
      | (.ok false, _) => s.goto (.closing .cancelled)
      | (.error (.failed err), _) => s.goto (.refused conn err)
      | (.error .waiting, _) => s
    | _ => s
  | .closeTerminal ok =>
    match s.loop with
    | .closing admission =>
      let s := { s with consumed := true }
      if ok then
        ({ s with server := false }.note (.closed s.now)).goto (.leaving (some admission))
      else (s.note .hostFailed).goto (.leaving none)
    | _ => s
  | .disconnect ok =>
    match s.loop with
    | .retry =>
      if s.consumed then (s.note .spent).goto (.leaving none)
      else if ok then { s with connection := none }.goto .top
      else (s.note .hostFailed).goto (.leaving none)
    | _ => s
  | .cancelStop =>
    { s with
      stopping := true
      acting := s.acting + 1 }.note .stopping
  | .cancelAct =>
    if s.acting = 0 then s
    else
      let s := { s with acting := s.acting - 1 }
      if s.consumed then s.note .cancelled
      else
        let s := { s with cancelled := true }
        match s.connection with
        | none => s.note .cancelled
        | some conn => (s.note (.shut conn)).note .cancelled

def run (config : AdmitConfig) (events : List WindowsEvent) : WindowsListener :=
  events.foldl step { config := config }

end WindowsListener

end Keld.Ipc
