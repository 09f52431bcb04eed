/-
# `Keld.Auth.Loopback` — the loopback callback of one flow

The auth worker polls a `LoopbackFlow` until it completes.  Each poll looks at
the cancellation flag and the clock before it accepts, reads or writes, and it
does each of these at most once for a socket before it looks again.

The sockets, the flag and the clock are the world's: `World` says for every
moment what each of them would answer, and the moment is the number of events so
far.  A worker (`Run`) is a flow and the log of its events, so a law of the log
is a law of every schedule.
-/
import Keld.Auth.Form
import Mathlib.Data.List.DropRight

namespace Keld.Auth.Loopback

/-! ## Errors and progress -/

inductive Failure where
  | bind
  | deadline
  | cancelled
  | io
  | consumed
  | primitive (error : PrimitiveError)
deriving DecidableEq

inductive Stop where
  | cancelled
  | deadline
deriving DecidableEq

structure LoopbackError where
  failure : Failure
  replyFailed : Bool
  deliveryStopped : Option Stop
deriving DecidableEq

def LoopbackError.new (failure : Failure) : LoopbackError where
  failure := failure
  replyFailed := false
  deliveryStopped := none

/-- `From<PrimitiveError>`. -/
def LoopbackError.ofPrimitive (error : PrimitiveError) : LoopbackError := .new (.primitive error)

abbrev CallbackResult := Except LoopbackError CorrelatedAuthorization

inductive LoopbackProgress where
  | pending
  | complete (result : CallbackResult)

/-! ## One flow -/

structure Reply where
  bytes : List Byte
  written : ℕ
  result : Option CallbackResult

/-- A peer goes by the moment it was accepted at. -/
structure Accepted where
  peer : ℕ
  request : List Byte
  reply : Option Reply

inductive RedirectForm where
  | localhost
  | ipv4Loopback
deriving DecidableEq

structure LoopbackRedirect where
  path : String
  query : Option String
  host : RedirectForm

structure LoopbackFlow where
  /-- Whether there is a listener. -/
  listener : Bool
  accepted : Option Accepted
  idle : Option Accepted
  pending : Option PendingAuthorization
  redirect : LoopbackRedirect
  boundPort : UInt16
  deadline : ℕ
  consumed : Bool

/-- The flow that `bind` returns. -/
def LoopbackFlow.bound (redirect : LoopbackRedirect) (pending : PendingAuthorization)
    (boundPort : UInt16) (deadline : ℕ) : LoopbackFlow where
  listener := true
  accepted := none
  idle := none
  pending := some pending
  redirect := redirect
  boundPort := boundPort
  deadline := deadline
  consumed := false

/-! ## The request -/

def blankLine : List Byte := [0x0d, 0x0a, 0x0d, 0x0a]

def position : List Byte → Option ℕ
  | [] => none
  | b :: bytes =>
    if blankLine.isPrefixOf (b :: bytes) then some 0 else (position bytes).map (· + 1)

/-- `split("\r\n")`. -/
def splitLines : List Char → List (List Char)
  | [] => [[]]
  | '\r' :: '\n' :: text => [] :: splitLines text
  | c :: text =>
    match splitLines text with
    | [] => [[c]]
    | line :: lines => (c :: line) :: lines

def eqIgnoreAsciiCase (left right : List Char) : Bool :=
  left.map Char.toLower = right.map Char.toLower

def isBlank (c : Char) : Bool := c = ' ' || c = '\t'

/-- `trim_matches`. -/
def trimBlanks (text : List Char) : List Char := (text.dropWhile isBlank).rdropWhile isBlank

def isTokenChar (c : Char) : Bool := c.isAlphanum || c ∈ "!#$%&'*+-.^_`|~".toList

structure Seen where
  host : Bool
  length : Bool

/-- One turn of the loop over the header lines. -/
def readHeader (host : List Char) (boundPort : UInt16) (seen : Seen) (line : List Char) :
    Except PrimitiveError Seen := do
  let (name, value) ← orElseError (FormText.cutAt ':' line) .correlation
  require (name ≠ [] ∧ name.all isTokenChar ∧
      !value.any fun c => (c < ' ' && c ≠ '\t') || '\x7f' ≤ c) .correlation
  let value := trimBlanks value
  if eqIgnoreAsciiCase name "Host".toList then
    let authority := host ++ ':' :: (toString boundPort.toNat).toList
    require (!seen.host && (eqIgnoreAsciiCase value authority ||
      (boundPort = 80 && eqIgnoreAsciiCase value host))) .correlation
    return { seen with host := true }
  else if eqIgnoreAsciiCase name "Content-Length".toList then
    require (!seen.length && value = "0".toList) .correlation
    return { seen with length := true }
  else if eqIgnoreAsciiCase name "Transfer-Encoding".toList then .error .correlation
  else return seen

def LoopbackRedirect.callbackQuery (redirect : LoopbackRedirect) (requestTarget : List Char) :
    Except PrimitiveError (List Char) := do
  require ((utf8 (String.ofList requestTarget)).length ≤ maxOauthTextBytes) .inputLimit
  let (path, query) ← orElseError (FormText.cutAt '?' requestTarget) .correlation
  require (path = redirect.path.toList ∧ '#' ∉ requestTarget) .correlation
  match redirect.query with
  | none => return query
  | some registered =>
    let registered := registered.toList
    require (registered.isPrefixOf query) .correlation
    let remainder := query.drop registered.length
    require (registered = [] || remainder = [] || remainder.head? = some '&') .correlation
    return query

def RedirectForm.text : RedirectForm → List Char
  | .localhost => "localhost".toList
  | .ipv4Loopback => "127.0.0.1".toList

/-- The text is cut in front of the blank line, which is four characters of ASCII at its end. -/
def requestQuery (request : List Byte) (finish : ℕ) (redirect : LoopbackRedirect)
    (boundPort : UInt16) : Except PrimitiveError String := do
  require (finish = request.length) .correlation
  let text ← orElseError (fromUtf8 request) .correlation
  match splitLines (text.toList.take (text.toList.length - 4)) with
  | [] => .error .correlation
  | first :: lines =>
    match first.splitOn ' ' with
    | [method, target, version] =>
      require (method = "GET".toList ∧ version = "HTTP/1.1".toList ∧
        !target.any fun c => c ≤ ' ' || '\x7f' ≤ c) .correlation
      let seen ← lines.foldlM (readHeader redirect.host.text boundPort)
        { host := false, length := false }
      require seen.host .correlation
      let query ← redirect.callbackQuery target
      return String.ofList query
    | _ => .error .correlation

/-- What the request is decided to be; the pending authorization is used up. -/
def callbackResult (redirect : LoopbackRedirect) (boundPort : UInt16)
    (pending : Option PendingAuthorization) (request : List Byte) (finish : ℕ) : CallbackResult :=
  match requestQuery request finish redirect boundPort with
  | .error error => .error (.ofPrimitive error)
  | .ok query =>
    match pending with
    | none => .error (.new .consumed)
    | some pending => (pending.correlateCallback query).mapError .ofPrimitive

/-- The completion page. -/
def page (ok : Bool) : List Byte :=
  let status := if ok then "200 OK" else "400 Bad Request"
  let body :=
    if ok then "Sign-in received. Return to the application.\n"
    else "Sign-in could not be completed. Return to the application.\n"
  utf8 ("HTTP/1.1 " ++ status ++ "\r\nContent-Type: text/plain; charset=utf-8\r\nContent-Length: "
    ++ toString (utf8 body).length ++ "\r\nCache-Control: no-store\r\nConnection: close\r\n\r\n"
    ++ body)

/-! ## The world -/

inductive AcceptAnswer where
  /-- A peer, whether its address is a loopback one, and whether it could be set nonblocking. -/
  | peer (loopback nonblocking : Bool)
  /-- `WouldBlock` or `Interrupted`. -/
  | wouldBlock
  | failed

inductive ReadAnswer where
  /-- The bytes that are there; none is the end of the stream. -/
  | bytes (bytes : List Byte)
  | wouldBlock
  | failed

inductive WriteAnswer where
  /-- How many bytes the socket has room for. -/
  | room (count : ℕ)
  | wouldBlock
  | failed

structure Moment where
  cancelled : Bool
  now : ℕ
  accept : AcceptAnswer
  read : ReadAnswer
  write : WriteAnswer

abbrev World := ℕ → Moment

inductive Event where
  | check (cancelled : Bool) (now : ℕ)
  | accept
  /-- The bytes that were read, none if it came to nothing. -/
  | read (peer : ℕ) (bytes : List Byte)
  | write (peer : ℕ) (bytes : List Byte)
  | decide (request : List Byte) (result : CallbackResult)
  /-- What a poll returned. -/
  | polled (progress : LoopbackProgress)

structure Run where
  flow : LoopbackFlow
  log : List Event

namespace Run

def note (run : Run) (event : Event) : Run := { run with log := run.log ++ [event] }

/-- The world's answers at this moment. -/
def moment (run : Run) (world : World) : Moment := world run.log.length

/-! ## Polling -/

def finish (result : CallbackResult) (run : Run) : LoopbackProgress × Run :=
  (.complete result, { run with flow := { run.flow with
    listener := false, accepted := none, idle := none, pending := none, consumed := true } })

def stopFailure : Stop → Failure
  | .cancelled => .cancelled
  | .deadline => .deadline

def stop (reason : Stop) (run : Run) : LoopbackProgress × Run :=
  let prior := run.flow.accepted.bind fun accepted => accepted.reply.bind Reply.result
  let error :=
    match prior with
    | some (.error error) => error
    | _ => .new (stopFailure reason)
  finish (.error { error with deliveryStopped := some reason }) run

/-- `stop_requested`, and `rest` unless that returns. -/
def unlessStopped (world : World) (rest : Run → LoopbackProgress × Run) (run : Run) :
    LoopbackProgress × Run :=
  let moment := run.moment world
  let run := run.note (.check moment.cancelled moment.now)
  if moment.cancelled then stop .cancelled run
  else if run.flow.deadline ≤ moment.now then stop .deadline run
  else rest run

/-- The size of a chunk. -/
def chunkBytes : ℕ := 1024

def readPeer (world : World) (accepted : Accepted) (run : Run) :
    Except LoopbackError (Option (List Byte)) × Run :=
  match (run.moment world).read with
  | .bytes bytes =>
    let chunk := bytes.take chunkBytes
    let run := run.note (.read accepted.peer chunk)
    if chunk = [] then (.error (.ofPrimitive .correlation), run) else (.ok (some chunk), run)
  | .wouldBlock => (.ok none, run.note (.read accepted.peer []))
  | .failed => (.error (.new .io), run.note (.read accepted.peer []))

/-- The end of `receive_chunk`, with a blank line in the request. -/
def decideCallback (accepted : Accepted) (request : List Byte) (finish : ℕ) (run : Run) :
    LoopbackProgress × Run :=
  let result := callbackResult run.flow.redirect run.flow.boundPort run.flow.pending request finish
  let reply := { bytes := page result.isOk, written := 0, result := some result }
  let flow := { run.flow with
    listener := false
    idle := none
    pending := none
    accepted := some { accepted with request := [], reply := some reply } }
  (.pending, { run.note (.decide request result) with flow })

def receiveChunk (chunk : List Byte) (run : Run) : LoopbackProgress × Run :=
  match run.flow.accepted with
  | none => finish (.error (.new .io)) run
  | some accepted =>
    if maxOauthTextBytes - accepted.request.length < chunk.length then
      finish (.error (.ofPrimitive .inputLimit)) run
    else
      let scanFrom := accepted.request.length - 3
      let request := accepted.request ++ chunk
      match position (request.drop scanFrom) with
      | none =>
        (.pending, { run with flow := { run.flow with
          accepted := some { accepted with request } } })
      | some start => decideCallback accepted request (scanFrom + start + 4) run

/-- `idle.take()`, and the chunk goes to `accepted`. -/
def commit (accepted : Accepted) (chunk : List Byte) (run : Run) : LoopbackProgress × Run :=
  receiveChunk chunk { run with flow := { run.flow with accepted := some accepted, idle := none } }

/-- Both peers are retained: the oldest is read once more before it is given up. -/
def recycle (world : World) (accepted idle incoming : Accepted) (run : Run) :
    LoopbackProgress × Run :=
  match readPeer world accepted run with
  | (.ok (some chunk), run) => commit accepted chunk run
  | (.ok none, run) =>
    (.pending, { run with flow := { run.flow with accepted := some idle, idle := some incoming } })
  | (.error error, run) => finish (.error error) run

def pollAccept (world : World) (run : Run) : LoopbackProgress × Run :=
  if !run.flow.listener then finish (.error (.new .io)) run
  else
    let incoming := { peer := run.log.length, request := [], reply := none }
    match (run.moment world).accept with
    | .wouldBlock => (.pending, run.note .accept)
    | .failed => finish (.error (.new .io)) (run.note .accept)
    | .peer loopback nonblocking =>
      let run := run.note .accept
      if !loopback then finish (.error (.ofPrimitive .correlation)) run
      else if !nonblocking then finish (.error (.new .io)) run
      else
        match run.flow.accepted, run.flow.idle with
        | none, _ =>
          (.pending, { run with flow := { run.flow with accepted := some incoming } })
        | some _, none =>
          (.pending, { run with flow := { run.flow with idle := some incoming } })
        | some accepted, some idle =>
          unlessStopped world (recycle world accepted idle incoming) run

def pageFailure (result : Option CallbackResult) : CallbackResult :=
  let error :=
    match result with
    | some (.error error) => error
    | _ => .new .io
  .error { error with replyFailed := true }

/-- `poll_reply`, with the reply at hand. -/
def pollReply (world : World) (accepted : Accepted) (reply : Reply) (run : Run) :
    LoopbackProgress × Run :=
  match (run.moment world).write with
  | .wouldBlock => (.pending, run.note (.write accepted.peer []))
  | .failed => finish (pageFailure reply.result) (run.note (.write accepted.peer []))
  | .room count =>
    let bytes := (reply.bytes.drop reply.written).take count
    let run := run.note (.write accepted.peer bytes)
    if bytes = [] then finish (pageFailure reply.result) run
    else
      let written := reply.written + bytes.length
      if written = reply.bytes.length then
        finish (reply.result.getD (.error (.new .consumed))) run
      else
        (.pending, { run with flow := { run.flow with
          accepted := some { accepted with reply := some { reply with written } } } })

/-- The oldest peer had nothing to read, and nothing has been read of it. -/
def pollIdle (world : World) (run : Run) : LoopbackProgress × Run :=
  match run.flow.idle with
  | none => unlessStopped world (pollAccept world) run
  | some idle =>
    unlessStopped world (fun run =>
      match readPeer world idle run with
      | (.ok (some chunk), run) => commit idle chunk run
      | (.ok none, run) => unlessStopped world (pollAccept world) run
      | (.error error, run) => finish (.error error) run) run

/-- The oldest peer has no reply yet. -/
def pollAccepted (world : World) (accepted : Accepted) (run : Run) : LoopbackProgress × Run :=
  match readPeer world accepted run with
  | (.ok (some chunk), run) => commit accepted chunk run
  | (.error error, run) => finish (.error error) run
  | (.ok none, run) => if accepted.request ≠ [] then (.pending, run) else pollIdle world run

def poll (world : World) (run : Run) : LoopbackProgress × Run :=
  if run.flow.consumed then (.complete (.error (.new .consumed)), run)
  else
    unlessStopped world (fun run =>
      match run.flow.accepted with
      | none => pollAccept world run
      | some accepted =>
        match accepted.reply with
        | some reply => pollReply world accepted reply run
        | none => pollAccepted world accepted run) run

/-- One poll, and what it returned. -/
def turn (world : World) (run : Run) : Run :=
  let polled := poll world run
  polled.2.note (.polled polled.1)

def turns (world : World) (run : Run) : ℕ → Run
  | 0 => run
  | n + 1 => turn world (turns world run n)

end Run

end Keld.Auth.Loopback
