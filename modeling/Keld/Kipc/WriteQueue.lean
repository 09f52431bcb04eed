/-
# `Keld.Kipc.WriteQueue` — one frame at a time on the socket

`writeFrame` hangs every frame on the promise of the one before it.  A `Frame`
stands for one admitted call: the bytes it is to write, how many the socket has
taken, and how far its promises have come.  The calls are numbered in the order
of their admission, so frame `k` hangs on the chain promise of frame `k - 1`.

What runs without interruption is one input: a call, a job of one frame, the
drain event.  Which job runs when is left open, and what the clock and the socket
answer while a job runs is in its script.
-/
import Keld.Kipc.Receive
import Keld.Ipc.Frame
import Keld.Lib.Machine

namespace Keld.Kipc

open FrameKind

/-! ## Errors -/

def maxFrameLen : ℕ := 16 * 1024 * 1024

def appLinkIoDeadlineMs : ℕ := 5000

def payloadTooLarge : KipcError where
  code := "KELD-IPC-004"
  detail := "frame payload exceeds MAX_FRAME_LEN (" ++ toString maxFrameLen ++ " bytes). " ++
    "Shrink the payload or move large transfers to the bulk plane."

def ioDeadlineExceeded : KipcError where
  code := "KELD-IPC-006"
  detail := "app-link I/O deadline exceeded. Check the peer is still running and sending kipc " ++
    "frames; a silent or wedged process will not be waited on forever."

def closedDuringWrite : KipcError := ⟨"KELD-IPC-001", "socket closed during write"⟩

def writeQueueStopped : KipcError where
  code := "KELD-IPC-001"
  detail := "write queue stopped after a previous write failed. Close the session and open a " ++
    "new app-link; do not send another frame after a truncated write."

/-! ## The header -/

def protocolVersion : Byte := 2

def knownFrameKinds : List ℕ :=
  [hello, call, reply, err, event,
    streamOpen, streamChunk, streamClose, cancel,
    grant, ping]

/-- The field is a natural number here, as all of the callers' are. -/
def requireHeaderInteger (field : String) (value max : ℕ) : Except KipcError ℕ := do
  require (value ≤ max)
    ⟨"KELD-IPC-003", field ++ " must be an unsigned integer no greater than " ++ toString max⟩
  return value

def validateHeaderForEncoding (header : FrameHeader) : Except KipcError FrameHeader := do
  let kind ← requireHeaderInteger "frame kind" header.kind 0xff
  require (kind ∈ knownFrameKinds)
    ⟨"KELD-IPC-003", "frame kind " ++ toString kind ++ " is not declared by kipc v" ++
      toString protocolVersion.toNat⟩
  let flags ← requireHeaderInteger "frame flags" header.flags 0xffff
  let channel ← requireHeaderInteger "frame channel" header.channel 0xffff
  let corr ← requireHeaderInteger "frame correlation" header.corr 0xffffffff
  let len ← requireHeaderInteger "frame payload length" header.len 0xffffffff
  return { kind, flags, channel, corr, len }

def encodeHeader (header : FrameHeader) : Except KipcError (List Byte) := do
  let header ← validateHeaderForEncoding header
  return [0x4b, 0x49] ++ ([protocolVersion] ++ ([UInt8.ofNat header.kind] ++
    (leBytes 2 header.flags ++ (leBytes 2 header.channel ++ (leBytes 4 header.corr ++
    leBytes 4 header.len)))))

/-- What `writeOneFrame` sets out to write. -/
def encodeFrame (kind flags channel corr : ℕ) (payload : List Byte) :
    Except KipcError (List Byte) := do
  let header ← encodeHeader { kind, flags, channel, corr, len := payload.length }
  return header ++ payload

/-! ## Writing one frame -/

inductive WriteResult where
  /-- A negative number. -/
  | closed
  /-- The socket takes so many of the bytes at most. -/
  | took (count : ℕ)

/-- What one turn of the loop finds. -/
structure Turn where
  now : ℕ
  result : WriteResult

inductive LoopEnd where
  | done
  | failed (error : KipcError)
  /-- The loop waits for the drain event. -/
  | parked
deriving DecidableEq

/-- The loop of `writeOneFrame` up to its end or its next `await`, with the offset there. -/
def writeLoop (frame : List Byte) (deadlineAt : ℕ) (script : ℕ → Turn) (turn offset : ℕ) :
    LoopEnd × ℕ :=
  if offset < frame.length then
    if deadlineAt ≤ (script turn).now then (.failed ioDeadlineExceeded, offset)
    else
      match (script turn).result with
      | .closed => (.failed closedDuringWrite, offset)
      | .took count =>
        let written := min count (frame.length - offset)
        if written = 0 then (.parked, offset)
        else writeLoop frame deadlineAt script (turn + 1) (offset + written)
  else (.done, offset)
termination_by frame.length - offset

/-! ## One call -/

inductive Stage where
  /-- Its `then` callback has not run. -/
  | queued
  /-- It awaits the drain event or its deadline. -/
  | parked (deadlineAt : ℕ)
  /-- The drain event came first. -/
  | woken (deadlineAt : ℕ)
  /-- The deadline came first. -/
  | timedOut
  /-- The promise of `writeOneFrame` is settled, and that of the call not yet. -/
  | wrote (result : Except KipcError Unit)
  /-- The promise of the call is settled. -/
  | settled (result : Except KipcError Unit)
  /-- The handler on it has run, so its chain promise is resolved. -/
  | linked (result : Except KipcError Unit)

structure Frame where
  /-- What is to be written, or why the header cannot be. -/
  bytes : Except KipcError (List Byte)
  /-- How many bytes the socket has taken. -/
  offset : ℕ
  stage : Stage

/-- What the caller's promise has settled to. -/
def Frame.result (frame : Frame) : Option (Except KipcError Unit) :=
  match frame.stage with
  | .settled result | .linked result => some result
  | _ => none

def Frame.isLinked (frame : Frame) : Bool :=
  match frame.stage with
  | .linked _ => true
  | _ => false

def Frame.isParked (frame : Frame) : Bool :=
  match frame.stage with
  | .parked _ => true
  | _ => false

/-- A job does this to its frame and to the queue. -/
structure Effect where
  frame : Frame
  sent : List Byte
  poisons : Bool

namespace Frame

/-- A change of the stage alone. -/
def goTo (frame : Frame) (stage : Stage) : Effect where
  frame := { frame with stage }
  sent := []
  poisons := false

/-- The loop goes on from the offset. -/
def write (frame : Frame) (bytes : List Byte) (deadlineAt : ℕ) (script : ℕ → Turn) : Effect :=
  let ended := writeLoop bytes deadlineAt script 0 frame.offset
  let stage :=
    match ended.1 with
    | .done => .wrote (.ok ())
    | .failed error => .wrote (.error error)
    | .parked => .parked deadlineAt
  { frame := { frame with offset := ended.2, stage }
    sent := (bytes.drop frame.offset).take (ended.2 - frame.offset)
    poisons := false }

end Frame

inductive Job where
  /-- The `then` callback on the chain, with the clock when the write begins. -/
  | start (now : ℕ) (script : ℕ → Turn)
  /-- What follows the `await`. -/
  | resume (script : ℕ → Turn)
  /-- The promise of the call takes over that of `writeOneFrame`. -/
  | adopt
  /-- The handler on the promise of the call. -/
  | link
  /-- The timer of `withIoDeadline`. -/
  | expire

/-- A job of a frame, if it is there to run. -/
def Frame.run (frame : Frame) (chainResolved : Bool) (poison : Option KipcError) :
    Job → Option Effect
  | .start now script =>
    match frame.stage with
    | .queued =>
      if !chainResolved then none
      else
        match poison, frame.bytes with
        | some error, _ => some (frame.goTo (.settled (.error error)))
        | none, .error error => some (frame.goTo (.wrote (.error error)))
        | none, .ok bytes => some (frame.write bytes (now + appLinkIoDeadlineMs) script)
    | _ => none
  | .resume script =>
    match frame.stage, frame.bytes with
    | .woken deadlineAt, .ok bytes => some (frame.write bytes deadlineAt script)
    | .timedOut, _ => some (frame.goTo (.wrote (.error ioDeadlineExceeded)))
    | _, _ => none
  | .adopt =>
    match frame.stage with
    | .wrote result => some (frame.goTo (.settled result))
    | _ => none
  | .link =>
    match frame.stage with
    | .settled result => some { frame.goTo (.linked result) with poisons := !result.isOk }
    | _ => none
  | .expire =>
    match frame.stage with
    | .parked _ => some (frame.goTo .timedOut)
    | _ => none

/-! ## The queue -/

structure WriteQueue where
  frames : List Frame
  poison : Option KipcError
  /-- The waiters of the drain signal. -/
  waiters : List ℕ
  /-- The bytes the socket has taken. -/
  sent : List Byte

inductive Input where
  | writeFrame (kind flags channel corr : ℕ) (payload : List Byte)
  | job (k : ℕ) (job : Job)
  /-- `DrainSignal.fire`. -/
  | fire

namespace WriteQueue

def new : WriteQueue := { frames := [], poison := none, waiters := [], sent := [] }

/-- The promise that frame `k` hangs on: the first is resolved from the start. -/
def chainResolved (q : WriteQueue) : ℕ → Bool
  | 0 => true
  | k + 1 => q.frames[k]?.any Frame.isLinked

/-- What the call returns at once: a rejected promise, or the frame whose promise it returns. -/
abbrev Returned := Except KipcError ℕ

def writeFrame (kind flags channel corr : ℕ) (payload : List Byte) (q : WriteQueue) :
    WriteQueue × Returned :=
  if maxFrameLen < payload.length then (q, .error payloadTooLarge)
  else
    match q.poison with
    | some error => (q, .error error)
    | none =>
      let frame :=
        { bytes := encodeFrame kind flags channel corr payload, offset := 0, stage := .queued }
      ({ q with frames := q.frames ++ [frame] }, .ok q.frames.length)

/-- The handler's error is kept unless there is one; a parked frame is a new waiter. -/
def apply (q : WriteQueue) (k : ℕ) (effect : Effect) : WriteQueue where
  frames := q.frames.set k effect.frame
  poison := if effect.poisons then some (q.poison.getD writeQueueStopped) else q.poison
  waiters := if effect.frame.isParked then q.waiters ++ [k] else q.waiters
  sent := q.sent ++ effect.sent

def runJob (q : WriteQueue) (k : ℕ) (job : Job) : WriteQueue :=
  match q.frames[k]?.bind fun frame => frame.run (q.chainResolved k) q.poison job with
  | some effect => q.apply k effect
  | none => q

/-- What a resolved waiter makes of its frame. -/
def wake (waiters : List ℕ) (k : ℕ) (frame : Frame) : Frame :=
  match frame.stage with
  | .parked deadlineAt => if k ∈ waiters then { frame with stage := .woken deadlineAt } else frame
  | _ => frame

def fire (q : WriteQueue) : WriteQueue :=
  { q with frames := q.frames.mapIdx (wake q.waiters), waiters := [] }

def step (q : WriteQueue) : Input → WriteQueue × Option Returned
  | .writeFrame kind flags channel corr payload =>
    let called := q.writeFrame kind flags channel corr payload
    (called.1, some called.2)
  | .job k job => (q.runJob k job, none)
  | .fire => (q.fire, none)

/-- Every run of the queue. -/
def machine : Machine WriteQueue Input (Option Returned) where
  init := new
  step := step

end WriteQueue

end Keld.Kipc
