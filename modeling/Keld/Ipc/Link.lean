/-
# `Keld.Ipc.Link` — framed reads and writes on a byte stream

What the reads on a link meet is a script: runs of bytes that have arrived, the end of
the stream, and failed calls.  A read takes what fits its buffer and leaves the rest of
a run for the next one, so a script is any chunking of the peer's bytes.  A reader that
reaches the end of its script is still waiting: it has not returned.

There are three read loops with different retry rules: `readExact` is the standard
library's, `readExactStalled` adds one stall clock per frame, and
`readExactInterruptible` also watches a stop flag, an idle deadline and a hard one.
Clock readings and loads of the stop flag are numbered, and the environment says what
each one finds.
-/
import Keld.Ipc.Receive
import Keld.Lib.Proc

namespace Keld.Ipc

/-- A point of the monotonic clock, in nanoseconds. -/
abbrev Instant := Nat

/-- Nanoseconds. -/
abbrev Duration := Nat

/-- `APP_LINK_IO_DEADLINE`, five seconds. -/
def appLinkIoDeadline : Duration := 5 * 1000000000

/-! ## The stream -/

/-- What a call of `read` can meet. -/
inductive Delivery
  | bytes (first : Byte) (more : List Byte)
  | eof
  | failed (kind : ErrorKind)
deriving DecidableEq, Repr

/-- A failed write: how many bytes it had put on the wire, and its error. -/
structure WriteFault where
  put : Nat
  kind : ErrorKind
deriving DecidableEq, Repr

/-- What the machine around the link answers. -/
structure Env where
  /-- the nth reading of the clock -/
  now : Nat → Instant
  /-- the last instant the clock can represent -/
  horizon : Instant
  /-- the nth load of the stop flag -/
  stop : Nat → Bool
  /-- what goes wrong with the nth write or flush -/
  writeFault : Nat → Option WriteFault

structure Link where
  script : List Delivery
  written : List Byte
  /-- clock readings so far -/
  readings : Nat
  /-- loads of the stop flag so far -/
  loads : Nat
  /-- writes and flushes so far -/
  writes : Nat
  /-- some check found its deadline reached -/
  lapsed : Bool
deriving DecidableEq, Repr

/-- A fresh link in front of a script. -/
def Link.fresh (script : List Delivery) : Link := ⟨script, [], 0, 0, 0, false⟩

/-- Why a computation on a link has no value. -/
inductive Halt
  | failed (err : IpcError)
  /-- it is still in a read that has not returned -/
  | waiting
deriving DecidableEq, Repr

abbrev Io := Proc Link Halt

/-- An error of the pure part of a reader. -/
def orFail {α : Type} (r : Except IpcError α) : Io α :=
  Proc.ofExcept (match r with
    | .ok a => .ok a
    | .error err => .error (.failed err))

/-- What a read leaves of a run of bytes. -/
def unread : List Byte → List Delivery → List Delivery
  | [], rest => rest
  | first :: more, rest => .bytes first more :: rest

/-! ## Clocks -/

def Env.checkedAdd (env : Env) (start : Instant) (limit : Duration) : Option Instant :=
  if start + limit ≤ env.horizon then some (start + limit) else none

/-- `deadline.is_some_and(|deadline| Instant::now() >= deadline)`. -/
def Link.passed (env : Env) (link : Link) (deadline : Option Instant) : Bool :=
  match deadline with
  | none => false
  | some d => d ≤ env.now link.readings

/-- The link after that check: the clock was read if there was a deadline. -/
def Link.checked (env : Env) (link : Link) (deadline : Option Instant) : Link :=
  match deadline with
  | none => link
  | some d =>
    { link with
      readings := link.readings + 1
      lapsed := link.lapsed || decide (d ≤ env.now link.readings) }

/-- The first bytes of a frame start its stall clock; a clock that runs is kept. -/
def Link.stallFrom (env : Env) (limit : Duration) (link : Link) (stall : Option Instant) :
    Option Instant :=
  match stall with
  | some d => some d
  | none => env.checkedAdd (env.now link.readings) limit

def Link.started (env : Env) (limit : Duration) (link : Link) (stall : Option Instant) : Link :=
  match stall with
  | some _ => link
  | none =>
    { link with
      readings := link.readings + 1
      lapsed := link.lapsed || (env.checkedAdd (env.now link.readings) limit).isNone }

/-! ## The three read loops -/

/-- Why `Read::read_exact` has no value. -/
inductive ReadHalt
  | failed (kind : ErrorKind)
  | waiting
deriving DecidableEq, Repr

def ReadHalt.toHalt : ReadHalt → Halt
  | .failed kind => .failed (.ofIo kind)
  | .waiting => .waiting

/-- The loop of `Read::read_exact` of the standard library. -/
def readExactLoop (link : Link) (filled : List Byte) (need : Nat) :
    List Delivery → Except ReadHalt (List Byte) × Link
  | [] => (.error .waiting, { link with script := [] })
  | .bytes first more :: rest =>
    if need ≤ more.length + 1 then
      (.ok (filled ++ (first :: more).take need),
        { link with script := unread ((first :: more).drop need) rest })
    else readExactLoop link (filled ++ first :: more) (need - (more.length + 1)) rest
  | .eof :: rest => (.error (.failed .unexpectedEof), { link with script := rest })
  | .failed kind :: rest =>
    if kind = .interrupted then readExactLoop link filled need rest
    else (.error (.failed kind), { link with script := rest })

/-- `Read::read_exact`, with the error of the standard library. -/
def readExactIo (len : Nat) : Proc Link ReadHalt (List Byte) := fun link =>
  if len = 0 then (.ok [], link) else readExactLoop link [] len link.script

def readExact (len : Nat) : Io (List Byte) := (readExactIo len).mapError ReadHalt.toHalt

/-- `read_exact_stalled_with`: `need` bytes are missing, `filled` are there. -/
def readExactStalledLoop (env : Env) (limit : Duration) (link : Link) (stall : Option Instant)
    (filled : List Byte) (need : Nat) (script : List Delivery) :
    Except Halt (List Byte × Option Instant) × Link :=
  if link.passed env stall then
    (.error (.failed .timeout), { link.checked env stall with script := script })
  else
    let link := link.checked env stall
    match script with
    | [] => (.error .waiting, { link with script := [] })
    | .eof :: rest => (.error (.failed (.io .unexpectedEof)), { link with script := rest })
    | .bytes first more :: rest =>
      let left := unread ((first :: more).drop need) rest
      match link.stallFrom env limit stall with
      | none =>
        (.error (.failed .timeout), { link.started env limit stall with script := left })
      | some d =>
        let link := link.started env limit stall
        if need ≤ more.length + 1 then
          (.ok (filled ++ (first :: more).take need, some d), { link with script := left })
        else
          readExactStalledLoop env limit link (some d) (filled ++ first :: more)
            (need - (more.length + 1)) rest
    | .failed kind :: rest =>
      if kind = .interrupted then readExactStalledLoop env limit link stall filled need rest
      else (.error (.failed (.ofIo kind)), { link with script := rest })

def readExactStalledWith (env : Env) (limit : Duration) (len : Nat) (stall : Option Instant) :
    Io (List Byte × Option Instant) := fun link =>
  if len = 0 then (.ok ([], stall), link)
  else readExactStalledLoop env limit link stall [] len link.script

/-- The deadlines of an interruptible read. -/
structure Deadlines where
  /-- caps the whole read -/
  hard : Option Instant
  /-- ends a read that has met no byte yet -/
  idle : Option Instant
deriving DecidableEq, Repr

/-- `read_exact_interruptible`: no value when the read was stopped. -/
def readExactInterruptibleLoop (env : Env) (deadlines : Deadlines) (limit : Duration)
    (link : Link) (stall : Option Instant) (filled : List Byte) (need : Nat)
    (script : List Delivery) :
    Except Halt (Option (List Byte × Option Instant)) × Link :=
  let stopped := env.stop link.loads
  let link := { link with loads := link.loads + 1 }
  if stopped then (.ok none, { link with script := script })
  else if link.passed env deadlines.hard then
    (.error (.failed .timeout), { link.checked env deadlines.hard with script := script })
  else
    let link := link.checked env deadlines.hard
    if link.passed env stall then
      (.error (.failed .timeout), { link.checked env stall with script := script })
    else
      let link := link.checked env stall
      match script with
      | [] => (.error .waiting, { link with script := [] })
      | .eof :: rest => (.error (.failed (.io .unexpectedEof)), { link with script := rest })
      | .bytes first more :: rest =>
        let left := unread ((first :: more).drop need) rest
        match link.stallFrom env limit stall with
        | none =>
          (.error (.failed .timeout), { link.started env limit stall with script := left })
        | some d =>
          let link := link.started env limit stall
          if need ≤ more.length + 1 then
            (.ok (some (filled ++ (first :: more).take need, some d)),
              { link with script := left })
          else
            readExactInterruptibleLoop env deadlines limit link (some d)
              (filled ++ first :: more) (need - (more.length + 1)) rest
      | .failed kind :: rest =>
        if kind = .interrupted then
          readExactInterruptibleLoop env deadlines limit link stall filled need rest
        else if kind = .timedOut ∨ kind = .wouldBlock then
          if link.passed env stall then
            (.error (.failed .timeout), { link.checked env stall with script := rest })
          else
            let link := link.checked env stall
            -- only a poll that meets no byte of a new frame consults the idle deadline
            let idle := if filled = [] ∧ stall = none then deadlines.idle else none
            if link.passed env idle then
              (.ok none, { link.checked env idle with script := rest })
            else
              readExactInterruptibleLoop env deadlines limit (link.checked env idle) stall
                filled need rest
        else (.error (.failed (.ofIo kind)), { link with script := rest })

def readExactInterruptible (env : Env) (deadlines : Deadlines) (limit : Duration) (len : Nat)
    (stall : Option Instant) : Io (Option (List Byte × Option Instant)) := fun link =>
  if len = 0 then (.ok (some ([], stall)), link)
  else readExactInterruptibleLoop env deadlines limit link stall [] len link.script

/-! ## Frames -/

def ensurePayloadLen (len : Nat) : Except IpcError Unit :=
  require (len ≤ maxFrameLen) .payloadTooLarge

/-- Decodes a header and rejects an oversized declared length before any allocation. -/
def decodeBounded (bytes : List Byte) : Except IpcError FrameHeader := do
  let header ← (FrameHeader.decode bytes).mapError .header
  ensurePayloadLen header.len.toNat
  return header

def readFrame : Io (FrameHeader × List Byte) := do
  let bytes ← readExact headerLen
  let header ← orFail (decodeBounded bytes)
  let payload ← readExact header.len.toNat
  return (header, payload)

def readValidatedFrame (env : Env) (policy : ReceivePolicy) :
    Io (ValidatedFrameHeader × List Byte) := do
  let (bytes, stall) ← readExactStalledWith env appLinkIoDeadline headerLen none
  let header ← orFail (decodeBounded bytes)
  let validated ← orFail (validateReceivedHeader policy header)
  let (payload, _) ← readExactStalledWith env appLinkIoDeadline header.len.toNat stall
  return (validated, payload)

def readFrameInterruptibleValidatedWith {τ : Type} (env : Env) (deadlines : Deadlines)
    (limit : Duration) (validate : FrameHeader → Except IpcError τ) :
    Io (Option (τ × List Byte)) := do
  match ← readExactInterruptible env deadlines limit headerLen none with
  | none => return none
  | some (bytes, stall) =>
    let header ← orFail (decodeBounded bytes)
    let validated ← orFail (validate header)
    match ← readExactInterruptible env { deadlines with idle := none } limit
      header.len.toNat stall with
    | none => return none
    | some (payload, _) => return some (validated, payload)

/-- The second validation of a frame the policy-aware reader has validated. -/
def mintValidated (policy : ReceivePolicy) (frame : Option (FrameHeader × List Byte)) :
    Except IpcError (Option (ValidatedFrameHeader × List Byte)) :=
  match frame with
  | none => .ok none
  | some (header, payload) => do
    let validated ← validateReceivedHeader policy header
    return some (validated, payload)

/-- `read_frame_interruptible_with_limits` under a policy, then `mint_validated`. -/
def readValidatedFrameInterruptible (env : Env) (hard : Option Instant) (policy : ReceivePolicy) :
    Io (Option (ValidatedFrameHeader × List Byte)) := do
  let frame ← readFrameInterruptibleValidatedWith env ⟨hard, none⟩ appLinkIoDeadline
    (fun header => do
      let _ ← validateReceivedHeader policy header
      return header)
  orFail (mintValidated policy frame)

/-! ## Writes -/

def writeAll (env : Env) (bytes : List Byte) : Io Unit := fun link =>
  let link' := { link with writes := link.writes + 1 }
  match env.writeFault link.writes with
  | none => (.ok (), { link' with written := link.written ++ bytes })
  | some fault =>
    (.error (.failed (.ofIo fault.kind)),
      { link' with written := link.written ++ bytes.take fault.put })

def flush (env : Env) : Io Unit := writeAll env []

/-- The arguments of `write_frame`. -/
structure Frame where
  kind : FrameKind
  flags : UInt16
  channel : ChannelId
  corr : CorrelationId
  payload : List Byte
deriving DecidableEq, Repr

/-- The header a frame is written under. -/
def Frame.header (frame : Frame) : FrameHeader :=
  ⟨frame.kind, frame.flags, frame.channel, frame.corr, UInt32.ofNat frame.payload.length⟩

def writeFrame (env : Env) (frame : Frame) : Io Unit := do
  orFail (ensurePayloadLen frame.payload.length)
  writeAll env frame.header.encode
  (if frame.payload = [] then pure () else writeAll env frame.payload)
  flush env

end Keld.Ipc
