/-
# `Keld.Runtime.Capture` — what the supervisor keeps of a child's output

Of each stream a pinned head and a sliding tail are kept; what lies between is cut
out when the retained text exceeds its ceiling, at line boundaries where there
are any.  The stream is the list of its bytes.  An operation of the standard library that
panics on a cut inside a character or on crossed bounds is partial here, and so is
everything that uses it.

Marker matching shares the clock of the raw stdout bytes: a prefix table is built
when the markers are registered, and each read moves the automaton of every
marker that was not seen yet.
-/
import Keld.Lib.Lossy
import Keld.Runtime.Lifecycle

namespace Keld.Runtime

/-! ## The bounded transcript -/

/-- `usize::MAX` of a 64-bit host. -/
def usizeMax : ℕ := 0xffffffffffffffff

/-- `usize::saturating_add`. -/
def saturatingAdd (a b : ℕ) : ℕ := min (a + b) usizeMax

/-- The byte `\n`. -/
def newline : Byte := 0x0a

def captureHeadBytes : ℕ := 64 * 1024
def captureTailBytes : ℕ := 192 * 1024
def captureRetentionBytes : ℕ := captureHeadBytes + captureTailBytes
def captureCompactionSlackBytes : ℕ := 64 * 1024
def captureMaxRetainedBytes : ℕ := captureRetentionBytes + captureCompactionSlackBytes

/-- `stream.as_bytes()[start..stop]`. -/
def byteRange (stream : List Byte) (start stop : ℕ) : Option (List Byte) :=
  if start ≤ stop ∧ stop ≤ stream.length then some ((stream.take stop).drop start) else none

/-- `stream[start..]`. -/
def textFrom (stream : List Byte) (start : ℕ) : Option (List Byte) :=
  if isCharBoundary stream start then some (stream.drop start) else none

/-- `String::drain`. -/
def drain (stream : List Byte) (start stop : ℕ) : Option (List Byte) :=
  if start ≤ stop ∧ isCharBoundary stream start ∧ isCharBoundary stream stop then
    some (stream.take start ++ stream.drop stop)
  else none

/-- `String::insert` of an ASCII character. -/
def insertAt (stream : List Byte) (index : ℕ) (b : Byte) : Option (List Byte) :=
  if isCharBoundary stream index then some (stream.take index ++ b :: stream.drop index) else none

/-- The loop of `boundary_at_or_after`; no more turns are needed than there are bytes left. -/
def seekBoundary (stream : List Byte) : ℕ → ℕ → ℕ
  | 0, boundary => boundary
  | turns + 1, boundary =>
    if boundary < stream.length ∧ isCharBoundary stream boundary = false then
      seekBoundary stream turns (boundary + 1)
    else boundary

def boundaryAtOrAfter (stream : List Byte) (index : ℕ) : ℕ :=
  if stream.length ≤ index then stream.length
  else seekBoundary stream (stream.length - index) index

/-- End of the pinned head, and whether it lands just after a newline. -/
def headCut (stream : List Byte) : Option (ℕ × Bool) := do
  let start := boundaryAtOrAfter stream captureHeadBytes
  let limit := captureMaxRetainedBytes - captureTailBytes
  let window ← byteRange stream start limit
  match window.findIdx? (· == newline) with
  | some offset => return (start + offset + 1, true)
  | none => return (start, false)

/-- Start of the sliding tail. -/
def tailCut (stream : List Byte) : Option ℕ := do
  let start := boundaryAtOrAfter stream (stream.length - captureTailBytes)
  let window ← textFrom stream start
  match (window.findIdx? (· == newline)).filter (start + · + 1 < stream.length) with
  | some offset => return start + offset + 1
  | none => return start

/-- One stream of `CapturedOutput`. -/
structure CapturedStream where
  text : List Byte := []
  totalBytes : ℕ := 0
  droppedBytes : ℕ := 0
  separatorBytes : ℕ := 0
deriving DecidableEq, Repr

/-- The compaction at the end of `append`. -/
def CapturedStream.compact (s : CapturedStream) : Option CapturedStream := do
  let (headEnd, headIsLineAligned) ← headCut s.text
  let tailStart ← tailCut s.text
  let text ← drain s.text headEnd tailStart
  let droppedBytes := saturatingAdd s.droppedBytes (tailStart - headEnd)
  if headIsLineAligned then return { s with text, droppedBytes }
  let text ← insertAt text headEnd newline
  return { s with text, droppedBytes, separatorBytes := saturatingAdd s.separatorBytes 1 }

def CapturedStream.append (s : CapturedStream) (chunk : List Byte) (rawLen : ℕ) :
    Option CapturedStream :=
  let s := { s with totalBytes := saturatingAdd s.totalBytes rawLen, text := s.text ++ chunk }
  if s.text.length ≤ captureMaxRetainedBytes then some s else s.compact

structure CapturedOutput where
  stdout : CapturedStream := {}
  stderr : CapturedStream := {}
deriving DecidableEq, Repr

def CapturedOutput.pushChunk (output : CapturedOutput) (chunk : List Byte) (rawLen : ℕ)
    (isStdout : Bool) : Option CapturedOutput :=
  if isStdout then do return { output with stdout := ← output.stdout.append chunk rawLen }
  else do return { output with stderr := ← output.stderr.append chunk rawLen }

/-! ## Markers -/

structure StdoutMarker where
  bytes : List Byte
  prefixes : List ℕ
  matched : ℕ := 0
  firstEnd : Option ℕ := none
deriving DecidableEq, Repr

/-- The loop that falls back to shorter prefixes; it ends when a byte fits or nothing is matched,
and takes no more turns than `matched` and one. -/
def fallBack (bytes : List Byte) (prefixes : List ℕ) (byte : Byte) : ℕ → ℕ → Option ℕ
  | 0, _ => none
  | _ + 1, 0 => some 0
  | turns + 1, matched + 1 => do
    let expected ← bytes[matched + 1]?
    if byte = expected then return matched + 1
    fallBack bytes prefixes byte turns (← prefixes[matched]?)

/-- The matched prefix after one more byte, in the table's loop and in that over a read. -/
def advance (bytes : List Byte) (prefixes : List ℕ) (matched : ℕ) (byte : Byte) : Option ℕ := do
  let matched ← fallBack bytes prefixes byte (matched + 1) matched
  let expected ← bytes[matched]?
  return if byte = expected then matched + 1 else matched

/-- The entries of the prefix table from `index` on. -/
def prefixTableFrom (bytes : List Byte) : ℕ → ℕ → ℕ → List ℕ → Option (List ℕ)
  | 0, _, _, prefixes => some prefixes
  | turns + 1, index, matched, prefixes => do
    let matched ← advance bytes prefixes matched (← bytes[index]?)
    prefixTableFrom bytes turns (index + 1) matched (prefixes.set index matched)

def prefixTable (bytes : List Byte) : Option (List ℕ) :=
  prefixTableFrom bytes (bytes.length - 1) 1 0 (List.replicate bytes.length 0)

structure CaptureState where
  transcript : CapturedOutput
  markers : List StdoutMarker
deriving DecidableEq, Repr

def registrationError : RuntimeError :=
  lifecycleError "stdout marker registration" .invalidInput <|
    "register at most 32 unique nonempty stdout markers totaling at most 4096 UTF-8 bytes"

/-- `checked_add` over the lengths, on a 64-bit host. -/
def checkedTotal (markers : List String) : Option ℕ :=
  markers.foldlM (fun total marker =>
    if total + (utf8 marker).length ≤ usizeMax then some (total + (utf8 marker).length) else none) 0

/-- What the registration refuses. -/
def markersRefused (markers : List String) : Bool :=
  decide (markers.length > 32) || (checkedTotal markers).all (4096 < ·) ||
    markers.zipIdx.any fun (marker, index) => marker.isEmpty || (markers.take index).contains marker

/-- `none` is a panic. -/
def CaptureState.new (markers : List String) : Option (Except RuntimeError CaptureState) := do
  if markersRefused markers then return .error registrationError
  let markers ← markers.mapM fun marker => do
    return { bytes := utf8 marker, prefixes := ← prefixTable (utf8 marker) : StdoutMarker }
  return .ok { transcript := {}, markers }

def CaptureState.beginGeneration (s : CaptureState) : CaptureState :=
  { s with markers := s.markers.map ({ · with matched := 0 }) }

/-- The bytes of one read, the first of them at `index`. -/
def StdoutMarker.scan (total : ℕ) : ℕ → List Byte → StdoutMarker → Option StdoutMarker
  | _, [], marker => some marker
  | index, byte :: rest, marker => do
    let matched ← advance marker.bytes marker.prefixes marker.matched byte
    let marker := { marker with matched }
    if matched = marker.bytes.length then
      return { marker with firstEnd := some (saturatingAdd (saturatingAdd total index) 1) }
    scan total (index + 1) rest marker

/-- The markers after a read. -/
def CaptureState.scanMarkers (s : CaptureState) (bytes : List Byte) (isStdout : Bool) :
    Option (List StdoutMarker) :=
  if isStdout then
    s.markers.mapM fun marker =>
      if marker.firstEnd.isSome then some marker
      else marker.scan s.transcript.stdout.totalBytes 0 bytes
  else some s.markers

def CaptureState.pushRaw (s : CaptureState) (bytes : List Byte) (isStdout : Bool) :
    Option CaptureState := do
  let markers ← s.scanMarkers bytes isStdout
  let transcript ← s.transcript.pushChunk (fromUtf8Lossy bytes) bytes.length isStdout
  return { transcript, markers }

/-! ## Runs -/

/-- What happens to the capture state after the registration. -/
inductive CaptureEvent where
  | read (bytes : List Byte) (isStdout : Bool)
  | generation
deriving DecidableEq, Repr

def CaptureState.handle (s : CaptureState) : CaptureEvent → Option CaptureState
  | .read bytes isStdout => s.pushRaw bytes isStdout
  | .generation => some s.beginGeneration

def CaptureState.handleAll (s : CaptureState) (events : List CaptureEvent) : Option CaptureState :=
  events.foldlM CaptureState.handle s

/-- The bytes of one stream. -/
def outputOf (isStdout : Bool) (events : List CaptureEvent) : List Byte :=
  events.flatMap fun
    | .read bytes stdout => if stdout = isStdout then bytes else []
    | .generation => []

end Keld.Runtime
