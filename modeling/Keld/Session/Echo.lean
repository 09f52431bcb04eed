/-
# `Keld.Session.Echo` — the host's calls to the primary

The renderer thread begins a call under the generation lock and the lock of the
pending call; whoever answers or retires it holds the latter.  Two atomics mirror
the pending call for the header admission of the readers, which takes no lock, so
every store of a critical section is a step of its own here.

An event is one thread doing its next thing; where it has to wait for a lock, or
has no such thing to do, nothing happens.
-/
import Mathlib.Data.List.Perm.Basic
import Mathlib.Tactic.Common
import Mathlib.Algebra.Group.Nat.Defs

namespace Keld.Session

/-- `PendingPrimaryEcho`; the serial number tells apart calls that share a correlation. -/
structure EchoCall where
  serial : ℕ
  attempt : ℕ
  correlation : ℕ
deriving DecidableEq

inductive EchoOutcome where
  /-- A Reply or an Err that the reader of `attempt` received for `correlation`. -/
  | answered (attempt correlation : ℕ) (ok : Bool)
  | retired
  /-- The call's frame could not be written: its caller never got a waiter. -/
  | unwritten
deriving DecidableEq

/-- Who holds the generation lock for more than one step. -/
inductive EchoHolder where
  /-- `begin_echo_call`. -/
  | calling
  /-- `retire_current_generation_locked`, which has taken the generation. -/
  | retiring (attempt : ℕ)
  /-- The forced tail, or `stop_and_join`. -/
  | ending (stop : Bool)
deriving DecidableEq

/-- Where the holder of the lock of the pending call is. -/
inductive EchoSection where
  /-- A call is pending, and neither atomic is stored. -/
  | begun
  /-- The attempt is stored. -/
  | stamped
  /-- Both are stored, and the frame is being written. -/
  | posted
  /-- The correlation is zero again; `owner` is the reader that holds the lock, if one does. -/
  | clearing (outcome : EchoOutcome) (owner : Option ℕ)
  /-- Both are zero again. -/
  | cleared (outcome : EchoOutcome) (owner : Option ℕ)
deriving DecidableEq

/-- Why the thread of a reader fails. -/
inductive ReaderFault where
  /-- The header admission refused an echo frame. -/
  | unmatched
  /-- An Err without a `CallError` in it. -/
  | undecodable
  /-- `finish_pending_echo` found no such call. -/
  | orphaned
  | link
deriving DecidableEq

inductive EchoReader where
  | idle
  /-- `pending_echo_corr_for` has loaded the correlation. -/
  | loaded (correlation : ℕ)
  /-- The header was admitted, and the payload is being read. -/
  | admitted (correlation : ℕ)
  /-- The frames are over, and the pending call of the generation is to be failed. -/
  | failing (fault : ReaderFault)
  | concluding (fault : ReaderFault)
  /-- The generation is not the current one. -/
  | judging (fault : ReaderFault)
  /-- This reader's `Quit` reserved the session. -/
  | quitting
  | closing
  | ended (result : Option ReaderFault)
deriving DecidableEq

structure Echo where
  pending : Option EchoCall := none
  /-- `pending_echo_attempt`. -/
  attempt : ℕ := 0
  /-- `pending_echo_corr`. -/
  correlation : ℕ := 0
  nextHostCorr : ℕ := 1
  inside : Option EchoSection := none
  holder : Option EchoHolder := none
  current : Option ℕ := none
  /-- The last generation that was installed. -/
  lastAttempt : ℕ := 0
  running : Bool := true
  stopped : Bool := false
  readers : ℕ → Option EchoReader := fun _ => none
  /-- Every call so far. -/
  calls : List EchoCall := []
  /-- What the waiters received. -/
  settled : List (EchoCall × EchoOutcome) := []

inductive EchoEvent where
  | install (attempt : ℕ)
  | call
  /-- The holder of the lock of the pending call goes on; `written` is what its write gives. -/
  | proceed (written : Bool)
  | loadCorrelation (attempt : ℕ)
  /-- The rest of the admission, for an echo frame. -/
  | admission (attempt correlation : ℕ)
  /-- The rest of the admission, for another frame. -/
  | otherFrame (attempt : ℕ)
  /-- The reader of an admitted frame comes to settle it: a Reply, or an Err that decodes or does
  not. -/
  | settle (attempt : ℕ) (ok decodes : Bool)
  /-- The reader was told to stop. -/
  | leave (attempt : ℕ)
  /-- The link ended, which the owner may recover. -/
  | disconnect (attempt : ℕ)
  | linkFault (attempt : ℕ)
  /-- A failed reader goes on. -/
  | conclude (attempt : ℕ)
  /-- A retirement takes the current generation. -/
  | retire
  /-- The holder of the generation lock comes to the pending call. -/
  | retireEcho
  /-- The session cause is reserved: by the `Quit` of a reader, or otherwise. -/
  | reserve (quit : Option ℕ)
  /-- The accepted `Quit` goes on. -/
  | quit (attempt : ℕ)
  /-- The forced tail or `stop_and_join` takes the generation lock. -/
  | finish (stop : Bool)

namespace Echo

def setReader (s : Echo) (attempt : ℕ) (reader : EchoReader) : Echo :=
  { s with readers := fun other => if other = attempt then some reader else s.readers other }

/-- Whether the reader's thread is outside the lock of the pending call. -/
def outside (s : Echo) (attempt : ℕ) : Bool :=
  match s.inside with
  | some (.clearing _ owner) | some (.cleared _ owner) => owner ≠ some attempt
  | _ => true

/-- `mint_host_correlation`: the correlation, and the counter after it. -/
def mint (next : ℕ) : ℕ × ℕ := if next = 0 then (1, 2) else (next, (next + 1) % 2 ^ 32)

/-- `fail_pending_echo`, up to its first store; `owner` is the reader that calls it. -/
def failPending (s : Echo) (attempt : Option ℕ) (owner : Option ℕ) : Echo :=
  match s.pending with
  | none => s
  | some waiter =>
    if attempt ≠ none ∧ attempt ≠ some waiter.attempt then s
    else
      { s with
        correlation := 0
        inside := some (.clearing .retired owner) }

/-- `install_prepared_generation_with_identity`. -/
def install (s : Echo) (attempt : ℕ) : Echo :=
  if s.holder = none ∧ s.running ∧ ¬ s.stopped ∧ s.current = none ∧ s.lastAttempt < attempt then
    { s with
      current := some attempt
      lastAttempt := attempt }.setReader attempt .idle
  else s

/-- `begin_echo_call`, up to the pending call; a refusal changes nothing. -/
def call (s : Echo) : Echo :=
  match s.current with
  | none => s
  | some attempt =>
    if s.holder = none ∧ s.inside = none ∧ s.running ∧ s.pending = none then
      let waiter := ⟨s.calls.length, attempt, (mint s.nextHostCorr).1⟩
      { s with
        pending := some waiter
        nextHostCorr := (mint s.nextHostCorr).2
        inside := some .begun
        holder := some .calling
        calls := s.calls ++ [waiter] }
    else s

/-- The pending call is taken and its waiter told, and the lock released. -/
def release (s : Echo) (waiter : EchoCall) (outcome : EchoOutcome) (owner : Option ℕ) : Echo :=
  let s :=
    { s with
      pending := none
      inside := none
      settled := s.settled ++ [(waiter, outcome)] }
  if owner ≠ none then s
  else
    match s.holder with
    | none => s
    | some .calling =>
      { s with
        current := none
        holder := some (.retiring waiter.attempt) }
    | some (.retiring _) => { s with holder := none }
    | some (.ending stop) =>
      { s with
        current := none
        holder := none
        stopped := s.stopped || stop }

/-- The next step inside the lock of the pending call. -/
def proceed (s : Echo) (written : Bool) : Echo :=
  match s.pending, s.inside with
  | some waiter, some .begun =>
    { s with
      attempt := waiter.attempt
      inside := some .stamped }
  | some waiter, some .stamped =>
    { s with
      correlation := waiter.correlation
      inside := some .posted }
  | some _, some .posted =>
    if written then
      { s with
        inside := none
        holder := none }
    else
      { s with
        correlation := 0
        inside := some (.clearing .unwritten none) }
  | some _, some (.clearing outcome owner) =>
    { s with
      attempt := 0
      inside := some (.cleared outcome owner) }
  | some waiter, some (.cleared outcome owner) => s.release waiter outcome owner
  | _, _ => s

def loadCorrelation (s : Echo) (attempt : ℕ) : Echo :=
  if s.outside attempt ∧ s.readers attempt = some .idle then
    s.setReader attempt (.loaded s.correlation)
  else s

def admission (s : Echo) (attempt correlation : ℕ) : Echo :=
  match s.readers attempt with
  | some (.loaded pending) =>
    if pending ≠ 0 ∧ s.attempt = attempt ∧ correlation = pending then
      s.setReader attempt (.admitted pending)
    else s.setReader attempt (.failing .unmatched)
  | _ => s

def otherFrame (s : Echo) (attempt : ℕ) : Echo :=
  match s.readers attempt with
  | some (.loaded _) => s.setReader attempt .idle
  | _ => s

/-- An admitted frame: `finish_pending_echo`, after the decoding of an Err. -/
def settle (s : Echo) (attempt : ℕ) (ok decodes : Bool) : Echo :=
  match s.readers attempt with
  | some (.admitted correlation) =>
    if ¬ ok ∧ ¬ decodes then s.setReader attempt (.failing .undecodable)
    else if s.inside ≠ none then s
    else
      match s.pending with
      | none => s.setReader attempt (.failing .orphaned)
      | some waiter =>
        if waiter.attempt ≠ attempt ∨ waiter.correlation ≠ correlation then
          s.setReader attempt (.failing .orphaned)
        else
          { s with
            correlation := 0
            inside := some (.clearing (.answered attempt correlation ok) (some attempt))
            }.setReader attempt .idle
  | _ => s

/-- Whether the stop flag of a reader is set. -/
def stopping (s : Echo) (attempt : ℕ) : Bool :=
  s.current ≠ some attempt || !s.running || s.stopped

def leave (s : Echo) (attempt : ℕ) : Echo :=
  if s.outside attempt ∧ s.stopping attempt then
    match s.readers attempt with
    | some .idle | some (.loaded _) | some (.admitted _) => s.setReader attempt (.ended none)
    | _ => s
  else s

def disconnect (s : Echo) (attempt : ℕ) : Echo :=
  if s.inside = none ∧ s.holder = none ∧ s.readers attempt = some .idle then
    (s.failPending (some attempt) (some attempt)).setReader attempt (.ended none)
  else s

def linkFault (s : Echo) (attempt : ℕ) : Echo :=
  if s.outside attempt then
    match s.readers attempt with
    | some .idle | some (.admitted _) => s.setReader attempt (.failing .link)
    | _ => s
  else s

/-- The end of the reader's thread, after its frames gave an error. -/
def conclude (s : Echo) (attempt : ℕ) : Echo :=
  if ¬ s.outside attempt then s
  else
    match s.readers attempt with
    | some (.failing fault) =>
      if s.inside ≠ none then s
      else (s.failPending (some attempt) (some attempt)).setReader attempt (.concluding fault)
    | some (.concluding fault) =>
      if s.holder ≠ none then s
      else if s.current = some attempt then s.setReader attempt (.ended (some fault))
      else s.setReader attempt (.judging fault)
    | some (.judging fault) =>
      s.setReader attempt (.ended (if s.running then none else some fault))
    | _ => s

def retire (s : Echo) : Echo :=
  match s.current with
  | none => s
  | some attempt =>
    if s.holder = none ∧ s.running then
      { s with
        current := none
        holder := some (.retiring attempt) }
    else s

def retireEcho (s : Echo) : Echo :=
  if s.inside ≠ none then s
  else
    match s.holder with
    | none | some .calling => s
    | some (.retiring attempt) =>
      let failed := s.failPending (some attempt) none
      if failed.inside ≠ none then failed else { s with holder := none }
    | some (.ending stop) =>
      let failed := s.failPending none none
      if failed.inside ≠ none then failed
      else
        { s with
          current := none
          holder := none
          stopped := s.stopped || stop }

def reserve (s : Echo) (quit : Option ℕ) : Echo :=
  if s.holder = none ∧ s.running then
    match quit with
    | none => { s with running := false }
    | some attempt =>
      if s.current = some attempt ∧ s.outside attempt ∧ s.readers attempt = some .idle then
        { s with running := false }.setReader attempt .quitting
      else s
  else s

def quit (s : Echo) (attempt : ℕ) : Echo :=
  if ¬ s.outside attempt then s
  else
    match s.readers attempt with
    | some .quitting =>
      if s.inside ≠ none then s
      else (s.failPending (some attempt) (some attempt)).setReader attempt .closing
    | some .closing =>
      if s.holder ≠ none then s
      else { s with current := none }.setReader attempt (.ended none)
    | _ => s

/-- The forced tail runs once the cause is reserved, `stop_and_join` at any time. -/
def finish (s : Echo) (stop : Bool) : Echo :=
  if s.holder = none ∧ (stop ∨ ¬ s.running) then { s with holder := some (.ending stop) } else s

def step (s : Echo) : EchoEvent → Echo
  | .install attempt => s.install attempt
  | .call => s.call
  | .proceed written => s.proceed written
  | .loadCorrelation attempt => s.loadCorrelation attempt
  | .admission attempt correlation => s.admission attempt correlation
  | .otherFrame attempt => s.otherFrame attempt
  | .settle attempt ok decodes => s.settle attempt ok decodes
  | .leave attempt => s.leave attempt
  | .disconnect attempt => s.disconnect attempt
  | .linkFault attempt => s.linkFault attempt
  | .conclude attempt => s.conclude attempt
  | .retire => s.retire
  | .retireEcho => s.retireEcho
  | .reserve quit => s.reserve quit
  | .quit attempt => s.quit attempt
  | .finish stop => s.finish stop

def run (events : List EchoEvent) : Echo := events.foldl step {}

end Echo

end Keld.Session
