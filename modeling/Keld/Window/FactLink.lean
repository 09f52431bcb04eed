/-
# `Keld.Window.FactLink` — facts applied ahead of their dispatch

`attachMirror` ties a source to the link: a fact is applied when its record comes
in, and queued; it is dispatched from the queue later, when the app's event loop
gets to it.  In between come other records, and the answers to the app's own
calls.  A callback may wait for such an answer, so facts are also applied, and
even dispatched, while a dispatch is running.

An input is one thing that happens to the app; the log says what it did.
-/
import Keld.Lib.Ring
import Keld.Window.Source

namespace Keld.Window

open Kipc

inductive FactEvent where
  | applied (fact : WindowEvent)
  /-- The fact, if the payload was one. -/
  | refused (fact : Option WindowEvent)
  | dispatched (fact : WindowEvent)
  /-- `CloseReply` was answered `ReplyApplied`, and whether the source took it. -/
  | acked (window : WindowRef) (closeSeq : ℕ) (taken : Bool)
deriving DecidableEq, Repr

structure FactLink where
  source : WindowSource
  receipts : WindowCloseReceipts
  /-- The slots of `attachMirror`. -/
  queue : Ring WindowEvent
  /-- An applier threw, which ends the link at its record. -/
  stopped : Bool
  /-- The facts whose callbacks are running, the innermost first. -/
  running : List WindowEvent
  log : List FactEvent

inductive FactInput where
  /-- A record on the window channel, and its fact if the payload is one. -/
  | record (fact : Option WindowEvent)
  /-- The event of the oldest record is dispatched, up to the app's listeners. -/
  | dispatch
  /-- The innermost callback is over. -/
  | returned
  /-- The host's answer to the app's `CloseReply`. -/
  | replyApplied (window : WindowRef) (closeSeq : ℕ)

namespace FactLink

def new (capacity : ℕ) : FactLink where
  source := .new
  receipts := .new
  queue := .empty capacity
  stopped := false
  running := []
  log := []

/-- The applier: decode, apply, and a slot. -/
def record (link : FactLink) (fact : Option WindowEvent) : FactLink :=
  if link.stopped then link
  else
    match fact with
    | none =>
      { link with source := link.source.reject.2, stopped := true,
                  log := link.log ++ [.refused none] }
    | some fact =>
      match link.source.apply fact with
      | (.error _, source) =>
        { link with source, stopped := true, log := link.log ++ [.refused (some fact)] }
      | (.ok (), source) =>
        match link.queue.push fact with
        | none => { link with source, stopped := true, log := link.log ++ [.applied fact] }
        | some queue => { link with source, queue, log := link.log ++ [.applied fact] }

/-- The listener: with an empty queue it throws. -/
def dispatch (link : FactLink) : FactLink :=
  match link.queue.pop with
  | none => link
  | some (fact, queue) =>
    { link with queue, receipts := link.receipts.observe fact, running := fact :: link.running,
                log := link.log ++ [.dispatched fact] }

def returned (link : FactLink) : FactLink :=
  match link.running with
  | [] => link
  | fact :: running => { link with source := link.source.retire fact, running }

/-- `acceptHostCloseReply` of the app. -/
def replyApplied (link : FactLink) (window : WindowRef) (closeSeq : ℕ) : FactLink :=
  let accepted := link.source.acceptHostCloseReply window closeSeq
  { link with
    source := accepted.2
    receipts :=
      if accepted.1 then link.receipts.acceptHostCloseReply window closeSeq else link.receipts
    log := link.log ++ [.acked window closeSeq accepted.1] }

def step (link : FactLink) : FactInput → FactLink
  | .record fact => link.record fact
  | .dispatch => link.dispatch
  | .returned => link.returned
  | .replyApplied window closeSeq => link.replyApplied window closeSeq

/-- Every run of a link with so many slots. -/
def run (capacity : ℕ) (inputs : List FactInput) : FactLink := inputs.foldl step (new capacity)

end FactLink

end Keld.Window
