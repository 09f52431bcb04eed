/-
# `Keld.Ipc.Pipe` — two parties over a byte pipe

Each party is a computation on its end of an ordered lossless pipe, given as the
function from what its reads have met so far to where it stands.  A schedule
hands bytes the other side has written to a party that waits for them, in runs
of any size, interrupts its reads, and reports the end of the stream once the
other side has failed and closed.  `Scheduled.invariant` holds along every
schedule; a schedule is `Complete` when nothing is left to hand over.
-/
import Keld.Lib.Trace
import Keld.Ipc.Stream

namespace Keld.Ipc

open List

/-- A party: where it stands after its reads have met a script. -/
abbrev Party := List Delivery → Except Halt Unit × Link

def Party.Waiting (party : Party) (script : List Delivery) : Prop :=
  (party script).1 = .error .waiting

def Party.Failed (party : Party) (script : List Delivery) : Prop :=
  ∃ err, (party script).1 = .error (.failed err)

def Party.Succeeded (party : Party) (script : List Delivery) : Prop := (party script).1 = .ok ()

/-- What the party has written. -/
def Party.sent (party : Party) (script : List Delivery) : List Byte := (party script).2.written

/-- What the pipe can do next for a party that waits, given where its peer stands. -/
inductive PipeStep (party peer : Party) (script peerScript : List Delivery) : Delivery → Prop
  | deliver {first : Byte} {more : List Byte}
      (inFlight : arriving script ++ first :: more <+: peer.sent peerScript) :
      PipeStep party peer script peerScript (.bytes first more)
  | interrupt : PipeStep party peer script peerScript (.failed .interrupted)
  | close (closed : peer.Failed peerScript) (drained : arriving script = peer.sent peerScript) :
      PipeStep party peer script peerScript .eof

/-- The scripts two parties can come to meet. -/
inductive Scheduled (left right : Party) : List Delivery → List Delivery → Prop
  | start : Scheduled left right [] []
  | onRight {ls rs : List Delivery} {delivery : Delivery} (before : Scheduled left right ls rs)
      (waits : right.Waiting rs) (step : PipeStep right left rs ls delivery) :
      Scheduled left right ls (rs ++ [delivery])
  | onLeft {ls rs : List Delivery} {delivery : Delivery} (before : Scheduled left right ls rs)
      (waits : left.Waiting ls) (step : PipeStep left right ls rs delivery) :
      Scheduled left right (ls ++ [delivery]) rs

/-- Nothing but interruptions is left for a party that waits. -/
def Idle (party peer : Party) (script peerScript : List Delivery) : Prop :=
  party.Waiting script → ∀ delivery, PipeStep party peer script peerScript delivery →
    delivery = .failed .interrupted

/-- The schedule has run out. -/
structure Complete (left right : Party) (ls rs : List Delivery) : Prop where
  leftIdle : Idle left right ls rs
  rightIdle : Idle right left rs ls

/-- A party that goes on keeps what it has written. -/
def Party.Grows (party : Party) : Prop :=
  ∀ script delivery, party.Waiting script →
    party.sent script <+: party.sent (script ++ [delivery])

variable {party peer : Party} {script peerScript : List Delivery} {delivery : Delivery}

theorem Party.not_failed_of_waiting (h : party.Waiting script) : ¬ party.Failed script := by
  rintro ⟨err, hf⟩
  rw [Party.Waiting, hf] at h
  cases h

/-! ## The invariant of a schedule -/

theorem steady_append_singleton {polls : Bool} :
    Steady polls (script ++ [delivery]) ↔ Steady polls script ∧ delivery.retried polls = true := by
  constructor
  · intro h
    exact ⟨fun d hd => h d (mem_append_left _ hd), h _ (by simp)⟩
  · rintro ⟨hs, hd⟩ d hm
    rcases mem_snoc.mp hm with hm | rfl
    · exact hs d hm
    · exact hd

/-- What a party has met is what its peer has sent, and its stream has ended only if the peer
failed. -/
structure Fed (party peer : Party) (script peerScript : List Delivery) : Prop where
  bytes : arriving script <+: peer.sent peerScript
  ended : ¬ Steady false script → peer.Failed peerScript

theorem Fed.step (h : Fed party peer script peerScript)
    (hs : PipeStep party peer script peerScript delivery) :
    Fed party peer (script ++ [delivery]) peerScript := by
  cases hs with
  | deliver inFlight =>
    refine ⟨?_, fun he => h.ended fun hst => he ?_⟩
    · rw [arriving_append]
      simpa [arriving] using inFlight
    · exact steady_append_singleton.mpr ⟨hst, rfl⟩
  | interrupt =>
    refine ⟨?_, fun he => h.ended fun hst => he ?_⟩
    · rw [arriving_append]
      simpa [arriving] using h.bytes
    · exact steady_append_singleton.mpr ⟨hst, rfl⟩
  | close closed drained =>
    refine ⟨?_, fun _ => closed⟩
    rw [arriving_append, drained]
    simp [arriving]

theorem Fed.peerStep (h : Fed party peer script peerScript) (hgr : peer.Grows)
    (hwa : peer.Waiting peerScript) : Fed party peer script (peerScript ++ [delivery]) :=
  ⟨h.bytes.trans (hgr _ _ hwa), fun he => absurd (h.ended he) (Party.not_failed_of_waiting hwa)⟩

structure PipeInvariant (left right : Party) (ls rs : List Delivery) : Prop where
  leftFed : Fed left right ls rs
  rightFed : Fed right left rs ls
  /-- at most one of the two failed on its own account -/
  oneEnd : Steady false ls ∨ Steady false rs

theorem Scheduled.invariant {left right : Party} (hl : left.Grows) (hr : right.Grows)
    {ls rs : List Delivery} (h : Scheduled left right ls rs) :
    PipeInvariant left right ls rs := by
  induction h with
  | start =>
    have hst : Steady false [] := by simp [Steady]
    exact ⟨⟨List.nil_prefix, fun h => absurd hst h⟩,
      ⟨List.nil_prefix, fun h => absurd hst h⟩, .inl hst⟩
  | onRight before waits step ih =>
    refine ⟨ih.leftFed.peerStep hr waits, ih.rightFed.step step, .inl ?_⟩
    by_contra he
    exact Party.not_failed_of_waiting waits (ih.leftFed.ended he)
  | onLeft before waits step ih =>
    refine ⟨ih.leftFed.step step, ih.rightFed.peerStep hl waits, .inr ?_⟩
    by_contra he
    exact Party.not_failed_of_waiting waits (ih.rightFed.ended he)

/-- In a complete schedule a party that waits has met all its peer sent, and the peer is alive. -/
theorem Idle.drained (h : Idle party peer script peerScript)
    (hfed : Fed party peer script peerScript) (hwa : party.Waiting script) :
    arriving script = peer.sent peerScript ∧ ¬ peer.Failed peerScript := by
  have hdrn : arriving script = peer.sent peerScript := by
    obtain ⟨rest, hr⟩ := hfed.bytes
    cases rest with
    | nil => simpa using hr
    | cons first more =>
      have hs : PipeStep party peer script peerScript (.bytes first more) :=
        .deliver ⟨[], by simpa using hr⟩
      cases h hwa _ hs
  refine ⟨hdrn, fun hf => ?_⟩
  cases h hwa _ (.close hf hdrn)

end Keld.Ipc
