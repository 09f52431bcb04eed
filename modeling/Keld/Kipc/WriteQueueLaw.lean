/-
# `Keld.Kipc.WriteQueueLaw` — the socket takes whole frames, in order, up to a cut

A job acts on one frame, and `Advances` says once what it can do to it.  From
that `Sound` is kept by every input: a frame is past its start only if all before
it are linked, and has bytes on the socket, or still may, only if all before it
resolved.  So the bytes on the socket are whole frames and a part of one more.

A failed frame is poison to the queue one job after its promise is rejected.
Until then its chain promise is pending, so no frame behind it can start.
-/
import Keld.Kipc.WriteQueue

namespace Keld.Kipc

open List

/-! ## One frame -/

theorem writeLoop_mono (frame : List Byte) (deadlineAt : ℕ) (script : ℕ → Turn)
    (turn offset : ℕ) : offset ≤ (writeLoop frame deadlineAt script turn offset).2 := by
  induction hl : frame.length - offset using Nat.strong_induction_on generalizing turn offset with
  | _ n ih =>
    rw [writeLoop]
    split_ifs with hin hla
    · exact le_rfl
    · cases (script turn).result with
      | closed => exact le_rfl
      | took count =>
        dsimp only
        split_ifs with hn
        · exact le_rfl
        · have hle := ih (frame.length - (offset + min count (frame.length - offset)))
            (by omega) (turn + 1) _ rfl
          exact Nat.le_trans (Nat.le_add_right _ _) hle
    · exact le_rfl

section

variable {frame : List Byte} {deadlineAt : ℕ} {script : ℕ → Turn} {turn offset : ℕ}
  (hle : offset ≤ frame.length)
include hle

/-- Only a loop that took everything is done. -/
theorem writeLoop_done (h : (writeLoop frame deadlineAt script turn offset).1 = .done) :
    (writeLoop frame deadlineAt script turn offset).2 = frame.length := by
  induction hl : frame.length - offset using Nat.strong_induction_on generalizing turn offset with
  | _ n ih =>
    rw [writeLoop] at h ⊢
    split_ifs at h ⊢ with hin hla
    · cases hres : (script turn).result with
      | closed =>
        rw [hres] at h
        cases h
      | took count =>
        rw [hres] at h
        dsimp only at h ⊢
        split_ifs at h ⊢ with hn
        exact ih (frame.length - (offset + min count (frame.length - offset))) (by omega)
          (by omega) h rfl
    · exact Nat.le_antisymm hle (Nat.not_lt.mp hin)

theorem writeLoop_le : (writeLoop frame deadlineAt script turn offset).2 ≤ frame.length := by
  induction hl : frame.length - offset using Nat.strong_induction_on generalizing turn offset with
  | _ n ih =>
    rw [writeLoop]
    split_ifs with hin hla
    · exact hle
    · cases (script turn).result with
      | closed => exact hle
      | took count =>
        dsimp only
        split_ifs with hn
        · exact hle
        · exact ih (frame.length - (offset + min count (frame.length - offset))) (by omega)
            (by omega) rfl
    · exact hle

end

namespace Frame

/-- The complete encoding; where there is none, nothing is written. -/
def encoding (frame : Frame) : List Byte :=
  match frame.bytes with
  | .ok bytes => bytes
  | .error _ => []

/-- What the socket has of it. -/
def part (frame : Frame) : List Byte := frame.encoding.take frame.offset

def Resolved (frame : Frame) : Prop := frame.result = some (.ok ())

/-- Its write came to its end. -/
inductive Succeeds (frame : Frame) : Prop
  | wrote (h : frame.stage = .wrote (.ok ()))
  | settled (h : frame.stage = .settled (.ok ()))
  | linked (h : frame.stage = .linked (.ok ()))

inductive Failed (frame : Frame) : Prop
  | timedOut (h : frame.stage = .timedOut)
  | wrote (error : KipcError) (h : frame.stage = .wrote (.error error))
  | settled (error : KipcError) (h : frame.stage = .settled (.error error))
  | linked (error : KipcError) (h : frame.stage = .linked (.error error))

/-- Nothing of it is on the socket, and nothing is under way. -/
structure Idle (frame : Frame) : Prop where
  offset : frame.offset = 0
  stage : frame.stage = .queued ∨
    ∃ error, frame.stage = .settled (.error error) ∨ frame.stage = .linked (.error error)

structure Good (frame : Frame) : Prop where
  fits : frame.offset ≤ frame.encoding.length
  fresh : frame.stage = .queued → frame.offset = 0
  parked : ∀ deadlineAt, frame.stage = .parked deadlineAt → ∃ bytes, frame.bytes = .ok bytes
  woken : ∀ deadlineAt, frame.stage = .woken deadlineAt → ∃ bytes, frame.bytes = .ok bytes
  whole : frame.Succeeds → ∃ bytes, frame.bytes = .ok bytes ∧ frame.offset = bytes.length

end Frame

/-- How many jobs there are left at a stage, at most. -/
def Stage.weight : Stage → ℕ
  | .queued => 5
  | .woken _ => 5
  | .parked _ => 4
  | .timedOut => 3
  | .wrote _ => 2
  | .settled _ => 1
  | .linked _ => 0

/-- What a job does to a frame. -/
structure Advances (frame : Frame) (chainResolved : Bool) (poison : Option KipcError)
    (effect : Effect) : Prop where
  bytes : effect.frame.bytes = frame.bytes
  good : effect.frame.Good
  started : effect.frame.stage ≠ .queued
  chain : frame.stage = .queued → chainResolved = true
  part : effect.frame.part = frame.part ++ effect.sent
  idle : ¬ effect.frame.Idle → ¬ frame.Idle ∨ (frame.stage = .queued ∧ poison = none)
  poisons : ∀ error, effect.frame.stage = .linked (.error error) → effect.poisons = true
  sends : effect.sent ≠ [] → frame.result = none ∧
    (¬ frame.Idle ∨ (frame.stage = .queued ∧ poison = none))
  result : ∀ result, frame.result = some result → effect.frame.result = some result
  failed : frame.Failed → effect.frame.Failed ∧ effect.sent = []
  lighter : effect.frame.stage.weight < frame.stage.weight

section Advances

variable {frame : Frame} {chainResolved : Bool} {poison : Option KipcError}

theorem Frame.encoding_ok {bytes : List Byte} (h : frame.bytes = .ok bytes) :
    frame.encoding = bytes := by
  rw [encoding, h]

/-- A part of the frame more. -/
theorem Frame.part_write {bytes : List Byte} (hby : frame.bytes = .ok bytes)
    (deadlineAt : ℕ) (script : ℕ → Turn) :
    (frame.write bytes deadlineAt script).frame.part =
      frame.part ++ (frame.write bytes deadlineAt script).sent := by
  have hmo := writeLoop_mono bytes deadlineAt script 0 frame.offset
  have hen : (frame.write bytes deadlineAt script).frame.encoding = bytes := Frame.encoding_ok hby
  rw [part, part, hen, Frame.encoding_ok hby]
  show bytes.take (writeLoop bytes deadlineAt script 0 frame.offset).2 =
    bytes.take frame.offset ++ (bytes.drop frame.offset).take _
  rw [← take_add, Nat.add_sub_cancel' hmo]

theorem Frame.Good.write (h : frame.Good) {bytes : List Byte} (hby : frame.bytes = .ok bytes)
    (deadlineAt : ℕ) (script : ℕ → Turn) : (frame.write bytes deadlineAt script).frame.Good := by
  have hen : (frame.write bytes deadlineAt script).frame.encoding = bytes := Frame.encoding_ok hby
  have hf : frame.offset ≤ bytes.length := Frame.encoding_ok hby ▸ h.fits
  refine ⟨?_, ?_, fun _ _ => ⟨bytes, hby⟩, fun _ _ => ⟨bytes, hby⟩, fun hsu => ?_⟩
  · rw [hen]
    exact writeLoop_le hf
  · rw [Frame.write]
    cases (writeLoop bytes deadlineAt script 0 frame.offset).1 <;> exact nofun
  · refine ⟨bytes, hby, @writeLoop_done bytes deadlineAt script 0 _ hf ?_⟩
    rw [Frame.write] at hsu
    cases he : (writeLoop bytes deadlineAt script 0 frame.offset).1 with
    | done => rfl
    | failed | parked =>
      rw [he] at hsu
      cases hsu with
      | _ h => cases h

/-- A frame that writes is under way or just started, and still without a result. -/
theorem advances_write (hgo : frame.Good) {bytes : List Byte} (hby : frame.bytes = .ok bytes)
    (deadlineAt : ℕ) (script : ℕ → Turn)
    (hs : (∃ deadlineAt, frame.stage = .woken deadlineAt) ∨
      (frame.stage = .queued ∧ chainResolved = true ∧ poison = none)) :
    Advances frame chainResolved poison (frame.write bytes deadlineAt script) := by
  have ho : ¬ frame.Idle ∨ (frame.stage = .queued ∧ poison = none) := by
    rcases hs with ⟨deadlineAt, hwo⟩ | ⟨hque, -, hpo⟩
    · refine .inl fun hi => ?_
      rcases hi.stage with h | ⟨error, h | h⟩ <;> cases hwo.symm.trans h
    · exact .inr ⟨hque, hpo⟩
  have hp : frame.result = none := by
    rcases hs with ⟨deadlineAt, hwo⟩ | ⟨hque, -, -⟩
    · rw [Frame.result, hwo]
    · rw [Frame.result, hque]
  have hhe : frame.stage.weight = 5 := by
    rcases hs with ⟨deadlineAt, hwo⟩ | ⟨hque, -, -⟩
    · rw [hwo, Stage.weight]
    · rw [hque, Stage.weight]
  have hl : ¬ frame.Failed := by
    intro hf
    rcases hs with ⟨deadlineAt, hs⟩ | ⟨hs, -, -⟩ <;>
      cases hf with
      | timedOut h | wrote error h | settled error h | linked error h => cases hs.symm.trans h
  refine {
    bytes := rfl
    good := hgo.write hby deadlineAt script
    started := ?_
    chain := fun hque => ?_
    part := Frame.part_write hby deadlineAt script
    idle := fun _ => ho
    poisons := fun error h => ?_
    sends := fun _ => ⟨hp, ho⟩
    result := fun result h => nomatch hp.symm.trans h
    failed := fun h => (hl h).elim
    lighter := ?_ }
  · rw [Frame.write]
    cases (writeLoop bytes deadlineAt script 0 frame.offset).1 <;> exact nofun
  · rcases hs with ⟨deadlineAt, hwo⟩ | ⟨-, hch, -⟩
    · cases hwo.symm.trans hque
    · exact hch
  · rw [Frame.write] at h
    cases he : (writeLoop bytes deadlineAt script 0 frame.offset).1 <;> rw [he] at h <;> cases h
  · rw [hhe, Frame.write]
    cases (writeLoop bytes deadlineAt script 0 frame.offset).1 with
    | done | failed => exact (by decide : 2 < 5)
    | parked => exact (by decide : 4 < 5)

theorem advances_run (hgo : frame.Good) {job : Job} {effect : Effect}
    (h : frame.run chainResolved poison job = some effect) :
    Advances frame chainResolved poison effect := by
  have hpa (stage : Stage) : (frame.goTo stage).frame.part = frame.part ++ [] := (append_nil _).symm
  cases job with
  | start now script =>
    rw [Frame.run.eq_def] at h
    dsimp only at h
    split at h
    case h_2 => cases h
    case h_1 hque =>
      have hp : frame.result = none := by rw [Frame.result, hque]
      have hl : ¬ frame.Failed := by
        rintro (h | ⟨_, h⟩ | ⟨_, h⟩ | ⟨_, h⟩) <;> cases hque.symm.trans h
      split_ifs at h with hch
      have hre : chainResolved = true := by simpa using hch
      have hhe : frame.stage.weight = 5 := by rw [hque, Stage.weight]
      have hf := hgo.fresh hque
      cases poison with
      | some error =>
        cases h
        exact {
          bytes := rfl
          good := ⟨hgo.fits, nofun, nofun, nofun, by rintro (h | h | h) <;> cases h⟩
          started := nofun
          chain := fun _ => hre
          part := hpa _
          idle := fun hi => (hi ⟨hf, .inr ⟨error, .inl rfl⟩⟩).elim
          poisons := nofun
          sends := fun h => (h rfl).elim
          result := fun result h => nomatch hp.symm.trans h
          failed := fun h => (hl h).elim
          lighter := hhe ▸ (by decide : 1 < 5) }
      | none =>
        cases hby : frame.bytes with
        | error error =>
          rw [hby] at h
          cases h
          exact {
            bytes := rfl
            good := ⟨hgo.fits, nofun, nofun, nofun, by rintro (h | h | h) <;> cases h⟩
            started := nofun
            chain := fun _ => hre
            part := hpa _
            idle := fun _ => .inr ⟨hque, rfl⟩
            poisons := nofun
            sends := fun h => (h rfl).elim
            result := fun result h => nomatch hp.symm.trans h
            failed := fun h => (hl h).elim
            lighter := hhe ▸ (by decide : 2 < 5) }
        | ok bytes =>
          rw [hby] at h
          cases h
          exact advances_write hgo hby _ script (.inr ⟨hque, hre, rfl⟩)
  | resume script =>
    rw [Frame.run] at h
    split at h
    case h_1 deadlineAt bytes hwo hby =>
      cases h
      exact advances_write hgo hby deadlineAt script (.inl ⟨deadlineAt, hwo⟩)
    case h_2 htimedOut =>
      have hp : frame.result = none := by rw [Frame.result, htimedOut]
      have ho : ¬ frame.Idle := by
        rintro ⟨-, h | ⟨error, h | h⟩⟩ <;> cases htimedOut.symm.trans h
      cases h
      exact {
        bytes := rfl
        good := ⟨hgo.fits, nofun, nofun, nofun, by rintro (h | h | h) <;> cases h⟩
        started := nofun
        chain := fun h => nomatch htimedOut.symm.trans h
        part := hpa _
        idle := fun _ => .inl ho
        poisons := nofun
        sends := fun h => (h rfl).elim
        result := fun result h => nomatch hp.symm.trans h
        failed := fun _ => ⟨.wrote _ rfl, rfl⟩
        lighter := by
          rw [htimedOut]
          exact (by decide : 2 < 3) }
    case h_3 => cases h
  | adopt =>
    rw [Frame.run] at h
    split at h
    case h_2 => cases h
    case h_1 result hwr =>
      have hp : frame.result = none := by rw [Frame.result, hwr]
      have ho : ¬ frame.Idle := by
        rintro ⟨-, h | ⟨error, h | h⟩⟩ <;> cases hwr.symm.trans h
      cases h
      exact {
        bytes := rfl
        good := ⟨hgo.fits, nofun, nofun, nofun, by
          rintro (h | h | h) <;> cases h
          exact hgo.whole (.wrote hwr)⟩
        started := nofun
        chain := fun h => nomatch hwr.symm.trans h
        part := hpa _
        idle := fun _ => .inl ho
        poisons := nofun
        sends := fun h => (h rfl).elim
        result := fun result h => nomatch hp.symm.trans h
        failed := by
          rintro (h | ⟨error, h⟩ | ⟨error, h⟩ | ⟨error, h⟩) <;> cases hwr.symm.trans h
          exact ⟨.settled error rfl, rfl⟩
        lighter := by
          rw [hwr]
          exact Nat.one_lt_two }
  | link =>
    rw [Frame.run] at h
    split at h
    case h_2 => cases h
    case h_1 result hse =>
      cases h
      exact {
        bytes := rfl
        good := ⟨hgo.fits, nofun, nofun, nofun, by
          rintro (h | h | h) <;> cases h
          exact hgo.whole (.settled hse)⟩
        started := nofun
        chain := fun h => nomatch hse.symm.trans h
        part := hpa _
        idle := fun hi => by
          refine .inl fun h => hi ⟨h.offset, .inr ?_⟩
          rcases h.stage with h | ⟨error, h | h⟩ <;> cases hse.symm.trans h
          exact ⟨error, .inr rfl⟩
        poisons := fun error h => by
          cases h
          rfl
        sends := fun h => (h rfl).elim
        result := fun other h => by
          rw [Frame.result, hse] at h
          exact h
        failed := by
          rintro (h | ⟨error, h⟩ | ⟨error, h⟩ | ⟨error, h⟩) <;> cases hse.symm.trans h
          exact ⟨.linked error rfl, rfl⟩
        lighter := by
          rw [hse]
          exact Nat.zero_lt_one }
  | expire =>
    rw [Frame.run] at h
    split at h
    case h_2 => cases h
    case h_1 deadlineAt hpark =>
      have hp : frame.result = none := by rw [Frame.result, hpark]
      have ho : ¬ frame.Idle := by
        rintro ⟨-, h | ⟨error, h | h⟩⟩ <;> cases hpark.symm.trans h
      cases h
      exact {
        bytes := rfl
        good := ⟨hgo.fits, nofun, nofun, nofun, by rintro (h | h | h) <;> cases h⟩
        started := nofun
        chain := fun h => nomatch hpark.symm.trans h
        part := hpa _
        idle := fun _ => .inl ho
        poisons := nofun
        sends := fun h => (h rfl).elim
        result := fun result h => nomatch hp.symm.trans h
        failed := by
          rintro (h | ⟨error, h⟩ | ⟨error, h⟩ | ⟨error, h⟩) <;> cases hpark.symm.trans h
        lighter := by
          rw [hpark]
          exact (by decide : 3 < 4) }

theorem Advances.unlinked {effect : Effect} (h : Advances frame chainResolved poison effect) :
    frame.isLinked = false := by
  rw [Frame.isLinked]
  split
  case h_1 result hli => exact (Nat.not_lt_zero _ (hli ▸ h.lighter)).elim
  case h_2 => rfl

end Advances

/-! ## The queue -/

namespace WriteQueue

variable {q : WriteQueue}

structure Sound (q : WriteQueue) : Prop where
  good : ∀ frame ∈ q.frames, frame.Good
  order : q.frames.Pairwise fun earlier later => later.stage ≠ .queued → earlier.isLinked = true
  clean : q.frames.Pairwise fun earlier later =>
    ¬ later.Idle → earlier.stage = .linked (.ok ())
  poisoned : ∀ frame ∈ q.frames, ∀ error, frame.stage = .linked (.error error) → q.poison ≠ none
  sent : q.sent = q.frames.flatMap Frame.part
  waiting : ∀ k frame, q.frames[k]? = some frame → frame.isParked = true → k ∈ q.waiters

theorem sound_new : Sound new where
  good := nofun
  order := .nil
  clean := .nil
  poisoned := nofun
  sent := rfl
  waiting := nofun

/-- A frame that a job acts on: all before it are linked, all behind it are queued. -/
structure Site (q : WriteQueue) (front : List Frame) (frame : Frame) (back : List Frame)
    (effect : Effect) : Prop where
  frames : q.frames = front ++ frame :: back
  advances : Advances frame (q.chainResolved front.length) q.poison effect
  linked : ∀ earlier ∈ front, earlier.isLinked = true
  queued : ∀ later ∈ back, later.stage = .queued
  idle : ∀ later ∈ back, later.Idle
  /-- Where it may write, or already has. -/
  clean : ¬ frame.Idle ∨ (frame.stage = .queued ∧ q.poison = none) →
    ∀ earlier ∈ front, earlier.stage = .linked (.ok ())

theorem isLinked_iff {frame : Frame} :
    frame.isLinked = true ↔ ∃ result, frame.stage = .linked result := by
  rw [Frame.isLinked]
  split
  case h_1 result h => exact iff_of_true rfl ⟨result, h⟩
  case h_2 h => exact iff_of_false nofun fun ⟨result, h'⟩ => h result h'

/-- The chain promise of the frame before is resolved, so all before are linked. -/
theorem Sound.linked_of_resolved (h : Sound q) {front back : List Frame} {frame : Frame}
    (hfrs : q.frames = front ++ frame :: back) (hch : q.chainResolved front.length = true) :
    ∀ earlier ∈ front, earlier.isLinked = true := by
  rcases eq_nil_or_concat front with rfl | ⟨init, last, rfl⟩
  · exact nofun
  have hl : last.isLinked = true := by
    rw [concat_eq_append, length_append, length_singleton, chainResolved, hfrs,
      concat_eq_append, append_assoc, getElem?_append_right le_rfl,
      Nat.sub_self] at hch
    exact hch
  have hor := h.order
  rw [hfrs, concat_eq_append, append_assoc, pairwise_append] at hor
  obtain ⟨result, hs⟩ := isLinked_iff.mp hl
  intro earlier hea
  rw [concat_eq_append, mem_append, mem_singleton] at hea
  rcases hea with hea | rfl
  · exact hor.2.2 earlier hea last mem_cons_self (hs ▸ nofun)
  · exact hl

theorem Sound.site (h : Sound q) {front back : List Frame} {frame : Frame} {effect : Effect}
    (hfrs : q.frames = front ++ frame :: back)
    (had : Advances frame (q.chainResolved front.length) q.poison effect) :
    Site q front frame back effect := by
  have hor := h.order
  have hcl := h.clean
  rw [hfrs, pairwise_append, pairwise_cons] at hor hcl
  have hli : ∀ earlier ∈ front, earlier.isLinked = true := by
    by_cases hque : frame.stage = .queued
    · exact h.linked_of_resolved hfrs (had.chain hque)
    · exact fun earlier hea => hor.2.2 earlier hea frame mem_cons_self hque
  refine ⟨hfrs, had, hli, fun later hl => ?_, fun later hl => ?_, ?_⟩
  · by_contra hs
    cases had.unlinked.symm.trans (hor.2.1.1 later hl hs)
  · by_contra hbu
    have hli := isLinked_iff.mpr ⟨_, hcl.2.1.1 later hl hbu⟩
    cases had.unlinked.symm.trans hli
  · rintro (hbu | ⟨-, hpo⟩) earlier hea
    · exact hcl.2.2 earlier hea frame mem_cons_self hbu
    · obtain ⟨result, hst⟩ := isLinked_iff.mp (hli earlier hea)
      cases result with
      | ok done => exact hst
      | error error =>
        have hm : earlier ∈ q.frames := hfrs ▸ mem_append_left _ hea
        exact (h.poisoned earlier hm error hst hpo).elim

theorem Site.apply_frames {front back : List Frame} {frame : Frame} {effect : Effect}
    (h : Site q front frame back effect) :
    (q.apply front.length effect).frames = front ++ effect.frame :: back := by
  rw [apply, h.frames, set_append_right _ _ le_rfl, Nat.sub_self]
  rfl

/-- A job is not there to run, or acts on its frame. -/
theorem Sound.job (h : Sound q) (k : ℕ) (job : Job) :
    q.runJob k job = q ∨ ∃ front frame back effect, Site q front frame back effect ∧
      q.runJob k job = q.apply front.length effect := by
  rw [runJob]
  cases hf : q.frames[k]? with
  | none => exact .inl rfl
  | some frame =>
    rw [Option.bind_some]
    cases hef : frame.run (q.chainResolved k) q.poison job with
    | none => exact .inl rfl
    | some effect =>
      obtain ⟨hlt, hg⟩ := List.getElem?_eq_some_iff.mp hf
      have hfrs : q.frames = q.frames.take k ++ frame :: q.frames.drop (k + 1) := by
        rw [← hg, getElem_cons_drop, take_append_drop]
      have hl : (q.frames.take k).length = k := length_take_of_le (Nat.le_of_lt hlt)
      have hgo := h.good frame (mem_of_getElem? hf)
      refine .inr ⟨_, frame, _, effect, h.site hfrs ?_, by rw [hl]⟩
      rw [hl]
      exact advances_run hgo hef

section Site

variable {front back : List Frame} {frame : Frame} {effect : Effect}

theorem idle_part {frame : Frame} (h : frame.Idle) : frame.part = [] := by
  rw [Frame.part, h.offset]
  exact take_zero

theorem flatMap_part_idle {frames : List Frame} (h : ∀ frame ∈ frames, frame.Idle) :
    frames.flatMap Frame.part = [] :=
  flatMap_eq_nil_iff.mpr fun frame hf => idle_part (h frame hf)

theorem Site.sent (h : Site q front frame back effect) (hs : Sound q) :
    q.sent = front.flatMap Frame.part ++ frame.part := by
  rw [hs.sent, h.frames, flatMap_append, flatMap_cons, flatMap_part_idle h.idle, append_nil]

theorem Site.sound (h : Site q front frame back effect) (hs : Sound q) :
    Sound (q.apply front.length effect) := by
  have hor := hs.order
  have hcl := hs.clean
  rw [h.frames, pairwise_append, pairwise_cons] at hor hcl
  refine ⟨?_, ?_, ?_, ?_, ?_, ?_⟩
  · rw [h.apply_frames]
    have hgo := hs.good
    rw [h.frames, forall_mem_append, forall_mem_cons] at hgo
    exact forall_mem_append.mpr ⟨hgo.1, forall_mem_cons.mpr ⟨h.advances.good, hgo.2.2⟩⟩
  · rw [h.apply_frames, pairwise_append, pairwise_cons]
    refine ⟨hor.1, ⟨fun later hl hst => ?_, hor.2.1.2⟩, fun earlier hea later hl hst => ?_⟩
    · exact (hst (h.queued later hl)).elim
    · exact h.linked earlier hea
  · rw [h.apply_frames, pairwise_append, pairwise_cons]
    refine ⟨hcl.1, ⟨fun later hl hbu => ?_, hcl.2.1.2⟩, fun earlier hea later hl hbu => ?_⟩
    · exact (hbu (h.idle later hl)).elim
    · rcases mem_cons.mp hl with rfl | hl
      · exact h.clean (h.advances.idle hbu) earlier hea
      · exact (hbu (h.idle later hl)).elim
  · rw [h.apply_frames]
    have hpo := hs.poisoned
    have hke (hb : q.poison ≠ none ∨ effect.poisons = true) :
        (q.apply front.length effect).poison ≠ none := by
      rw [apply]
      dsimp only
      split_ifs with hps
      · exact nofun
      · exact hb.resolve_right hps
    intro frame' hf' error hstg
    rcases mem_append.mp hf' with hfr | hba
    · exact hke (.inl (hpo frame' (h.frames ▸ mem_append_left _ hfr) error hstg))
    · rcases mem_cons.mp hba with rfl | hba
      · exact hke (.inr (h.advances.poisons error hstg))
      · cases (h.queued frame' hba).symm.trans hstg
  · rw [h.apply_frames, flatMap_append, flatMap_cons, flatMap_part_idle h.idle,
      append_nil, h.advances.part, ← append_assoc, ← h.sent hs]
    rfl
  · intro k frame' hf' hpa
    rw [h.apply_frames] at hf'
    rw [apply]
    have ho {k : ℕ} (hm : k ∈ q.waiters) : k ∈ if effect.frame.isParked = true then
        q.waiters ++ [front.length] else q.waiters := by
      split_ifs
      · exact mem_append_left _ hm
      · exact hm
    rcases Nat.lt_trichotomy k front.length with hlt | rfl | hgt
    · rw [getElem?_append_left hlt] at hf'
      refine ho (hs.waiting k frame' ?_ hpa)
      rw [h.frames, getElem?_append_left hlt, hf']
    · rw [getElem?_append_right le_rfl, Nat.sub_self] at hf'
      cases hf'
      rw [if_pos hpa]
      exact mem_concat_self
    · rw [getElem?_append_right (Nat.le_of_lt hgt)] at hf'
      refine ho (hs.waiting k frame' ?_ hpa)
      rw [h.frames, getElem?_append_right (Nat.le_of_lt hgt)]
      cases hk : k - front.length with
      | zero => omega
      | succ j =>
        rw [hk] at hf'
        exact hf'

end Site

/-! ## A call, and the drain event -/

/-- An admitted call is queued behind all others. -/
theorem Sound.admit (h : Sound q) (bytes : Except KipcError (List Byte)) :
    Sound { q with frames := q.frames ++ [{ bytes, offset := 0, stage := .queued }] } where
  good := forall_mem_append.mpr ⟨h.good, forall_mem_singleton.mpr
    ⟨Nat.zero_le _, fun _ => rfl, nofun, nofun, by rintro (h | h | h) <;> cases h⟩⟩
  order := pairwise_append.mpr ⟨h.order, pairwise_singleton _ _,
    fun _ _ later hl hs => by
      cases mem_singleton.mp hl
      exact (hs rfl).elim⟩
  clean := pairwise_append.mpr ⟨h.clean, pairwise_singleton _ _,
    fun _ _ later hl hbu => by
      cases mem_singleton.mp hl
      exact (hbu ⟨rfl, .inl rfl⟩).elim⟩
  poisoned := forall_mem_append.mpr ⟨h.poisoned, forall_mem_singleton.mpr nofun⟩
  sent := by
    rw [flatMap_append, h.sent]
    exact (append_nil _).symm
  waiting := fun k frame hf hpa => by
    rcases Nat.lt_or_ge k q.frames.length with hlt | hge
    · rw [getElem?_append_left hlt] at hf
      exact h.waiting k frame hf hpa
    · rw [getElem?_append_right hge] at hf
      cases mem_singleton.mp (mem_of_getElem? hf)
      cases hpa

end WriteQueue

/-- A frame whose waiter is resolved, if it has one. -/
def Frame.woken (frame : Frame) : Frame :=
  match frame.stage with
  | .parked deadlineAt => { frame with stage := .woken deadlineAt }
  | _ => frame

theorem Frame.woken_cases (frame : Frame) :
    (∃ deadlineAt, frame.stage = .parked deadlineAt ∧
      frame.woken = { frame with stage := .woken deadlineAt }) ∨
    frame.isParked = false ∧ frame.woken = frame := by
  obtain ⟨bytes, offset, stage⟩ := frame
  cases stage with
  | parked deadlineAt => exact .inl ⟨deadlineAt, rfl, rfl⟩
  | _ => exact .inr ⟨rfl, rfl⟩

namespace WriteQueue

variable {q : WriteQueue}

/-- Every parked frame has a waiter, so the drain event wakes every one. -/
theorem Sound.fire_eq (h : Sound q) :
    q.fire = { q with frames := q.frames.map Frame.woken, waiters := [] } := by
  rw [fire]
  congr 1
  refine ext_getElem? fun k => ?_
  rw [getElem?_mapIdx, getElem?_map]
  cases hf : q.frames[k]? with
  | none => rfl
  | some frame =>
    obtain ⟨bytes, offset, stage⟩ := frame
    cases stage with
    | parked deadlineAt => exact congrArg some (if_pos (h.waiting k _ hf rfl))
    | _ => rfl

theorem Sound.fire (h : Sound q) : Sound q.fire := by
  have hstg (frame : Frame) : frame.woken.stage ≠ .queued → frame.stage ≠ .queued := by
    rcases frame.woken_cases with ⟨deadlineAt, hpa, -⟩ | ⟨-, hs⟩
    · rw [hpa]
      exact nofun
    · rw [hs]
      exact id
  have hli (frame : Frame) (result : Except KipcError Unit)
      (hf : frame.stage = .linked result) : frame.woken = frame := by
    rcases frame.woken_cases with ⟨deadlineAt, hpa, -⟩ | ⟨-, hs⟩
    · cases hpa.symm.trans hf
    · exact hs
  have hp (frame : Frame) : frame.woken.part = frame.part := by
    rcases frame.woken_cases with ⟨deadlineAt, -, hwo⟩ | ⟨-, hs⟩
    · rw [hwo]
      rfl
    · rw [hs]
  have hgo (frame : Frame) (hf : frame.Good) : frame.woken.Good := by
    rcases frame.woken_cases with ⟨deadlineAt, hpa, hwo⟩ | ⟨-, hs⟩
    · rw [hwo]
      exact ⟨hf.fits, nofun, nofun, fun _ _ => hf.parked deadlineAt hpa,
        by rintro (h | h | h) <;> cases h⟩
    · rw [hs]
      exact hf
  have hbu (frame : Frame) : ¬ frame.woken.Idle → ¬ frame.Idle := by
    rcases frame.woken_cases with ⟨deadlineAt, hpa, -⟩ | ⟨-, hs⟩
    · rintro - ⟨-, h | ⟨error, h | h⟩⟩ <;> cases hpa.symm.trans h
    · rw [hs]
      exact id
  rw [h.fire_eq]
  refine ⟨forall_mem_map.mpr fun frame hf => hgo frame (h.good frame hf),
    pairwise_map.mpr (h.order.imp fun hrel hst => ?_),
    pairwise_map.mpr (h.clean.imp fun hrel hwrs => ?_),
    forall_mem_map.mpr fun frame hf error heo => ?_, ?_, fun k frame hf hpa => ?_⟩
  · obtain ⟨result, hres⟩ := isLinked_iff.mp (hrel (hstg _ hst))
    exact isLinked_iff.mpr ⟨result, by rw [hli _ _ hres, hres]⟩
  · have hok := hrel (hbu _ hwrs)
    rw [hli _ _ hok, hok]
  · rcases frame.woken_cases with ⟨deadlineAt, -, hwo⟩ | ⟨-, hs⟩
    · rw [hwo] at heo
      cases heo
    · exact h.poisoned frame hf error (hs ▸ heo)
  · rw [flatMap_map, h.sent]
    exact (flatMap_congr fun frame _ => (hp frame).symm)
  · rw [getElem?_map] at hf
    obtain ⟨before, -, rfl⟩ := Option.map_eq_some_iff.mp hf
    rcases before.woken_cases with ⟨deadlineAt, -, hwo⟩ | ⟨hun, hs⟩
    · rw [hwo] at hpa
      cases hpa
    · rw [hs, hun] at hpa
      cases hpa

theorem Sound.step (h : Sound q) (input : Input) : Sound (q.step input).1 := by
  cases input with
  | writeFrame kind flags channel corr payload =>
    rw [WriteQueue.step, writeFrame]
    split_ifs
    · exact h
    · split
      · exact h
      · exact h.admit _
  | job k job =>
    rcases h.job k job with hs | ⟨front, frame, back, effect, hsi, hap⟩
    · rw [WriteQueue.step, hs]
      exact h
    · rw [WriteQueue.step, hap]
      exact hsi.sound h
  | fire => exact h.fire

theorem sound_run (inputs : List Input) : Sound (machine.run inputs) := by
  induction inputs using reverseRecOn with
  | nil => exact sound_new
  | append_singleton inputs input ih =>
    rw [Machine.run_snoc]
    exact ih.step input

/-! ## What the socket has -/

/-- The frames whose promise resolved stand first, whole; of the next there may be a part. -/
def Framed (frames : List Frame) (bytes : List Byte) : Prop :=
  ∃ front back tail, frames = front ++ back ∧ (∀ frame ∈ front, frame.Resolved) ∧
    (∀ frame ∈ back, ¬ frame.Resolved) ∧ bytes = front.flatMap Frame.encoding ++ tail ∧
    tail <+: (back.head?.map Frame.encoding).getD []

theorem resolved_of_linked {frame : Frame} (h : frame.stage = .linked (.ok ())) :
    frame.Resolved := by
  rw [Frame.Resolved, Frame.result, h]

theorem resolved_busy {frame : Frame} (h : frame.Resolved) : ¬ frame.Idle := by
  rintro ⟨-, hs | ⟨error, hs | hs⟩⟩ <;> rw [Frame.Resolved, Frame.result, hs] at h <;>
    cases h

theorem resolved_succeeds {frame : Frame} (h : frame.Resolved) : frame.Succeeds := by
  rw [Frame.Resolved, Frame.result] at h
  split at h
  case h_1 result hs =>
    cases h
    exact .settled hs
  case h_2 result hs =>
    cases h
    exact .linked hs
  case h_3 => cases h

theorem Sound.part_resolved (h : Sound q) {frames : List Frame}
    (hfrs : ∀ frame ∈ frames, frame ∈ q.frames ∧ frame.Resolved) :
    frames.flatMap Frame.part = frames.flatMap Frame.encoding := by
  refine flatMap_congr fun frame hf => ?_
  obtain ⟨hm, hre⟩ := hfrs frame hf
  obtain ⟨bytes, hby, hoff⟩ := (h.good frame hm).whole (resolved_succeeds hre)
  rw [Frame.part, Frame.encoding_ok hby, hoff, take_length]

/-- What holds of a frame only if of all before it holds of the first ones. -/
theorem exists_split {α : Type} {P : α → Prop} {l : List α} (h : l.Pairwise fun a b => P b → P a) :
    ∃ front back, l = front ++ back ∧ (∀ a ∈ front, P a) ∧ ∀ a ∈ back, ¬ P a := by
  induction l with
  | nil => exact ⟨[], [], rfl, nofun, nofun⟩
  | cons a l ih =>
    obtain ⟨hf, hr⟩ := pairwise_cons.mp h
    by_cases ha : P a
    · obtain ⟨front, back, rfl, hfr, hba⟩ := ih hr
      exact ⟨a :: front, back, rfl, forall_mem_cons.mpr ⟨ha, hfr⟩, hba⟩
    · exact ⟨[], a :: l, rfl, nofun, forall_mem_cons.mpr ⟨ha, fun b hb hh => ha (hf b hb hh)⟩⟩

theorem Sound.framed (h : Sound q) : Framed q.frames q.sent := by
  obtain ⟨front, back, hfrs, hfr, hba⟩ := exists_split (P := Frame.Resolved)
    (h.clean.imp fun hcl hl => resolved_of_linked (hcl (resolved_busy hl)))
  have hwh : front.flatMap Frame.part = front.flatMap Frame.encoding :=
    h.part_resolved fun frame hf =>
      ⟨hfrs ▸ mem_append_left _ hf, hfr frame hf⟩
  refine ⟨front, back, back.flatMap Frame.part, hfrs, hfr, hba, ?_, ?_⟩
  · rw [h.sent, hfrs, flatMap_append, hwh]
  · cases back with
    | nil => exact prefix_rfl
    | cons frame back =>
      have hcl := h.clean
      rw [hfrs, pairwise_append, pairwise_cons] at hcl
      have hi : ∀ later ∈ back, later.Idle := by
        intro later hl
        by_contra hbu
        exact hba frame mem_cons_self (resolved_of_linked (hcl.2.1.1 later hl hbu))
      rw [flatMap_cons, flatMap_part_idle hi, append_nil]
      exact take_prefix _ _

/-- While a job writes, the bytes are a part of its frame behind those that resolved. -/
theorem Site.framed {front back : List Frame} {frame : Frame} {effect : Effect}
    (h : Site q front frame back effect) (hs : Sound q) {sent : List Byte}
    (hse : q.sent <+: sent) (hse' : sent <+: (q.apply front.length effect).sent) :
    Framed q.frames sent := by
  obtain ⟨more, rfl⟩ := hse
  have hmo : more <+: effect.sent := (prefix_append_right_inj _).mp hse'
  by_cases hn : effect.sent = []
  · rw [hn, prefix_nil] at hmo
    rw [hmo, append_nil]
    exact hs.framed
  obtain ⟨hres, ho⟩ := h.advances.sends hn
  have hre : ∀ earlier ∈ front, earlier.Resolved := fun earlier hea =>
    resolved_of_linked (h.clean ho earlier hea)
  have hp : frame.part ++ effect.sent <+: frame.encoding := by
    rw [← h.advances.part, Frame.part, Frame.encoding, h.advances.bytes]
    exact take_prefix _ _
  refine ⟨front, frame :: back, frame.part ++ more, h.frames, hre,
    forall_mem_cons.mpr ⟨fun hh => ?_, fun later hl hh => ?_⟩, ?_, ?_⟩
  · cases hres.symm.trans hh
  · rw [Frame.Resolved, Frame.result, h.queued later hl] at hh
    cases hh
  · rw [h.sent hs, append_assoc, hs.part_resolved fun earlier hea =>
      ⟨h.frames ▸ mem_append_left _ hea, hre earlier hea⟩]
  · exact ((prefix_append_right_inj _).mpr hmo).trans hp

/-- The bytes at every moment of a step, and not only behind it. -/
theorem Sound.framed_step (h : Sound q) (input : Input) {sent : List Byte} (hse : q.sent <+: sent)
    (hse' : sent <+: (q.step input).1.sent) : Framed q.frames sent := by
  have hs (he : (q.step input).1.sent = q.sent) : Framed q.frames sent := by
    rw [he] at hse'
    rw [← hse.eq_of_length_le hse'.length_le]
    exact h.framed
  cases input with
  | writeFrame kind flags channel corr payload =>
    refine hs ?_
    rw [WriteQueue.step, writeFrame]
    split_ifs
    · rfl
    · split <;> rfl
  | job k job =>
    rcases h.job k job with hi | ⟨front, frame, back, effect, hsi, hap⟩
    · exact hs (congrArg WriteQueue.sent hi)
    · rw [WriteQueue.step, hap] at hse'
      exact hsi.framed h hse hse'
  | fire => exact hs rfl

/-! ## After a failure -/

theorem failed_not_resolved {frame : Frame} (h : frame.Failed) : ¬ frame.Resolved := by
  intro hre
  rw [Frame.Resolved, Frame.result] at hre
  rcases h with h | ⟨error, h⟩ | ⟨error, h⟩ | ⟨error, h⟩ <;> rw [h] at hre <;> cases hre

/-- Some frame failed. -/
def Cut (q : WriteQueue) : Prop := ∃ frame ∈ q.frames, frame.Failed

/-- No byte is added, the queue stays cut, and no frame resolves that had not. -/
structure StaysCut (q q' : WriteQueue) : Prop where
  sent : q'.sent = q.sent
  cut : Cut q'
  resolved : ∀ (k : ℕ) (frame' : Frame), q'.frames[k]? = some frame' → frame'.Resolved →
    ∃ frame : Frame, q.frames[k]? = some frame ∧ frame.Resolved

theorem StaysCut.refl (h : Cut q) : StaysCut q q := ⟨rfl, h, fun _ frame hf hre =>
  ⟨frame, hf, hre⟩⟩

theorem StaysCut.trans {q' q'' : WriteQueue} (h : StaysCut q q') (h' : StaysCut q' q'') :
    StaysCut q q'' where
  sent := h'.sent.trans h.sent
  cut := h'.cut
  resolved := fun k frame'' hf'' hre => by
    obtain ⟨frame', hf', hre'⟩ := h'.resolved k frame'' hf'' hre
    exact h.resolved k frame' hf' hre'

/-- The cut is the frame of the job or in front of it, so the job writes nothing. -/
theorem Site.staysCut {front back : List Frame} {frame : Frame} {effect : Effect}
    (h : Site q front frame back effect) (hcut : Cut q) :
    StaysCut q (q.apply front.length effect) := by
  obtain ⟨failed, hm, hfa⟩ := hcut
  rw [h.frames] at hm
  have hca : effect.sent = [] ∧ ¬ effect.frame.Resolved ∧
      ∃ still ∈ front ++ effect.frame :: back, still.Failed := by
    rcases mem_append.mp hm with hfr | hba
    · have hdi : ¬ (¬ frame.Idle ∨ (frame.stage = .queued ∧ q.poison = none)) := by
        intro ho
        exact failed_not_resolved hfa (resolved_of_linked (h.clean ho failed hfr))
      refine ⟨?_, fun hre => ?_, failed, mem_append_left _ hfr, hfa⟩
      · by_contra hse
        exact hdi (h.advances.sends hse).2
      · exact hdi (h.advances.idle (resolved_busy hre))
    · rcases mem_cons.mp hba with rfl | hba
      · obtain ⟨hst, hse⟩ := h.advances.failed hfa
        exact ⟨hse, failed_not_resolved hst, effect.frame, mem_append_right _ mem_cons_self, hst⟩
      · have hque := h.queued failed hba
        rcases hfa with hf | ⟨error, hf⟩ | ⟨error, hf⟩ | ⟨error, hf⟩ <;>
          cases hque.symm.trans hf
  obtain ⟨hse, hun, hst⟩ := hca
  refine ⟨?_, ?_, fun k frame' hfm' hre => ⟨frame', ?_, hre⟩⟩
  · rw [apply, hse, append_nil]
  · rw [Cut, h.apply_frames]
    exact hst
  · rw [apply, getElem?_set] at hfm'
    split_ifs at hfm' with hk hlt
    · cases hfm'
      exact (hun hre).elim
    · exact hfm'

theorem Sound.staysCut (h : Sound q) (hcut : Cut q) (input : Input) :
    StaysCut q (q.step input).1 := by
  cases input with
  | writeFrame kind flags channel corr payload =>
    rw [WriteQueue.step, writeFrame]
    split_ifs
    · exact .refl hcut
    split
    · exact .refl hcut
    obtain ⟨failed, hm, hfa⟩ := hcut
    refine ⟨rfl, ⟨failed, mem_append_left _ hm, hfa⟩, fun k frame' hfr' hre => ?_⟩
    rcases Nat.lt_or_ge k q.frames.length with hlt | hge
    · rw [getElem?_append_left hlt] at hfr'
      exact ⟨frame', hfr', hre⟩
    · rw [getElem?_append_right hge] at hfr'
      cases mem_singleton.mp (mem_of_getElem? hfr')
      cases hre
  | job k job =>
    rcases h.job k job with hi | ⟨front, frame, back, effect, hsi, hap⟩
    · rw [WriteQueue.step, hi]
      exact .refl hcut
    · rw [WriteQueue.step, hap]
      exact hsi.staysCut hcut
  | fire =>
    have hwo (frame : Frame) (hpa : frame.isParked = false) : frame.woken = frame := by
      rcases frame.woken_cases with ⟨deadlineAt, hst, -⟩ | ⟨-, hs⟩
      · rw [Frame.isParked, hst] at hpa
        cases hpa
      · exact hs
    obtain ⟨failed, hm, hfa⟩ := hcut
    have hun : failed.isParked = false := by
      rcases hfa with hf | ⟨error, hf⟩ | ⟨error, hf⟩ | ⟨error, hf⟩ <;> rw [Frame.isParked, hf]
    rw [WriteQueue.step, h.fire_eq]
    refine ⟨rfl, ⟨failed, mem_map.mpr ⟨failed, hm, hwo failed hun⟩, hfa⟩,
      fun k frame' hfr' hre => ?_⟩
    rw [getElem?_map] at hfr'
    obtain ⟨frame, hfr, rfl⟩ := Option.map_eq_some_iff.mp hfr'
    rcases frame.woken_cases with ⟨deadlineAt, -, he⟩ | ⟨-, hs⟩
    · rw [he] at hre
      cases hre
    · exact ⟨frame, hfr, hs ▸ hre⟩

theorem staysCut_run (inputs more : List Input) (hcut : Cut (machine.run inputs)) :
    StaysCut (machine.run inputs) (machine.run (inputs ++ more)) := by
  induction more using reverseRecOn with
  | nil =>
    rw [append_nil]
    exact .refl hcut
  | append_singleton more input ih =>
    rw [← append_assoc, Machine.run_snoc]
    exact ih.trans ((sound_run _).staysCut ih.cut input)

/-! ## Every promise settles once -/

/-- Frame `k` has this result, for these bytes. -/
def Settles (q : WriteQueue) (k : ℕ) (bytes : Except KipcError (List Byte))
    (result : Except KipcError Unit) : Prop :=
  ∃ frame, q.frames[k]? = some frame ∧ frame.bytes = bytes ∧ frame.result = some result

theorem Sound.settles_step (h : Sound q) {k : ℕ} {bytes : Except KipcError (List Byte)}
    {result : Except KipcError Unit} (hse : Settles q k bytes result) (input : Input) :
    Settles (q.step input).1 k bytes result := by
  obtain ⟨frame, hf, hby, hres⟩ := hse
  cases input with
  | writeFrame kind flags channel corr payload =>
    rw [WriteQueue.step, writeFrame]
    split_ifs
    · exact ⟨frame, hf, hby, hres⟩
    split
    · exact ⟨frame, hf, hby, hres⟩
    · exact ⟨frame, getElem?_append_left (List.getElem?_eq_some_iff.mp hf).1 ▸ hf, hby, hres⟩
  | job k' job =>
    rcases h.job k' job with hi | ⟨front, at', back, effect, hsi, hap⟩
    · rw [WriteQueue.step, hi]
      exact ⟨frame, hf, hby, hres⟩
    · rw [WriteQueue.step, hap, Settles, apply]
      rw [getElem?_set]
      split_ifs with hk hlt
      · subst hk
        rw [hsi.frames, getElem?_append_right le_rfl, Nat.sub_self] at hf
        cases hf
        exact ⟨effect.frame, rfl, hsi.advances.bytes.trans hby, hsi.advances.result result hres⟩
      · subst hk
        exact (hlt (List.getElem?_eq_some_iff.mp hf).1).elim
      · exact ⟨frame, hf, hby, hres⟩
  | fire =>
    rw [WriteQueue.step, h.fire_eq]
    refine ⟨frame.woken, by rw [getElem?_map, hf]; rfl, ?_⟩
    rcases frame.woken_cases with ⟨deadlineAt, hpa, -⟩ | ⟨-, hs⟩
    · rw [Frame.result, hpa] at hres
      cases hres
    · rw [hs]
      exact ⟨hby, hres⟩

theorem settles_run (inputs more : List Input) {k : ℕ} {bytes : Except KipcError (List Byte)}
    {result : Except KipcError Unit} (h : Settles (machine.run inputs) k bytes result) :
    Settles (machine.run (inputs ++ more)) k bytes result := by
  induction more using reverseRecOn with
  | nil =>
    rw [append_nil]
    exact h
  | append_singleton more input ih =>
    rw [← append_assoc, Machine.run_snoc]
    exact (sound_run _).settles_step ih input

/-- How many jobs are left, at most, unless there is another call or drain event. -/
def weight (q : WriteQueue) : ℕ := (q.frames.map fun frame => frame.stage.weight).sum

theorem Site.lighter {front back : List Frame} {frame : Frame} {effect : Effect}
    (h : Site q front frame back effect) : (q.apply front.length effect).weight < q.weight := by
  have hli := h.advances.lighter
  rw [weight, weight, h.apply_frames, h.frames]
  simp only [map_append, map_cons, sum_append, sum_cons]
  omega

theorem Sound.lighter (h : Sound q) (k : ℕ) (job : Job) :
    q.runJob k job = q ∨ (q.runJob k job).weight < q.weight := by
  rcases h.job k job with hi | ⟨front, frame, back, effect, hsi, hap⟩
  · exact .inl hi
  · rw [hap]
    exact .inr hsi.lighter

/-- A frame whose turn it is has a job until it is linked. -/
theorem exists_job {frame : Frame} (hgo : frame.Good) (ho : frame.isLinked = false)
    (poison : Option KipcError) : ∃ job effect, frame.run true poison job = some effect := by
  obtain ⟨bytes, offset, stage⟩ := frame
  cases stage with
  | queued =>
    refine ⟨.start 0 fun _ => ⟨0, .closed⟩, ?_⟩
    cases poison with
    | some error => exact ⟨_, rfl⟩
    | none =>
      cases bytes with
      | error | ok => exact ⟨_, rfl⟩
  | parked deadlineAt => exact ⟨.expire, _, rfl⟩
  | woken deadlineAt =>
    obtain ⟨encoded, hby⟩ := hgo.woken deadlineAt rfl
    cases hby
    exact ⟨.resume fun _ => ⟨0, .closed⟩, _, rfl⟩
  | timedOut => exact ⟨.resume fun _ => ⟨0, .closed⟩, _, rfl⟩
  | wrote result => exact ⟨.adopt, _, rfl⟩
  | settled result => exact ⟨.link, _, rfl⟩
  | linked result => cases ho

/-- With no job left every frame is linked: the first that is not would have one. -/
theorem Sound.linked_of_quiet (h : Sound q) (hq : ∀ k job, q.runJob k job = q) :
    ∀ frame ∈ q.frames, frame.isLinked = true := by
  obtain ⟨front, back, hfrs, hfr, hba⟩ := exists_split (P := fun frame : Frame =>
    frame.isLinked = true) (h.order.imp fun hor hl => by
      obtain ⟨result, hs⟩ := isLinked_iff.mp hl
      exact hor (hs ▸ nofun))
  cases back with
  | nil =>
    rw [hfrs, append_nil]
    exact hfr
  | cons frame back =>
    have ho := eq_false_of_ne_true (hba frame mem_cons_self)
    have hm : frame ∈ q.frames := hfrs ▸ mem_append_right _ mem_cons_self
    obtain ⟨job, effect, hef⟩ := exists_job (h.good frame hm) ho q.poison
    have hg : q.frames[front.length]? = some frame := by
      rw [hfrs, getElem?_append_right le_rfl, Nat.sub_self]
      rfl
    have hre : q.chainResolved front.length = true := by
      rcases eq_nil_or_concat front with rfl | ⟨init, last, rfl⟩
      · rfl
      · rw [concat_eq_append, length_append, length_singleton, chainResolved,
          hfrs, concat_eq_append, append_assoc,
          getElem?_append_right le_rfl, Nat.sub_self]
        exact hfr last (by rw [concat_eq_append]; simp)
    have hr : q.runJob front.length job = q.apply front.length effect := by
      rw [runJob, hg, Option.bind_some, hre, hef]
    have hsi := h.site hfrs (hre ▸ advances_run (h.good frame hm) hef)
    have hli := hsi.lighter
    rw [← hr, hq] at hli
    exact (Nat.lt_irrefl _ hli).elim

/-! ## The queue as its callers and the peer see it -/

structure NeverInterleaves (inputs : List Input) (q : WriteQueue) : Prop where
  framed : Framed q.frames q.sent
  /-- So are the bytes at every moment of the next step. -/
  framedWithin : ∀ input sent, q.sent <+: sent → sent <+: (q.step input).1.sent →
    Framed q.frames sent
  /-- After a failure nothing more is written, and nothing more resolves. -/
  cut : Cut q → ∀ more, StaysCut q (machine.run (inputs ++ more))
  /-- An admitted call is behind all others; a refused one changes nothing. -/
  admitted : ∀ kind flags channel corr payload, payload.length ≤ maxFrameLen → q.poison = none →
    q.step (.writeFrame kind flags channel corr payload) =
      ({ q with frames := q.frames ++
        [{ bytes := encodeFrame kind flags channel corr payload, offset := 0, stage := .queued }] },
        some (.ok q.frames.length))
  tooLarge : ∀ kind flags channel corr payload, maxFrameLen < payload.length →
    q.step (.writeFrame kind flags channel corr payload) = (q, some (.error payloadTooLarge))
  poisoned : ∀ kind flags channel corr payload error, payload.length ≤ maxFrameLen →
    q.poison = some error →
    q.step (.writeFrame kind flags channel corr payload) = (q, some (.error error))
  settlesOnce : ∀ k bytes result, Settles q k bytes result → ∀ more,
    Settles (machine.run (inputs ++ more)) k bytes result
  /-- There are only so many jobs, and without one every promise is settled. -/
  lighter : ∀ k job, q.runJob k job = q ∨ (q.runJob k job).weight < q.weight
  settles : (∀ k job, q.runJob k job = q) → ∀ frame ∈ q.frames, frame.result ≠ none
  /-- A frame that waits has a waiter, and the drain event leaves none waiting. -/
  waiting : ∀ k frame, q.frames[k]? = some frame → frame.isParked = true → k ∈ q.waiters
  drained : ∀ frame ∈ (q.step .fire).1.frames, frame.isParked = false

/-- Every run of the queue, whatever the calls, the socket, the clock and the order of the jobs. -/
theorem writeQueue_never_interleaves (inputs : List Input) :
    NeverInterleaves inputs (machine.run inputs) := by
  have hs := sound_run inputs
  refine {
    framed := hs.framed
    framedWithin := fun input sent => hs.framed_step input
    cut := fun hcut more => staysCut_run inputs more hcut
    admitted := fun kind flags channel corr payload hf hpo => ?_
    tooLarge := fun kind flags channel corr payload hla => ?_
    poisoned := fun kind flags channel corr payload error hf hpo => ?_
    settlesOnce := fun k bytes result hse more => settles_run inputs more hse
    lighter := hs.lighter
    settles := fun hq frame hfr => ?_
    waiting := hs.waiting
    drained := ?_ }
  · rw [step, writeFrame, if_neg (Nat.not_lt.mpr hf), hpo]
  · rw [step, writeFrame, if_pos hla]
  · rw [step, writeFrame, if_neg (Nat.not_lt.mpr hf), hpo]
  · obtain ⟨result, hst⟩ := isLinked_iff.mp (hs.linked_of_quiet hq frame hfr)
    rw [Frame.result, hst]
    exact nofun
  · rw [step, hs.fire_eq]
    refine forall_mem_map.mpr fun frame _ => ?_
    rcases frame.woken_cases with ⟨deadlineAt, -, hwo⟩ | ⟨hun, hsa⟩
    · rw [hwo]
      rfl
    · rw [hsa]
      exact hun

end WriteQueue

end Keld.Kipc
