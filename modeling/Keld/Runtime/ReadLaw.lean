/-
# `Keld.Runtime.ReadLaw` — the counters and the boundaries of reads

Each read is decoded by itself.  A character that is split between two reads
becomes replacement characters, which are more bytes than the child wrote; so the
counters of a stream account for its length exactly if no read splits a character
and the total does not saturate.
-/
import Keld.Runtime.MarkerLaw

namespace Keld.Runtime

open List

/-- The reads of one stream. -/
def readsOf (isStdout : Bool) (events : List CaptureEvent) : List (List Byte) :=
  events.filterMap fun
    | .read bytes stdout => if stdout = isStdout then some bytes else none
    | .generation => none

theorem flatten_readsOf (isStdout : Bool) (events : List CaptureEvent) :
    (readsOf isStdout events).flatten = outputOf isStdout events ∧
      (readsOf isStdout events).flatMap fromUtf8Lossy = decodedOf isStdout events := by
  induction events with
  | nil => exact ⟨rfl, rfl⟩
  | cons event events ih =>
    rw [readsOf, outputOf, decodedOf, flatMap_cons, flatMap_cons, ← outputOf, ← decodedOf,
      ← ih.1, ← ih.2]
    cases event with
    | generation => exact ⟨rfl, rfl⟩
    | read bytes stdout =>
      rw [filterMap_cons]
      dsimp only
      split_ifs with hsi <;> exact ⟨rfl, rfl⟩

theorem Kept.text_eq {all : List Byte} {s : CapturedStream} (h : Kept all s)
    (hdr : s.droppedBytes = 0) : s.text = all := by
  rcases h.shape with hu | ⟨head, cut, d, he⟩
  · exact hu.text
  · have hmin := he.dropped
    have hlt := he.h_lt
    have hmax : 0 < usizeMax := by decide
    omega

/-- Of outputs that are texts, the counters account for a stream, and the retained text is the
output while nothing was dropped, exactly if every read is a text by itself and the total does
not saturate. -/
theorem reads_account_iff (markers : List String) {s : CaptureState}
    (hnew : CaptureState.new markers = some (.ok s)) (events : List CaptureEvent)
    (htext : ∀ isStdout, IsText (outputOf isStdout events)) :
    ∃ s', s.handleAll events = some s' ∧ ∀ isStdout,
      ((s'.transcript.stream isStdout).Accounts ∧
        ((s'.transcript.stream isStdout).droppedBytes = 0 →
          (s'.transcript.stream isStdout).text = outputOf isStdout events)) ↔
      (∀ read ∈ readsOf isStdout events, IsText read) ∧
        (outputOf isStdout events).length ≤ usizeMax := by
  have ha : markersRefused markers = false := by
    by_contra href
    rw [CaptureState.new, if_pos (Bool.eq_true_of_not_eq_false href)] at hnew
    cases hnew
  obtain ⟨s₀, hnew₀, hst⟩ := new_spec ha
  obtain rfl := Except.ok.inj (Option.some.inj (hnew₀.symm.trans hnew))
  obtain ⟨s', hru, h⟩ := hst.handleAll events
  refine ⟨s', hru, fun isStdout => ?_⟩
  rw [nil_append] at h
  obtain ⟨hfl, hde⟩ := flatten_readsOf isStdout events
  have hle := length_flatten_le_lossy (readsOf isStdout events)
  rw [hfl, hde] at hle
  have hac := (h.kept isStdout).transcript.accounts_iff (h.total isStdout) hle
  constructor
  · rintro ⟨hco, -⟩
    obtain ⟨hl, hmax⟩ := hac.mp hco
    refine ⟨lossy_parts_text (hfl ▸ htext isStdout) ?_, hmax⟩
    rw [hfl, hde]
    exact hl.ge
  · rintro ⟨hwh, hmax⟩
    have hs : decodedOf isStdout events = outputOf isStdout events := by
      rw [← hfl, ← hde, ← flatMap_id]
      exact flatMap_congr fun read hr => fromUtf8Lossy_text (hwh read hr)
    refine ⟨hac.mpr ⟨by rw [hs], hmax⟩, fun hdr => ?_⟩
    rw [(h.kept isStdout).text_eq hdr, hs]

/-- The character `é` of two bytes. -/
def eAcute : List Byte := [0xc3, 0xa9]

theorem isText_eAcute : IsText eAcute := ⟨['é'], by decide⟩

theorem reads_account_whole :
    ∃ s', CaptureState.handleAll ⟨{}, []⟩ [.read eAcute true] = some s' ∧
      s'.transcript.stdout.Accounts := by
  have ht : ∀ isStdout, IsText (outputOf isStdout [.read eAcute true]) := by
    intro isStdout
    cases isStdout with
    | false => exact isText_nil
    | true => exact isText_eAcute
  obtain ⟨s', hr, h⟩ := reads_account_iff [] rfl _ ht
  refine ⟨s', hr, ((h true).mpr ⟨?_, by decide⟩).1⟩
  exact forall_mem_singleton.mpr isText_eAcute

/-- Read in two parts the character becomes two replacement characters. -/
theorem reads_split :
    ∃ s s', CaptureState.new [] = some (.ok s) ∧
      IsText (outputOf true [.read [0xc3] true, .read [0xa9] true]) ∧
      s.handleAll [.read [0xc3] true, .read [0xa9] true] = some s' ∧
      ¬ s'.transcript.stdout.Accounts ∧ s'.transcript.stdout.droppedBytes = 0 ∧
      s'.transcript.stdout.text ≠ eAcute := by
  refine ⟨⟨{}, []⟩, _, rfl, isText_eAcute, rfl, ?_, rfl, by decide⟩
  rintro ⟨-, h⟩
  exact absurd h (by decide)

end Keld.Runtime
