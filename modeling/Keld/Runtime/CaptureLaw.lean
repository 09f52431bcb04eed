/-
# `Keld.Runtime.CaptureLaw` — what is kept of a stream

A compaction cuts a text that exceeds the ceiling into a head, which ends with a
newline of the text or gets one, and a tail.  The head is found again by every later
compaction (`Pinned`): the first newline behind the head window is its last byte.
So one separator is all that a stream ever gets, and the retained text is a head
and a tail of everything that was appended (`Elided`).
-/
import Keld.Lib.Lines
import Keld.Runtime.Capture

namespace Keld.Runtime

open List

/-! ## Boundaries -/

theorem isCharBoundary_of_startsChar {stream : List Byte} {index : ℕ} (hle : index ≤ stream.length)
    (h : startsChar (stream.drop index) = true) : isCharBoundary stream index = true := by
  rw [isCharBoundary, decide_eq_true hle, h]
  exact Bool.or_true _

theorem startsChar_of_isCharBoundary {stream : List Byte} (htext : IsText stream) {index : ℕ}
    (h : isCharBoundary stream index = true) :
    index ≤ stream.length ∧ startsChar (stream.drop index) = true := by
  rw [isCharBoundary, Bool.or_eq_true, Bool.and_eq_true, decide_eq_true_eq, beq_iff_eq] at h
  rcases h with rfl | h
  · exact ⟨Nat.zero_le _, htext.startsChar⟩
  · exact h

theorem isCharBoundary_append {xs ys : List Byte} {index : ℕ} (h : index < xs.length) :
    isCharBoundary (xs ++ ys) index = isCharBoundary xs index := by
  have hst : startsChar ((xs ++ ys).drop index) = startsChar (xs.drop index) := by
    rw [drop_append_of_le_length (Nat.le_of_lt h)]
    cases hd : xs.drop index with
    | nil => exact absurd (drop_eq_nil_iff.mp hd) (Nat.not_le.mpr h)
    | cons b rest => rfl
  have hle : index ≤ (xs ++ ys).length := by
    rw [length_append]
    omega
  rw [isCharBoundary, isCharBoundary, hst, decide_eq_true hle, decide_eq_true (Nat.le_of_lt h)]

/-- The first boundary from an index on. -/
structure FirstBoundary (stream : List Byte) (index n : ℕ) : Prop where
  from_index : index ≤ n
  le_length : n ≤ stream.length
  boundary : isCharBoundary stream n = true
  before : ∀ k, index ≤ k → k < n → isCharBoundary stream k = false

theorem seekBoundary_spec {stream : List Byte} (turns : ℕ) :
    ∀ index, index + turns = stream.length →
      FirstBoundary stream index (seekBoundary stream turns index) := by
  induction turns with
  | zero =>
    intro index hen
    rw [Nat.add_zero] at hen
    subst hen
    refine ⟨le_rfl, le_rfl, isCharBoundary_of_startsChar le_rfl ?_,
      fun k hk hlt => absurd hk (Nat.not_le.mpr hlt)⟩
    rw [seekBoundary, drop_length]
    rfl
  | succ turns ih =>
    intro index hen
    rw [seekBoundary]
    split_ifs with hgo
    · have hr := ih (index + 1) (by omega)
      refine ⟨Nat.le_of_succ_le hr.from_index, hr.le_length, hr.boundary, ?_⟩
      intro k hk hlt
      rcases Nat.eq_or_lt_of_le hk with rfl | hk
      · exact hgo.2
      · exact hr.before k hk hlt
    · refine ⟨le_rfl, by omega, ?_, fun k hk hlt => absurd hk (Nat.not_le.mpr hlt)⟩
      exact Bool.eq_true_of_not_eq_false fun h => hgo ⟨by omega, h⟩

theorem boundaryAtOrAfter_spec {stream : List Byte} {index : ℕ} (h : index ≤ stream.length) :
    FirstBoundary stream index (boundaryAtOrAfter stream index) := by
  rw [boundaryAtOrAfter]
  split_ifs with hen
  · obtain rfl := Nat.le_antisymm h hen
    exact seekBoundary_spec 0 stream.length rfl
  · exact seekBoundary_spec _ index (by omega)

namespace FirstBoundary

variable {stream xs ys : List Byte} {index n m : ℕ}

section

variable (h : FirstBoundary stream index n)
include h

theorem unique (h' : FirstBoundary stream index m) : n = m := by
  rcases Nat.lt_trichotomy n m with hlt | heq | hgt
  · exact absurd h.boundary (by rw [h'.before n h.from_index hlt]; exact Bool.false_ne_true)
  · exact heq
  · exact absurd h'.boundary (by rw [h.before m h'.from_index hgt]; exact Bool.false_ne_true)

theorem eq : boundaryAtOrAfter stream index = n :=
  (boundaryAtOrAfter_spec (h.from_index.trans h.le_length)).unique h

theorem near (htext : IsText stream) : n ≤ index + 3 := by
  obtain ⟨skip, hsk, hle, hst⟩ := htext.nearBoundary index (h.from_index.trans h.le_length)
  rcases Nat.lt_or_ge (index + skip) n with hlt | hge
  · have hfa := h.before (index + skip) (Nat.le_add_right _ _) hlt
    rw [isCharBoundary_of_startsChar hle hst] at hfa
    exact absurd hfa (by decide)
  · omega

end

/-- Only the bytes up to a boundary, and the next one, make it the first. -/
theorem append_iff (hn : n < xs.length) :
    FirstBoundary (xs ++ ys) index n ↔ FirstBoundary xs index n := by
  have hle : n ≤ (xs ++ ys).length := by
    rw [length_append]
    omega
  constructor
  · rintro ⟨hfr, -, hat, hb⟩
    refine ⟨hfr, Nat.le_of_lt hn, by rwa [isCharBoundary_append hn] at hat, ?_⟩
    intro k hk hlt
    rw [← isCharBoundary_append (hlt.trans hn)]
    exact hb k hk hlt
  · rintro ⟨hfr, -, hat, hb⟩
    refine ⟨hfr, hle, by rwa [isCharBoundary_append hn], ?_⟩
    intro k hk hlt
    rw [isCharBoundary_append (hlt.trans hn)]
    exact hb k hk hlt

end FirstBoundary

/-- The byte behind a newline starts a character. -/
theorem boundary_behind_newline {front back : List Byte} (h : IsText (front ++ newline :: back)) :
    isCharBoundary (front ++ newline :: back) (front.length + 1) = true := by
  obtain ⟨-, hba⟩ := isText_cut (by decide) h
  refine isCharBoundary_of_startsChar ?_ ?_
  · rw [length_append, length_cons]
    omega
  · rw [← drop_drop, drop_left]
    exact hba.startsChar

/-! ## Cuts -/

/-- Where the search for a head may end. -/
def headLimit : ℕ := captureMaxRetainedBytes - captureTailBytes

/-- A head that every later compaction finds again: the first newline behind the head window is its
last byte. -/
def Pinned (head : List Byte) : Prop :=
  ∃ line n, head = line ++ [newline] ∧ FirstBoundary head captureHeadBytes n ∧ n ≤ line.length ∧
    newline ∉ line.drop n ∧ line.length < headLimit

/-- What a compaction puts between head and tail. -/
def separator (aligned : Bool) : List Byte := if aligned then [] else [newline]

variable {head : List Byte} {h d : ℕ} {chunks : List (String × ℕ)}

theorem Pinned.length_le (h : Pinned head) : head.length ≤ headLimit := by
  obtain ⟨line, n, rfl, -, -, -, hl⟩ := h
  rw [length_append]
  exact hl

theorem Pinned.headCut (h : Pinned head) {rest : List Byte}
    (hlong : captureMaxRetainedBytes < (head ++ rest).length) :
    headCut (head ++ rest) = some (head.length, true) := by
  obtain ⟨line, n, rfl, hf, hn, hfr, hl⟩ := h
  have hs : boundaryAtOrAfter (line ++ [newline] ++ rest) captureHeadBytes = n := by
    refine ((FirstBoundary.append_iff ?_).mpr hf).eq
    rw [length_append]
    exact Nat.lt_succ_of_le hn
  have hli : headLimit ≤ captureMaxRetainedBytes := by decide
  have hw : ((line ++ [newline] ++ rest).take headLimit).drop n =
      line.drop n ++ newline :: rest.take (headLimit - line.length - 1) := by
    rw [append_assoc, take_append, take_of_length_le (Nat.le_of_lt hl),
      singleton_append, take_cons (by omega), drop_append_of_le_length hn]
  have hra : byteRange (line ++ [newline] ++ rest) n headLimit =
      some (line.drop n ++ newline :: rest.take (headLimit - line.length - 1)) := by
    rw [byteRange, if_pos ⟨by omega, by omega⟩, hw]
  rw [Runtime.headCut, hs, ← headLimit, hra]
  dsimp only [Option.bind_eq_bind, Option.bind_some]
  rw [findIdx?_of_not_mem hfr, length_drop, length_append]
  dsimp only [length_singleton]
  rw [Nat.add_sub_cancel' hn]
  rfl

section

variable {stream : List Byte} (htext : IsText stream)
  (hlong : captureMaxRetainedBytes < stream.length)
include htext hlong

/-- The first compaction pins a head. -/
theorem headCut_pins :
    ∃ headEnd aligned, headCut stream = some (headEnd, aligned) ∧
      Pinned (stream.take headEnd ++ separator aligned) ∧
      boundaryAtOrAfter stream captureHeadBytes ≤ headEnd ∧ headEnd ≤ headLimit ∧
      isCharBoundary stream headEnd = true := by
  have hco : captureHeadBytes + 3 < headLimit ∧ headLimit ≤ captureMaxRetainedBytes := by decide
  have hf : FirstBoundary stream captureHeadBytes _ := boundaryAtOrAfter_spec (by omega)
  have hne := hf.near htext
  rw [headCut, ← headLimit]
  generalize boundaryAtOrAfter stream captureHeadBytes = n at hf hne ⊢
  rw [byteRange, if_pos ⟨by omega, by omega⟩]
  dsimp only [Option.bind_eq_bind, Option.bind_some]
  cases hfi : ((stream.take headLimit).drop n).findIdx? (· == newline) with
  | none =>
    -- no newline in the window: one is put behind the head
    have hl : (stream.take n).length = n := length_take_of_le hf.le_length
    have hh : FirstBoundary (stream.take n ++ [newline]) captureHeadBytes n := by
      refine ⟨hf.from_index, by rw [length_append, hl]; omega,
        isCharBoundary_of_startsChar (by rw [length_append, hl]; omega) ?_, ?_⟩
      · rw [drop_append_of_le_length (Nat.le_of_eq hl.symm), drop_of_length_le hl.le]
        rfl
      · intro k hk hlt
        rw [← hl] at hlt
        have hbe := hf.before k hk (hl ▸ hlt)
        rw [← take_append_drop n stream, isCharBoundary_append hlt] at hbe
        rwa [isCharBoundary_append hlt]
    refine ⟨n, false, rfl, ⟨stream.take n, n, rfl, hh, hl.ge, ?_, by omega⟩, le_rfl,
      by omega, hf.boundary⟩
    rw [drop_of_length_le hl.le]
    exact not_mem_nil
  | some offset =>
    obtain ⟨front, back, hw, hfr, rfl⟩ := split_of_findIdx? hfi
    have hl : ((stream.take headLimit).take n).length = n :=
      length_take_of_le (by rw [length_take_of_le (by omega)]; omega)
    have hst : stream = (stream.take headLimit).take n ++ front ++
        newline :: (back ++ stream.drop headLimit) := by
      conv_lhs => rw [← take_append_drop headLimit stream,
        ← take_append_drop n (stream.take headLimit), hw]
      simp only [append_assoc, cons_append]
    have hb := congrArg List.length hw
    rw [length_drop, length_take_of_le (by omega), length_append, length_cons] at hb
    generalize (stream.take headLimit).take n = line at hl hst
    generalize back ++ stream.drop headLimit = rest at hst
    subst hl hst
    have hh : (line ++ front ++ newline :: rest).take (line.length + front.length + 1) =
        line ++ front ++ [newline] := by
      rw [← length_append, take_length_add_append, take_succ_cons, take_zero]
    refine ⟨line.length + front.length + 1, true, rfl, ?_, by omega, by omega, ?_⟩
    · rw [hh, separator, if_pos rfl, append_nil]
      refine ⟨line ++ front, line.length, rfl, ?_, ?_, ?_, ?_⟩
      · rw [← singleton_append, ← append_assoc] at hf
        refine (FirstBoundary.append_iff ?_).mp hf
        rw [length_append, length_append, length_singleton]
        omega
      · rw [length_append]
        exact Nat.le_add_right _ _
      · rwa [drop_left]
      · rw [length_append]
        omega
    · rw [← length_append]
      exact boundary_behind_newline htext

theorem tailCut_spec :
    ∃ tailStart, tailCut stream = some tailStart ∧
      stream.length - captureTailBytes ≤ tailStart ∧ tailStart < stream.length ∧
      isCharBoundary stream tailStart = true := by
  have hco : captureTailBytes ≤ captureMaxRetainedBytes ∧ 3 < captureTailBytes := by decide
  have hf : FirstBoundary stream (stream.length - captureTailBytes) _ :=
    boundaryAtOrAfter_spec (Nat.sub_le _ _)
  have hne := hf.near htext
  rw [tailCut]
  generalize boundaryAtOrAfter stream (stream.length - captureTailBytes) = start at hf hne ⊢
  rw [textFrom, if_pos hf.boundary]
  dsimp only [Option.bind_eq_bind, Option.bind_some]
  cases hfi : ((stream.drop start).findIdx? (· == newline)).filter
      (start + · + 1 < stream.length) with
  | none => exact ⟨start, rfl, hf.from_index, by omega, hf.boundary⟩
  | some offset =>
    obtain ⟨hfi, hin⟩ := Option.filter_eq_some_iff.mp hfi
    obtain ⟨front, back, hw, -, rfl⟩ := split_of_findIdx? hfi
    have hfr := hf.from_index
    refine ⟨start + front.length + 1, rfl, by omega, of_decide_eq_true hin, ?_⟩
    have hl : (stream.take start).length = start := length_take_of_le hf.le_length
    have hst : stream = stream.take start ++ front ++ newline :: back := by
      rw [append_assoc, ← hw, take_append_drop]
    rw [hst] at htext ⊢
    have hbdy := boundary_behind_newline htext
    rwa [length_append, hl] at hbdy

end

/-- A compaction keeps a head and a tail. -/
theorem compact_spec {s : CapturedStream} (htext : IsText s.text)
    (hlong : captureMaxRetainedBytes < s.text.length) {headEnd : ℕ} {aligned : Bool}
    (hcut : headCut s.text = some (headEnd, aligned)) (hli : headEnd ≤ headLimit)
    (hbdy : isCharBoundary s.text headEnd = true) :
    ∃ tailStart, headEnd < tailStart ∧ tailStart < s.text.length ∧
      s.text.length ≤ tailStart + captureTailBytes ∧
      startsChar (s.text.drop tailStart) = true ∧
      IsText (s.text.take headEnd ++ separator aligned ++ s.text.drop tailStart) ∧
      s.compact = some { s with
        text := s.text.take headEnd ++ separator aligned ++ s.text.drop tailStart
        droppedBytes := saturatingAdd s.droppedBytes (tailStart - headEnd)
        separatorBytes := if aligned then s.separatorBytes else saturatingAdd s.separatorBytes 1 } := by
  obtain ⟨tailStart, hta, hfr, hlt, htailBoundary⟩ := tailCut_spec htext hlong
  obtain ⟨-, hst⟩ := startsChar_of_isCharBoundary htext htailBoundary
  obtain ⟨-, hheadStarts⟩ := startsChar_of_isCharBoundary htext hbdy
  have hco : headLimit + captureTailBytes = captureMaxRetainedBytes := by decide
  have hpi : IsText (s.text.take headEnd ++ separator aligned ++ s.text.drop tailStart) := by
    have hh := (IsText.cut (by rwa [take_append_drop]) hheadStarts).1
    have htailText := (IsText.cut (by rwa [take_append_drop]) hst).2
    have hse : IsText (separator aligned) := by
      cases aligned with
      | true => exact isText_nil
      | false => exact isText_ascii (by decide)
    exact (hh.append hse).append htailText
  refine ⟨tailStart, by omega, hlt, by omega, hst, hpi, ?_⟩
  rw [CapturedStream.compact, hcut, hta]
  dsimp only [Option.bind_eq_bind, Option.bind_some]
  rw [drain, if_pos ⟨by omega, hbdy, htailBoundary⟩]
  dsimp only [Option.bind_some]
  cases aligned with
  | true => rw [if_pos rfl, if_pos rfl, separator, if_pos rfl, append_nil]; rfl
  | false =>
    have hl : (s.text.take headEnd).length = headEnd := length_take_of_le (by omega)
    have hin : isCharBoundary (s.text.take headEnd ++ s.text.drop tailStart) headEnd = true := by
      refine isCharBoundary_of_startsChar ?_ ?_
      · rw [length_append, hl]
        exact Nat.le_add_right _ _
      · rw [drop_append_of_le_length hl.ge, drop_of_length_le hl.le]
        exact hst
    rw [if_neg Bool.false_ne_true, insertAt, if_pos hin,
      take_append_of_le_length hl.ge, take_of_length_le hl.le,
      drop_append_of_le_length hl.ge, drop_of_length_le hl.le, append_assoc]
    rfl

/-! ## The invariant -/

/-- Of all that was appended, what lies between `h` and `d` is cut out. -/
structure Elided (all : List Byte) (s : CapturedStream) (head : List Byte) (h d : ℕ) : Prop where
  text : s.text = head ++ all.drop d
  pinned : Pinned head
  head_eq : head = all.take h ++ List.replicate s.separatorBytes newline
  separators : s.separatorBytes ≤ 1
  window : boundaryAtOrAfter all captureHeadBytes ≤ h
  h_lt : h < d
  d_lt : d < all.length
  dropped : s.droppedBytes = min (d - h) usizeMax

/-- Nothing is cut out yet. -/
structure Untouched (all : List Byte) (s : CapturedStream) : Prop where
  text : s.text = all
  dropped : s.droppedBytes = 0
  separators : s.separatorBytes = 0

/-- What a stream is after each `append`. -/
structure Kept (all : List Byte) (s : CapturedStream) : Prop where
  isText : IsText s.text
  length_le : s.text.length ≤ captureMaxRetainedBytes
  shape : Untouched all s ∨ ∃ head h d, Elided all s head h d

theorem boundaryAtOrAfter_append {xs ys : List Byte} {index : ℕ}
    (h : boundaryAtOrAfter xs index < xs.length) :
    boundaryAtOrAfter (xs ++ ys) index = boundaryAtOrAfter xs index := by
  have hin : index ≤ xs.length := by
    by_contra ho
    rw [boundaryAtOrAfter, if_pos (Nat.le_of_not_le ho)] at h
    exact absurd h (Nat.lt_irrefl _)
  exact ((FirstBoundary.append_iff h).mpr (boundaryAtOrAfter_spec hin)).eq

/-- The head window of a text only grows with it. -/
theorem take_boundary_prefix (xs ys : List Byte) (index : ℕ) :
    xs.take (boundaryAtOrAfter xs index) <+:
      (xs ++ ys).take (boundaryAtOrAfter (xs ++ ys) index) := by
  rcases Nat.lt_or_ge (boundaryAtOrAfter xs index) xs.length with hlt | hge
  · rw [boundaryAtOrAfter_append hlt, take_append_of_le_length hlt.le]
  · rw [take_of_length_le hge]
    have hgr : xs.length ≤ boundaryAtOrAfter (xs ++ ys) index := by
      by_contra hsh
      have hin : index ≤ (xs ++ ys).length := by
        by_contra ho
        rw [boundaryAtOrAfter, if_pos (Nat.le_of_not_le ho), length_append] at hsh
        exact hsh (Nat.le_add_right _ _)
      have hf := (FirstBoundary.append_iff (Nat.lt_of_not_le hsh)).mp (boundaryAtOrAfter_spec hin)
      rw [hf.eq] at hge
      exact hsh hge
    rw [take_append, take_of_length_le hgr]
    exact prefix_append _ _

section

variable {all : List Byte} {s : CapturedStream} (he : Elided all s head h d)
include he

theorem Elided.append (chunk : List Byte) (total : ℕ) :
    Elided (all ++ chunk) { s with totalBytes := total, text := s.text ++ chunk } head h d := { he with
  text := by rw [he.text, append_assoc, drop_append_of_le_length he.d_lt.le]
  head_eq := by
    rw [take_append_of_le_length (he.h_lt.trans he.d_lt).le]
    exact he.head_eq
  window := by
    rw [boundaryAtOrAfter_append (he.window.trans_lt (he.h_lt.trans he.d_lt))]
    exact he.window
  d_lt := he.d_lt.trans_le (by rw [length_append]; exact Nat.le_add_right _ _) }

/-- A later compaction moves the start of the tail and nothing else. -/
theorem Elided.compact (htext : IsText s.text) (hlong : captureMaxRetainedBytes < s.text.length) :
    ∃ s', s.compact = some s' ∧ s'.totalBytes = s.totalBytes ∧ Kept all s' := by
  have hcn : headLimit + captureTailBytes = captureMaxRetainedBytes := by decide
  have hpin := he.pinned.length_le
  have hcut : headCut s.text = some (head.length, true) := by
    rw [he.text] at hlong ⊢
    exact he.pinned.headCut hlong
  have hbdy : isCharBoundary s.text head.length = true := by
    obtain ⟨line, n, hli, -⟩ := he.pinned
    rw [he.text, hli, append_assoc, singleton_append] at htext ⊢
    rw [length_append]
    exact boundary_behind_newline htext
  obtain ⟨tailStart, hlt, hen, hw, -, hpi, hco⟩ := compact_spec htext hlong hcut hpin hbdy
  have hta : s.text.drop tailStart = all.drop (d + (tailStart - head.length)) := by
    rw [he.text, drop_append, drop_eq_nil_of_le hlt.le, nil_append, drop_drop]
  have htake : s.text.take head.length = head := by rw [he.text, take_left]
  have hl : s.text.length = head.length + (all.length - d) := by
    rw [he.text, length_append, length_drop]
  have hh := he.h_lt
  rw [separator, if_pos rfl, append_nil, htake, hta] at hpi hco
  rw [if_pos rfl] at hco
  refine ⟨_, hco, rfl, hpi, ?_, .inr ⟨head, h, d + (tailStart - head.length), rfl, he.pinned,
    he.head_eq, he.separators, he.window, by omega, by omega, ?_⟩⟩
  · rw [length_append, length_drop]
    omega
  · dsimp only
    rw [he.dropped, saturatingAdd]
    omega

end

theorem Untouched.compact {all : List Byte} {s : CapturedStream} (hu : Untouched all s)
    (htext : IsText s.text) (hlong : captureMaxRetainedBytes < s.text.length) :
    ∃ s', s.compact = some s' ∧ s'.totalBytes = s.totalBytes ∧ Kept all s' := by
  have hcn : headLimit + captureTailBytes = captureMaxRetainedBytes := by decide
  obtain rfl := hu.text
  obtain ⟨headEnd, aligned, hcut, hpin, hw, hli, hbdy⟩ := headCut_pins htext hlong
  obtain ⟨tailStart, hlt, hen, hta, -, hpi, hco⟩ := compact_spec htext hlong hcut hli hbdy
  have hl := hpin.length_le
  have hdr : saturatingAdd s.droppedBytes (tailStart - headEnd) =
      min (tailStart - headEnd) usizeMax := by rw [hu.dropped, saturatingAdd, Nat.zero_add]
  have hse : (if aligned then s.separatorBytes else saturatingAdd s.separatorBytes 1) =
      (separator aligned).length := by
    rw [hu.separators]
    cases aligned <;> rfl
  rw [hdr, hse] at hco
  refine ⟨_, hco, rfl, hpi, ?_, .inr ⟨_, headEnd, tailStart, rfl, hpin, ?_, ?_, hw, hlt, hen, rfl⟩⟩
  · rw [length_append, length_drop]
    omega
  · cases aligned <;> rfl
  · dsimp only
    cases aligned <;> decide

/-- An `append` never panics and keeps the invariant. -/
theorem Kept.append {all : List Byte} {s : CapturedStream} (hk : Kept all s) {chunk : List Byte}
    (hch : IsText chunk) (rawLen : ℕ) :
    ∃ s', s.append chunk rawLen = some s' ∧
      s'.totalBytes = saturatingAdd s.totalBytes rawLen ∧ Kept (all ++ chunk) s' := by
  have htext : IsText (s.text ++ chunk) := hk.isText.append hch
  rw [CapturedStream.append]
  split_ifs with hf
  · refine ⟨_, rfl, rfl, htext, hf, ?_⟩
    rcases hk.shape with hu | ⟨head, h, d, he⟩
    · exact .inl ⟨congrArg (· ++ chunk) hu.text, hu.dropped, hu.separators⟩
    · exact .inr ⟨head, h, d, he.append chunk _⟩
  · rcases hk.shape with hu | ⟨head, h, d, he⟩
    · exact Untouched.compact ⟨congrArg (· ++ chunk) hu.text, hu.dropped, hu.separators⟩ htext
        (Nat.lt_of_not_le hf)
    · exact (he.append chunk _).compact htext (Nat.lt_of_not_le hf)

/-! ## The transcript -/

/-- A stream as a transcript of everything that was appended to it. -/
structure Transcript (all : List Byte) (s : CapturedStream) : Prop where
  isText : IsText s.text
  length_le : s.text.length ≤ captureMaxRetainedBytes
  head : all.take (boundaryAtOrAfter all captureHeadBytes) <+: s.text
  /-- The end is the end of what was appended; only what lies between `h` and `d` is missing. -/
  tail : ∃ h d, h ≤ d ∧ d ≤ all.length ∧ (all ≠ [] → d < all.length) ∧
    s.text = all.take h ++ List.replicate s.separatorBytes newline ++ all.drop d ∧
    s.droppedBytes = min (d - h) usizeMax
  separators : s.separatorBytes ≤ 1
  lines : ∀ line ∈ s.text.splitOn newline, ∃ whole ∈ all.splitOn newline, line <:+: whole

theorem Elided.transcript {all : List Byte} {s : CapturedStream} (he : Elided all s head h d)
    (htext : IsText s.text) (hl : s.text.length ≤ captureMaxRetainedBytes) :
    Transcript all s where
  isText := htext
  length_le := hl
  head := by
    rw [he.text, he.head_eq, append_assoc]
    exact (take_prefix_take_left he.window).trans (prefix_append _ _)
  tail := ⟨h, d, he.h_lt.le, he.d_lt.le, fun _ => he.d_lt, by rw [he.text, he.head_eq], he.dropped⟩
  separators := he.separators
  lines := by
    obtain ⟨line, n, hli, -⟩ := he.pinned
    have hin : line <:+: all := by
      refine List.IsInfix.trans (List.IsPrefix.isInfix ?_) (List.take_prefix h all).isInfix
      have hs := he.head_eq
      rw [hli] at hs
      rcases Nat.le_one_iff_eq_zero_or_eq_one.mp he.separators with hz | ho
      · rw [hz, replicate_zero, append_nil] at hs
        exact hs ▸ prefix_append _ _
      · rw [ho, replicate_one] at hs
        rw [(append_inj' hs rfl).1]
    rw [he.text, hli, append_assoc, singleton_append]
    exact pieces_join hin (drop_suffix d all).isInfix

theorem Kept.transcript {all : List Byte} {s : CapturedStream} (hk : Kept all s) :
    Transcript all s := by
  rcases hk.shape with hu | ⟨head, h, d, he⟩
  · refine ⟨hk.isText, hk.length_le, hu.text ▸ take_prefix _ _, ⟨0, 0, le_rfl,
      Nat.zero_le _, length_pos_iff.mpr, ?_, ?_⟩, ?_, ?_⟩
    · rw [hu.separators, hu.text]
      rfl
    · rw [hu.dropped]
      rfl
    · rw [hu.separators]
      exact Nat.zero_le _
    · rw [hu.text]
      exact fun line hli => ⟨line, hli, infix_refl _⟩
  · exact he.transcript hk.isText hk.length_le

/-- The counters of a stream account for its length. -/
def CapturedStream.Accounts (s : CapturedStream) : Prop :=
  s.droppedBytes ≤ s.totalBytes ∧
    s.totalBytes - s.droppedBytes + s.separatorBytes = s.text.length

/-- They do exactly as long as the total was counted right. -/
theorem Transcript.accounts_iff {all : List Byte} {s : CapturedStream} (ht : Transcript all s)
    {total : ℕ} (hto : s.totalBytes = min total usizeMax) (hle : total ≤ all.length) :
    s.Accounts ↔ total = all.length ∧ total ≤ usizeMax := by
  obtain ⟨h, d, hhd, hd, hen, htext, hdr⟩ := ht.tail
  have hl := congrArg List.length htext
  rw [length_append, length_append, length_take_of_le (hhd.trans hd),
    length_replicate, length_drop] at hl
  have hlt : all.length = 0 ∨ d < all.length := by
    cases all with
    | nil => exact .inl rfl
    | cons b rest => exact .inr (hen (cons_ne_nil _ _))
  unfold CapturedStream.Accounts
  omega

/-- The text of a sequence of chunks, each with the number of raw bytes it was decoded from. -/
def written (chunks : List (String × ℕ)) : List Byte := chunks.flatMap (utf8 ·.1)

def rawTotal (chunks : List (String × ℕ)) : ℕ := chunks.foldr (·.2 + ·) 0

def CapturedStream.appendAll (s : CapturedStream) (chunks : List (String × ℕ)) :
    Option CapturedStream :=
  chunks.foldlM (fun s chunk => s.append (utf8 chunk.1) chunk.2) s

theorem written_cons (chunk : String × ℕ) (chunks : List (String × ℕ)) :
    written (chunk :: chunks) = utf8 chunk.1 ++ written chunks := rfl

theorem rawTotal_cons (chunk : String × ℕ) (chunks : List (String × ℕ)) :
    rawTotal (chunk :: chunks) = chunk.2 + rawTotal chunks := rfl

theorem appendAll_kept (chunks : List (String × ℕ)) :
    ∀ {all s}, Kept all s → ∃ s', s.appendAll chunks = some s' ∧ Kept (all ++ written chunks) s' ∧
      (s.totalBytes ≤ usizeMax →
        s'.totalBytes = min (s.totalBytes + rawTotal chunks) usizeMax) := by
  induction chunks with
  | nil =>
    intro all s hk
    refine ⟨s, rfl, ?_, fun hle => ?_⟩
    · rwa [written, flatMap_nil, append_nil]
    · rw [rawTotal, foldr_nil, Nat.add_zero, Nat.min_eq_left hle]
  | cons chunk chunks ih =>
    intro all s hk
    obtain ⟨s₁, hap, hto, hk₁⟩ := hk.append (isText_utf8 chunk.1) chunk.2
    obtain ⟨s₂, hr, hk₂, hsum⟩ := ih hk₁
    refine ⟨s₂, ?_, ?_, fun hle => ?_⟩
    · rw [CapturedStream.appendAll, foldlM_cons, hap]
      exact hr
    · rwa [written_cons, ← append_assoc]
    · rw [hsum (by rw [hto]; exact Nat.min_le_right _ _), hto, saturatingAdd, rawTotal_cons]
      omega

theorem kept_empty : Kept [] {} := ⟨isText_nil, Nat.zero_le _, .inl ⟨rfl, rfl, rfl⟩⟩

theorem rawTotal_eq (h : ∀ chunk ∈ chunks, chunk.2 = (utf8 chunk.1).length) :
    rawTotal chunks = (written chunks).length := by
  induction chunks with
  | nil => rfl
  | cons chunk chunks ih =>
    obtain ⟨hch, hr⟩ := forall_mem_cons.mp h
    rw [rawTotal_cons, ih hr, hch, written_cons, length_append]

theorem accounts_written {s : CapturedStream} (hr : CapturedStream.appendAll {} chunks = some s)
    (hra : ∀ chunk ∈ chunks, chunk.2 = (utf8 chunk.1).length) :
    s.Accounts ↔ (written chunks).length ≤ usizeMax := by
  obtain ⟨s', hr', hk, hto⟩ := appendAll_kept chunks kept_empty
  obtain rfl := Option.some.inj (hr'.symm.trans hr)
  have hsum := hto (Nat.zero_le _)
  rw [rawTotal_eq hra, Nat.zero_add] at hsum
  exact (hk.transcript.accounts_iff hsum le_rfl).trans (and_iff_right rfl)

/-- Whatever is appended, no `append` panics and the stream is a transcript of it; its head is
never changed again, and its counters account for its length while their total does not saturate. -/
theorem append_transcript (chunks : List (String × ℕ)) :
    ∃ s, CapturedStream.appendAll {} chunks = some s ∧ Transcript (written chunks) s ∧
      (∀ early late, chunks = early ++ late →
        (written early).take (boundaryAtOrAfter (written early) captureHeadBytes) <+: s.text) ∧
      ((∀ chunk ∈ chunks, chunk.2 = (utf8 chunk.1).length) →
        (written chunks).length ≤ usizeMax → s.Accounts) := by
  obtain ⟨s, hr, hk, -⟩ := appendAll_kept chunks kept_empty
  refine ⟨s, hr, hk.transcript, ?_, fun hra => (accounts_written hr hra).mpr⟩
  rintro early late rfl
  have hh := hk.transcript.head
  rw [nil_append, written, flatMap_append, ← written, ← written] at hh
  exact ( take_boundary_prefix _ _ _).trans hh

theorem replicate_saturates {text : String} {n len : ℕ} (hl : (utf8 text).length = len)
    (hma : usizeMax < n * len) :
    ∃ s, CapturedStream.appendAll {} (List.replicate n (text, len)) = some s ∧ ¬ s.Accounts := by
  obtain ⟨s, hr, -⟩ := appendAll_kept (List.replicate n (text, len)) kept_empty
  refine ⟨s, hr, fun hac => ?_⟩
  have hb := (accounts_written hr fun chunk hm => by
    rw [eq_of_mem_replicate hm]
    exact hl.symm).mp hac
  rw [written, length_flatMap, map_replicate, sum_replicate_nat, hl] at hb
  exact absurd hma (Nat.not_lt.mpr hb)

theorem length_utf8_replicate (n : ℕ) :
    (utf8 (String.ofList (List.replicate n 'x'))).length = n := by
  rw [utf8_eq_flatMap, String.toList_ofList, length_flatMap, map_replicate, sum_replicate_nat]
  exact Nat.mul_one n

/-- With 2^64 bytes in chunks of four KiB the total saturates and accounts for one byte less. -/
theorem append_saturates :
    ∃ s, CapturedStream.appendAll {}
      (List.replicate 4503599627370496 (String.ofList (List.replicate 4096 'x'), 4096)) = some s ∧
      ¬ s.Accounts :=
  replicate_saturates (length_utf8_replicate 4096) (by decide)

end Keld.Runtime
