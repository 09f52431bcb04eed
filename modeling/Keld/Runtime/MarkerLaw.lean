/-
# `Keld.Runtime.MarkerLaw` — when a marker is first seen

Between two reads a marker that was not seen yet remembers the longest of its
prefixes that the current generation's output ends with.  One byte keeps that, by
the table of the prefixes that end each other (`advance_spec`), and the table is
built with the same step.  So the first end that is recorded is the least, and does
not depend on where the output was split into reads.
-/
import Keld.Lib.Border
import Keld.Runtime.CaptureLaw
import Mathlib.Data.List.Forall2

namespace Keld.Runtime

open List

/-! ## The prefix table -/

/-- The entries below `n` are those of the pattern. -/
def TableTo (p : List Byte) (n : ℕ) (prefixes : List ℕ) : Prop :=
  ∀ i < n, ∃ e, prefixes[i]? = some e ∧ Longest p (p.take (i + 1)).tail e

variable {p t : List Byte} {prefixes : List ℕ}

variable {n offset recorded : ℕ} {generations past : List (List Byte)} {current : List Byte}
  {marker : StdoutMarker} {α β γ : Type} {R : γ → α → Prop} {S : γ → β → Prop} {labels : List γ}
  {items : List α} {markers : List String}

theorem TableTo.mono {m : ℕ} (h : TableTo p n prefixes) (hle : m ≤ n) : TableTo p m prefixes :=
  fun i hi => h i (hi.trans_le hle)

/-- Falling back ends at the longest prefix that fits and that the byte continues, or at none. -/
theorem fallBack_spec (byte : Byte) (turns : ℕ) :
    ∀ {m}, m < turns → m < p.length → TableTo p m prefixes → Fits p t m →
      ∃ r ≤ m, fallBack p prefixes byte turns m = some r ∧ Fits p t r ∧
        (r = 0 ∨ p[r]? = some byte) ∧ ∀ k ≤ m, Fits p t k → p[k]? = some byte → k ≤ r := by
  induction turns with
  | zero => exact fun htu => absurd htu (Nat.not_lt_zero _)
  | succ turns ih =>
    intro m htu hm ht hf
    cases m with
    | zero => exact ⟨0, le_rfl, rfl, hf, .inl rfl, fun k hk _ _ => hk⟩
    | succ m =>
      rw [fallBack, getElem?_eq_getElem hm]
      dsimp only [Option.bind_eq_bind, Option.bind_some]
      split_ifs with hby
      · refine ⟨m + 1, le_rfl, rfl, hf, .inr ?_, fun k hk _ _ => hk⟩
        rw [getElem?_eq_getElem hm, hby]
      · obtain ⟨e, he, hl⟩ := ht m (Nat.lt_succ_self m)
        have hem : e ≤ m := by
          have hle := hl.fits.le_length
          rwa [length_tail, length_take_of_le hf.1, Nat.add_sub_cancel] at hle
        have hin : Fits p t e := hl.fits.of_tail.trans hf
        obtain ⟨r, hr, hru, hfitsR, hn, hmax⟩ := ih (m := e) (by omega) (by omega)
          (ht.mono (by omega)) hin
        rw [he]
        refine ⟨r, by omega, hru, hfitsR, hn, ?_⟩
        intro k hk hfitsK hkb
        rcases Nat.eq_or_lt_of_le hk with rfl | hlt
        · rw [getElem?_eq_getElem hm] at hkb
          exact absurd (Option.some.inj hkb).symm hby
        · exact hmax k (hl.max k (hfitsK.inside hf hlt)) hfitsK hkb

theorem advance_spec {m : ℕ} (hm : m < p.length) (ht : TableTo p m prefixes)
    (hl : Longest p t m) (byte : Byte) :
    ∃ r, advance p prefixes m byte = some r ∧ Longest p (t ++ [byte]) r := by
  obtain ⟨r, hr, hru, hf, hn, hmax⟩ := fallBack_spec byte (m + 1) (Nat.lt_succ_self m) hm ht hl.fits
  have hlt : r < p.length := by omega
  rw [advance, hru]
  dsimp only [Option.bind_eq_bind, Option.bind_some]
  rw [getElem?_eq_getElem hlt] at hn ⊢
  dsimp only [Option.bind_some]
  split_ifs with hby
  · refine ⟨r + 1, rfl, longest_snoc hf ?_ fun k hk => hmax k (hl.max k hk) hk⟩
    rw [getElem?_eq_getElem hlt, hby]
  · obtain rfl : r = 0 := hn.resolve_right fun h => hby (Option.some.inj h).symm
    refine ⟨0, rfl, longest_snoc_none fun k hk hkb => ?_⟩
    obtain rfl := Nat.le_zero.mp (hmax k (hl.max k hk) hk hkb)
    rw [getElem?_eq_getElem hlt] at hkb
    exact hby (Option.some.inj hkb).symm

theorem prefixTableFrom_spec (turns : ℕ) :
    ∀ {index matched prefixes}, index + turns = p.length → 0 < index →
      Longest p (p.take index).tail matched → TableTo p index prefixes →
      prefixes.length = p.length →
      ∃ out, prefixTableFrom p turns index matched prefixes = some out ∧ TableTo p p.length out := by
  induction turns with
  | zero =>
    intro index matched prefixes hend _ _ ht _
    rw [Nat.add_zero] at hend
    exact ⟨prefixes, rfl, hend ▸ ht⟩
  | succ turns ih =>
    intro index matched prefixes hend hpos hl ht hlen
    have hin : index < p.length := by omega
    have hma : matched < index := by
      have hle := hl.fits.le_length
      rw [length_tail, length_take_of_le hin.le] at hle
      omega
    obtain ⟨r, hr, hn⟩ := advance_spec (hma.trans hin) (ht.mono hma.le) hl p[index]
    have hta : (p.take index).tail ++ [p[index]] = (p.take (index + 1)).tail := by
      have hne : p.take index ≠ [] := ne_nil_of_length_pos (by
        rwa [length_take_of_le hin.le])
      rw [take_succ_eq_append_getElem hin, tail_append_of_ne_nil hne]
    rw [hta] at hn
    rw [prefixTableFrom, getElem?_eq_getElem hin]
    dsimp only [Option.bind_eq_bind, Option.bind_some]
    rw [hr]
    refine ih (by omega) (Nat.succ_pos _) hn ?_ (by rwa [length_set])
    intro i hi
    rcases Nat.lt_succ_iff_lt_or_eq.mp hi with hlt | rfl
    · obtain ⟨e, he, hen⟩ := ht i hlt
      exact ⟨e, by rwa [getElem?_set_ne hlt.ne'], hen⟩
    · exact ⟨r, by rw [getElem?_set_self (by omega)], hn⟩

theorem prefixTable_spec (hp : p ≠ []) :
    ∃ prefixes, prefixTable p = some prefixes ∧ TableTo p p.length prefixes := by
  have hpos : 0 < p.length := length_pos_iff.mpr hp
  have he : (p.take 1).tail = [] := by
    cases p with
    | nil | cons => rfl
  refine prefixTableFrom_spec _ (by omega) Nat.one_pos (he ▸ longest_nil p) ?_ length_replicate
  intro i hi
  obtain rfl := Nat.lt_one_iff.mp hi
  exact ⟨0, getElem?_replicate_of_lt hpos, he ▸ longest_nil p⟩

/-! ## Occurrences -/

/-- The marker ends at this offset of the output of all generations, inside one of them. -/
def MatchEnd (p : List Byte) (generations : List (List Byte)) (offset : ℕ) : Prop :=
  ∃ before generation after n, generations = before ++ generation :: after ∧
    n ≤ generation.length ∧ p <:+ generation.take n ∧ offset = before.flatten.length + n

/-- The first end of a marker, as a counter that saturates has it. -/
def FirstEnd (p : List Byte) (generations : List (List Byte)) : Option ℕ → Prop
  | none => ∀ offset, ¬ MatchEnd p generations offset
  | some recorded => ∃ offset, MatchEnd p generations offset ∧
      (∀ other, MatchEnd p generations other → offset ≤ other) ∧ recorded = min offset usizeMax

theorem FirstEnd.unique {one other : Option ℕ} (h : FirstEnd p generations one)
    (h' : FirstEnd p generations other) : one = other := by
  cases one with
  | none =>
    cases other with
    | none => rfl
    | some recorded =>
      obtain ⟨offset, hm, -⟩ := h'
      exact absurd hm (h offset)
  | some recorded =>
    obtain ⟨offset, hm, hle, rfl⟩ := h
    cases other with
    | none => exact absurd hm (h' offset)
    | some recorded =>
      obtain ⟨offset', hm', hle', rfl⟩ := h'
      rw [Nat.le_antisymm (hle offset' hm') (hle' offset hm)]

theorem matchEnd_snoc :
    MatchEnd p (past ++ [current]) offset ↔ MatchEnd p past offset ∨
      ∃ n ≤ current.length, p <:+ current.take n ∧ offset = past.flatten.length + n := by
  constructor
  · rintro ⟨before, generation, after, n, hs, hn, hsuf, rfl⟩
    rcases eq_nil_or_concat after with rfl | ⟨after, last, rfl⟩
    · obtain ⟨rfl, hl⟩ := append_inj' hs rfl
      obtain rfl := singleton_inj.mp hl
      exact .inr ⟨n, hn, hsuf, rfl⟩
    · rw [concat_eq_append, ← cons_append, ← append_assoc] at hs
      obtain ⟨rfl, -⟩ := append_inj' hs rfl
      exact .inl ⟨before, generation, after, n, rfl, hn, hsuf, rfl⟩
  · rintro (⟨before, generation, after, n, rfl, hn, hsuf, rfl⟩ | ⟨n, hn, hsuf, rfl⟩)
    · exact ⟨before, generation, after ++ [current], n, append_assoc .., hn, hsuf, rfl⟩
    · exact ⟨past, current, [], n, rfl, hn, hsuf, rfl⟩

theorem MatchEnd.le (h : MatchEnd p generations offset) : offset ≤ generations.flatten.length := by
  obtain ⟨before, generation, after, n, rfl, hn, -, rfl⟩ := h
  rw [flatten_append, flatten_cons, length_append, length_append]
  omega

/-- A generation that begins has no occurrence yet. -/
theorem firstEnd_begin (hp : p ≠ []) {recorded : Option ℕ} (h : FirstEnd p generations recorded) :
    FirstEnd p (generations ++ [[]]) recorded := by
  have hs : ∀ offset, MatchEnd p (generations ++ [[]]) offset ↔ MatchEnd p generations offset := by
    intro offset
    rw [matchEnd_snoc]
    refine or_iff_left ?_
    rintro ⟨n, -, hsuf, -⟩
    rw [take_nil] at hsuf
    exact hp (suffix_nil.mp hsuf)
  cases recorded with
  | none => exact fun offset hm => h offset ((hs offset).mp hm)
  | some recorded =>
    obtain ⟨offset, hm, hle, hre⟩ := h
    exact ⟨offset, (hs offset).mpr hm, fun other ho =>
      hle other ((hs other).mp ho), hre⟩

/-- The occurrences after a read are those before it and those that end in it. -/
theorem matchEnd_read {bytes : List Byte} :
    MatchEnd p (past ++ [current ++ bytes]) offset ↔ MatchEnd p (past ++ [current]) offset ∨
      ∃ n < bytes.length, p <:+ current ++ bytes.take (n + 1) ∧
        offset = past.flatten.length + current.length + (n + 1) := by
  rw [matchEnd_snoc, matchEnd_snoc, or_assoc]
  refine or_congr_right ?_
  constructor
  · rintro ⟨n, hn, hsuf, rfl⟩
    rw [length_append] at hn
    rcases Nat.lt_or_ge current.length n with hlt | hle
    · refine .inr ⟨n - current.length - 1, by omega, ?_, by omega⟩
      rw [take_append, take_of_length_le hlt.le] at hsuf
      rwa [Nat.sub_add_cancel (by omega)]
    · rw [take_append_of_le_length hle] at hsuf
      exact .inl ⟨n, hle, hsuf, rfl⟩
  · rintro (⟨n, hn, hsuf, rfl⟩ | ⟨n, hn, hsuf, rfl⟩)
    · refine ⟨n, by rw [length_append]; omega, ?_, rfl⟩
      rwa [take_append_of_le_length hn]
    · refine ⟨current.length + (n + 1), by rw [length_append]; omega, ?_, by omega⟩
      rwa [take_length_add_append]

/-! ## One marker -/

/-- A marker after the output of these generations, the last of them `current`. -/
structure Tracks (p : List Byte) (past : List (List Byte)) (current : List Byte)
    (marker : StdoutMarker) : Prop where
  nonempty : p ≠ []
  bytes : marker.bytes = p
  table : TableTo p p.length marker.prefixes
  longest : marker.firstEnd = none → Longest p current marker.matched ∧ marker.matched < p.length
  first : FirstEnd p (past ++ [current]) marker.firstEnd

/-- A scan goes to the first byte of the read that ends an occurrence. -/
theorem scan_spec (total : ℕ) (bytes : List Byte) :
    ∀ (index : ℕ) {current : List Byte} (marker : StdoutMarker), marker.bytes = p →
      TableTo p p.length marker.prefixes → marker.firstEnd = none →
      Longest p current marker.matched → marker.matched < p.length →
      ∃ marker', marker.scan total index bytes = some marker' ∧ marker'.bytes = p ∧
        marker'.prefixes = marker.prefixes ∧
        ((marker'.firstEnd = none ∧ Longest p (current ++ bytes) marker'.matched ∧
            marker'.matched < p.length ∧
            ∀ n < bytes.length, ¬ p <:+ current ++ bytes.take (n + 1)) ∨
          ∃ n < bytes.length, p <:+ current ++ bytes.take (n + 1) ∧
            (∀ k < n, ¬ p <:+ current ++ bytes.take (k + 1)) ∧
            marker'.firstEnd = some (saturatingAdd (saturatingAdd total (index + n)) 1)) := by
  induction bytes with
  | nil =>
    intro index current marker hby _ hno hlo hlt
    refine ⟨marker, rfl, hby, rfl, .inl ⟨hno, ?_, hlt, fun n hn => absurd hn (Nat.not_lt_zero n)⟩⟩
    rwa [append_nil]
  | cons byte rest ih =>
    intro index current marker hby ht hno hlo hlt
    obtain ⟨r, hr, hne⟩ := advance_spec hlt (ht.mono hlt.le) hlo byte
    have hs : current ++ (byte :: rest).take 1 = current ++ [byte] := rfl
    rw [StdoutMarker.scan, hby, hr]
    dsimp only [Option.bind_eq_bind, Option.bind_some]
    split_ifs with he
    · refine ⟨_, rfl, rfl, rfl, .inr ⟨0, Nat.succ_pos _, ?_, fun k hk => absurd hk (Nat.not_lt_zero k),
        rfl⟩⟩
      rw [Nat.zero_add, hs]
      exact fits_length.mp (he ▸ hne.fits)
    · have hsh : r < p.length := Nat.lt_of_le_of_ne hne.fits.1 he
      have hhe : ¬ p <:+ current ++ (byte :: rest).take 1 := fun h =>
        absurd (hne.max _ (fits_length.mpr h)) (Nat.not_le.mpr hsh)
      have hl : ∀ k, current ++ (byte :: rest).take (k + 1 + 1) =
          current ++ [byte] ++ rest.take (k + 1) := fun k => by
        rw [take_succ_cons, append_assoc, singleton_append]
      obtain ⟨marker', hsc, hby', hpr, hca⟩ :=
        ih (index + 1) { marker with bytes := p, matched := r } rfl ht hno hne hsh
      refine ⟨marker', by subst hby; exact hsc, hby', hpr, ?_⟩
      rcases hca with ⟨hno', hlo', hlt', hfr⟩ | ⟨n, hn, hsuf, hle, hf⟩
      · refine .inl ⟨hno', ?_, hlt', fun n hn => ?_⟩
        · rwa [append_assoc, singleton_append] at hlo'
        · cases n with
          | zero => exact hhe
          | succ n => exact hl n ▸ hfr n (Nat.lt_of_succ_lt_succ hn)
      · refine .inr ⟨n + 1, Nat.succ_lt_succ hn, hl n ▸ hsuf, fun k hk => ?_, ?_⟩
        · cases k with
          | zero => exact hhe
          | succ k => exact hl k ▸ hle k (Nat.lt_of_succ_lt_succ hk)
        · rw [hf, Nat.add_assoc, Nat.add_comm 1 n]

/-- An end that was recorded stays the first one. -/
theorem firstEnd_read (h : FirstEnd p (past ++ [current]) (some recorded)) (bytes : List Byte) :
    FirstEnd p (past ++ [current ++ bytes]) (some recorded) := by
  obtain ⟨offset, hm, hls, hre⟩ := h
  refine ⟨offset, matchEnd_read.mpr (.inl hm), fun other ho => ?_, hre⟩
  rcases matchEnd_read.mp ho with hol | ⟨n, -, -, rfl⟩
  · exact hls other hol
  · have hle := hm.le
    rw [flatten_append, flatten_singleton, length_append] at hle
    omega

theorem Tracks.read (h : Tracks p past current marker) {total : ℕ}
    (hto : total = min (past.flatten.length + current.length) usizeMax) (bytes : List Byte) :
    ∃ marker', (if marker.firstEnd.isSome then some marker else marker.scan total 0 bytes) =
      some marker' ∧ Tracks p past (current ++ bytes) marker' := by
  cases hf : marker.firstEnd with
  | some recorded =>
    have hse := h.first
    rw [hf] at hse
    refine ⟨marker, rfl, h.nonempty, h.bytes, h.table, fun hno => ?_, hf ▸ firstEnd_read hse bytes⟩
    rw [hf] at hno
    cases hno
  | none =>
    obtain ⟨hl, hlt⟩ := h.longest hf
    have hun := h.first
    rw [hf] at hun
    obtain ⟨marker', hsc, hby, hpr, hca⟩ := scan_spec total bytes 0 marker h.bytes h.table hf hl hlt
    refine ⟨marker', hsc, h.nonempty, hby, hpr ▸ h.table, fun hno => ?_, ?_⟩
    · rcases hca with ⟨-, hl', hlt', -⟩ | ⟨n, -, -, -, he⟩
      · exact ⟨hl', hlt'⟩
      · rw [he] at hno
        cases hno
    · rcases hca with ⟨hno, -, -, hfr⟩ | ⟨n, hn, hsuf, hle, he⟩
      · rw [hno]
        intro offset hm
        rcases matchEnd_read.mp hm with ho | ⟨n, hn, hsuf, -⟩
        · exact hun offset ho
        · exact hfr n hn hsuf
      · rw [he]
        refine ⟨_, matchEnd_read.mpr (.inr ⟨n, hn, hsuf, rfl⟩), fun other hot => ?_, ?_⟩
        · rcases matchEnd_read.mp hot with ho | ⟨k, -, hsuf', rfl⟩
          · exact absurd ho (hun other)
          · have hk : n ≤ k := Nat.le_of_not_lt fun hlt => hle k hlt hsuf'
            omega
        · rw [saturatingAdd, saturatingAdd, hto]
          omega

theorem Tracks.begin (h : Tracks p past current marker) :
    Tracks p (past ++ [current]) [] { marker with matched := 0 } := { h with
  longest _ := ⟨longest_nil p, length_pos_iff.mpr h.nonempty⟩
  first := firstEnd_begin h.nonempty h.first }

/-! ## The capture state -/

/-- The generations' output: those that are over, and the current one. -/
def generationStep (g : List (List Byte) × List Byte) : CaptureEvent → List (List Byte) × List Byte
  | .read bytes true => (g.1, g.2 ++ bytes)
  | .read _ false => g
  | .generation => (g.1 ++ [g.2], [])

def stdoutGenerations (events : List CaptureEvent) : List (List Byte) × List Byte :=
  events.foldl generationStep ([], [])

def generationsOf (events : List CaptureEvent) : List (List Byte) :=
  (stdoutGenerations events).1 ++ [(stdoutGenerations events).2]

/-- The decoded text of one stream. -/
def decodedOf (isStdout : Bool) (events : List CaptureEvent) : List Byte :=
  events.flatMap fun
    | .read bytes stdout => if stdout = isStdout then fromUtf8Lossy bytes else []
    | .generation => []

def CapturedOutput.stream (output : CapturedOutput) (isStdout : Bool) : CapturedStream :=
  if isStdout then output.stdout else output.stderr

theorem stdoutGenerations_snoc (events : List CaptureEvent) (event : CaptureEvent) :
    stdoutGenerations (events ++ [event]) = generationStep (stdoutGenerations events) event := by
  rw [stdoutGenerations, foldl_append]
  rfl

theorem length_generations (events : List CaptureEvent) :
    (stdoutGenerations events).1.flatten.length + (stdoutGenerations events).2.length =
      (outputOf true events).length := by
  induction events using reverseRecOn with
  | nil => rfl
  | append_singleton events event ih =>
    rw [stdoutGenerations_snoc, outputOf, flatMap_append, ← outputOf, length_append, ← ih,
      flatMap_singleton]
    cases event with
    | read bytes isStdout =>
      cases isStdout with
      | false => rfl
      | true =>
        dsimp only [generationStep]
        rw [if_pos rfl, length_append, Nat.add_assoc]
    | generation =>
      dsimp only [generationStep]
      rw [flatten_append, flatten_singleton, length_append]

/-- The state after these events. -/
structure Captured (markers : List String) (events : List CaptureEvent) (s : CaptureState) :
    Prop where
  kept : ∀ isStdout, Kept (decodedOf isStdout events) (s.transcript.stream isStdout)
  total : ∀ isStdout, (s.transcript.stream isStdout).totalBytes =
    min (outputOf isStdout events).length usizeMax
  markers : List.Forall₂ (fun text marker => Tracks (utf8 text) (stdoutGenerations events).1
    (stdoutGenerations events).2 marker) markers s.markers

theorem mapM_forall₂ {f : α → Option β} (h : List.Forall₂ R labels items)
    (hf : ∀ label item, R label item → ∃ out, f item = some out ∧ S label out) :
    ∃ outs, items.mapM f = some outs ∧ List.Forall₂ S labels outs := by
  induction h with
  | nil => exact ⟨[], rfl, .nil⟩
  | cons hi _ ih =>
    obtain ⟨out, ho, hS⟩ := hf _ _ hi
    obtain ⟨outs, hou, hr⟩ := ih
    exact ⟨out :: outs, by rw [mapM_cons, ho, hou]; rfl, .cons hS hr⟩

theorem forall₂_compare {T : α → β → Prop} {outs : List β} (hit : List.Forall₂ R labels items)
    (hou : List.Forall₂ S labels outs)
    (h : ∀ label item out, R label item → S label out → T item out) :
    List.Forall₂ T items outs := by
  induction hit generalizing outs with
  | nil =>
    cases hou
    exact .nil
  | cons hi _ ih =>
    cases hou with
    | cons ho hr => exact .cons (h _ _ _ hi ho) (ih hr)

/-- A chunk goes to one stream and leaves the other. -/
theorem pushChunk_spec {output : CapturedOutput} {isStdout : Bool} {s : CapturedStream}
    {chunk : List Byte} {rawLen : ℕ} (h : (output.stream isStdout).append chunk rawLen = some s) :
    ∃ output', output.pushChunk chunk rawLen isStdout = some output' ∧
      ∀ side, output'.stream side = if isStdout = side then s else output.stream side := by
  cases isStdout with
  | false =>
    have hap : output.stderr.append chunk rawLen = some s := h
    refine ⟨{ output with stderr := s }, ?_, fun side => by cases side <;> rfl⟩
    rw [CapturedOutput.pushChunk, if_neg Bool.false_ne_true, hap]
    rfl
  | true =>
    have hap : output.stdout.append chunk rawLen = some s := h
    refine ⟨{ output with stdout := s }, ?_, fun side => by cases side <;> rfl⟩
    rw [CapturedOutput.pushChunk, if_pos rfl, hap]
    rfl

theorem decodedOf_read (side isStdout : Bool) (events : List CaptureEvent) (bytes : List Byte) :
    decodedOf side (events ++ [.read bytes isStdout]) =
      decodedOf side events ++ if isStdout = side then fromUtf8Lossy bytes else [] := by
  rw [decodedOf, flatMap_append, flatMap_singleton, ← decodedOf]

theorem outputOf_read (side isStdout : Bool) (events : List CaptureEvent) (bytes : List Byte) :
    outputOf side (events ++ [.read bytes isStdout]) =
      outputOf side events ++ if isStdout = side then bytes else [] := by
  rw [outputOf, flatMap_append, flatMap_singleton, ← outputOf]

section

variable {events : List CaptureEvent} {s : CaptureState} (h : Captured markers events s)
include h

theorem Captured.begin : Captured markers (events ++ [.generation]) s.beginGeneration := by
  refine ⟨fun side => ?_, fun side => ?_, ?_⟩
  · rw [decodedOf, flatMap_append, flatMap_singleton, append_nil, ← decodedOf]
    exact h.kept side
  · rw [outputOf, flatMap_append, flatMap_singleton, append_nil, ← outputOf]
    exact h.total side
  · rw [stdoutGenerations_snoc]
    exact forall₂_map_right_iff.mpr (h.markers.imp fun _ _ => Tracks.begin)

/-- The markers' part of a read. -/
theorem Captured.scan (bytes : List Byte) (isStdout : Bool) :
    ∃ scanned, s.scanMarkers bytes isStdout = some scanned ∧
      List.Forall₂ (fun text marker => Tracks (utf8 text)
        (stdoutGenerations (events ++ [.read bytes isStdout])).1
        (stdoutGenerations (events ++ [.read bytes isStdout])).2 marker) markers scanned := by
  rw [stdoutGenerations_snoc]
  cases isStdout with
  | false => exact ⟨s.markers, rfl, h.markers⟩
  | true =>
    have hto := h.total true
    rw [← length_generations] at hto
    exact mapM_forall₂ h.markers fun text marker htrk => htrk.read hto bytes

/-- No event panics, and each keeps the invariant. -/
theorem Captured.handle (event : CaptureEvent) :
    ∃ s', s.handle event = some s' ∧ Captured markers (events ++ [event]) s' := by
  cases event with
  | generation => exact ⟨_, rfl, h.begin⟩
  | read bytes isStdout =>
    obtain ⟨scanned, hsc, hma⟩ := h.scan bytes isStdout
    obtain ⟨stream, hap, hto, hk⟩ :=
      (h.kept isStdout).append (isText_fromUtf8Lossy bytes) bytes.length
    obtain ⟨output, hpu, hst⟩ := pushChunk_spec hap
    refine ⟨⟨output, scanned⟩, ?_, fun side => ?_, fun side => ?_, hma⟩
    · rw [CaptureState.handle, CaptureState.pushRaw, hsc, Option.bind_eq_bind, Option.bind_some,
        hpu]
      rfl
    · rw [decodedOf_read, hst]
      split_ifs with hsi
      · exact hsi ▸ hk
      · rw [append_nil]
        exact h.kept side
    · rw [outputOf_read, hst]
      split_ifs with hsi
      · rw [hto, h.total, saturatingAdd, hsi, length_append]
        omega
      · rw [append_nil]
        exact h.total side

end

theorem Captured.handleAll (more : List CaptureEvent) :
    ∀ {events s}, Captured markers events s →
      ∃ s', s.handleAll more = some s' ∧ Captured markers (events ++ more) s' := by
  induction more with
  | nil =>
    intro events s h
    exact ⟨s, rfl, by rwa [append_nil]⟩
  | cons event more ih =>
    intro events s h
    obtain ⟨s₁, hs, h₁⟩ := h.handle event
    obtain ⟨s₂, hr, h₂⟩ := ih h₁
    refine ⟨s₂, ?_, by rwa [append_assoc, singleton_append] at h₂⟩
    rw [CaptureState.handleAll, foldlM_cons, hs]
    exact hr

/-! ## The registration -/

/-- Markers that are not refused are registered, and none was seen yet. -/
theorem new_spec (h : markersRefused markers = false) :
    ∃ s, CaptureState.new markers = some (.ok s) ∧ Captured markers [] s := by
  have htb : ∀ text ∈ markers, ∃ prefixes, prefixTable (utf8 text) = some prefixes ∧
      TableTo (utf8 text) (utf8 text).length prefixes ∧ utf8 text ≠ [] := by
    intro text ht
    obtain ⟨index, hin, rfl⟩ := getElem_of_mem ht
    have hpa : (markers[index], index) ∈ markers.zipIdx :=
      mem_zipIdx_iff_getElem?.mpr (getElem?_eq_getElem hin)
    rw [markersRefused, Bool.or_eq_false_iff, Bool.or_eq_false_iff, any_eq_false] at h
    have hne : utf8 markers[index] ≠ [] := by
      intro hn
      refine h.2 _ hpa ?_
      rw [utf8_eq_nil.mp hn]
      rfl
    obtain ⟨prefixes, hta, ha⟩ := prefixTable_spec hne
    exact ⟨prefixes, hta, ha, hne⟩
  have hreg : List.Forall₂ (fun one other : String => one = other ∧ one ∈ markers)
      markers markers :=
    forall₂_same.mpr fun text ht => ⟨rfl, ht⟩
  obtain ⟨registered, hmapM, htrk⟩ := mapM_forall₂
    (S := fun text marker => Tracks (utf8 text) [] [] marker)
    (f := fun marker => do
      return { bytes := utf8 marker, prefixes := ← prefixTable (utf8 marker) : StdoutMarker })
    hreg (by
      rintro text _ ⟨rfl, ht⟩
      obtain ⟨prefixes, hta, ha, hne⟩ := htb text ht
      rw [hta]
      refine ⟨_, rfl, hne, rfl, ha, fun _ => ⟨longest_nil _, length_pos_iff.mpr hne⟩, ?_⟩
      refine firstEnd_begin hne (fun offset hm => ?_ : FirstEnd (utf8 text) [] none)
      obtain ⟨before, generation, after, n, hs, -⟩ := hm
      exact absurd hs.symm (append_ne_nil_of_right_ne_nil _ (cons_ne_nil _ _)))
  refine ⟨⟨{}, registered⟩, ?_, fun side => ?_, fun side => ?_, htrk⟩
  · rw [CaptureState.new, if_neg (by rw [h]; exact Bool.false_ne_true), hmapM]
    rfl
  · cases side <;> exact kept_empty
  · cases side <;> rfl

/-! ## First ends -/

theorem Captured.first {events : List CaptureEvent} {s : CaptureState}
    (h : Captured markers events s) :
    List.Forall₂ (fun text marker => FirstEnd (utf8 text) (generationsOf events) marker.firstEnd)
      markers s.markers :=
  h.markers.imp fun _ _ => Tracks.first

/-- A recorded end is not changed by anything that comes later. -/
theorem firstEnd_later (hp : p ≠ []) {events : List CaptureEvent}
    (h : FirstEnd p (generationsOf events) (some recorded)) (more : List CaptureEvent) :
    FirstEnd p (generationsOf (events ++ more)) (some recorded) := by
  induction more using reverseRecOn with
  | nil => rwa [append_nil]
  | append_singleton more event ih =>
    rw [← append_assoc, generationsOf, stdoutGenerations_snoc]
    cases event with
    | generation => exact firstEnd_begin hp ih
    | read bytes isStdout =>
      cases isStdout with
      | false => exact ih
      | true => exact firstEnd_read ih bytes

/-- Markers are refused or registered; then, whatever is read, no event panics and the recorded end
of each marker is the first end of an occurrence inside one generation.  It is the same for every
split into reads, and once set it is not changed. -/
theorem firstEnd_exact (markers : List String) :
    (markersRefused markers = true ∧ CaptureState.new markers = some (.error registrationError)) ∨
    ∃ s, markersRefused markers = false ∧ CaptureState.new markers = some (.ok s) ∧
      ∀ events, ∃ s', s.handleAll events = some s' ∧
        List.Forall₂ (fun text marker =>
          FirstEnd (utf8 text) (generationsOf events) marker.firstEnd) markers s'.markers ∧
        (∀ other s'', s.handleAll other = some s'' → generationsOf other = generationsOf events →
          List.Forall₂ (fun one other => one.firstEnd = other.firstEnd) s'.markers s''.markers) ∧
        ∀ more s'', s'.handleAll more = some s'' →
          List.Forall₂ (fun one other => ∀ recorded, one.firstEnd = some recorded →
            other.firstEnd = some recorded) s'.markers s''.markers := by
  cases href : markersRefused markers with
  | true =>
    refine .inl ⟨rfl, ?_⟩
    rw [CaptureState.new, if_pos href]
    rfl
  | false =>
    obtain ⟨s, hn, hs⟩ := new_spec href
    refine .inr ⟨s, rfl, hn, fun events => ?_⟩
    obtain ⟨s', hr, h⟩ := hs.handleAll events
    refine ⟨s', hr, h.first, fun other s'' ho hsa => ?_, fun more s'' hmo => ?_⟩
    · obtain ⟨s₁, hr₁, h₁⟩ := hs.handleAll other
      obtain rfl := Option.some.inj (hr₁.symm.trans ho)
      have hf := h₁.first
      rw [nil_append, hsa] at hf
      exact forall₂_compare h.first hf fun _ _ _ => FirstEnd.unique
    · obtain ⟨s₁, hr₁, h₁⟩ := h.handleAll more
      obtain rfl := Option.some.inj (hr₁.symm.trans hmo)
      refine forall₂_compare h.markers h₁.first fun text marker later htrk hl => ?_
      intro recorded hre
      have hf := htrk.first
      rw [hre] at hf
      exact hl.unique (firstEnd_later htrk.nonempty hf more)

/-- The output of a child that prints 2^64 bytes in reads of four KiB, and then `y`. -/
def lateMarker : List CaptureEvent :=
  List.replicate 4503599627370496 (.read (List.replicate 4096 0x78) true) ++ [.read [0x79] true]

theorem generationsOf_reads (n m : ℕ) (b c : Byte) :
    generationsOf (List.replicate n (.read (List.replicate m b) true) ++ [.read [c] true]) =
      [List.replicate (n * m) b ++ [c]] := by
  have hre : ∀ n, stdoutGenerations (List.replicate n (.read (List.replicate m b) true)) =
      ([], List.replicate (n * m) b) := by
    intro n
    induction n with
    | zero => rw [Nat.zero_mul]; rfl
    | succ n ih =>
      rw [replicate_succ', stdoutGenerations_snoc, ih, generationStep,
        replicate_append_replicate, Nat.succ_mul]
  rw [generationsOf, stdoutGenerations_snoc, hre]
  rfl

theorem matchEnd_last {b c : Byte} (hne : c ≠ b) :
    MatchEnd [c] [List.replicate n b ++ [c]] offset ↔ offset = n + 1 := by
  have he : ∀ offset, ¬ MatchEnd [c] [] offset := by
    rintro offset ⟨before, generation, after, k, hs, -⟩
    exact absurd hs.symm (append_ne_nil_of_right_ne_nil _ (cons_ne_nil _ _))
  rw [← nil_append [List.replicate n b ++ [c]], matchEnd_snoc, or_iff_right (he offset)]
  constructor
  · rintro ⟨k, hk, hsuf, rfl⟩
    rw [length_append, length_replicate, length_singleton] at hk
    rcases Nat.lt_succ_iff_lt_or_eq.mp (Nat.lt_succ_of_le hk) with hlt | rfl
    · -- the bytes before the last one are others
      rw [take_append_of_le_length (by rw [length_replicate]; omega)] at hsuf
      have hm := mem_of_mem_take (hsuf.subset mem_cons_self)
      exact absurd (eq_of_mem_replicate hm) hne
    · exact Nat.zero_add _
  · rintro rfl
    refine ⟨n + 1, ?_, ?_, (Nat.zero_add _).symm⟩
    · rw [length_append, length_replicate]
      exact le_rfl
    · rw [take_of_length_le (by rw [length_append, length_replicate]; exact le_rfl)]
      exact suffix_append _ _

/-- Beyond the range of the counter the recorded end is no end of the marker. -/
theorem firstEnd_saturates :
    ∃ s s' marker recorded, CaptureState.new ["y"] = some (.ok s) ∧
      s.handleAll lateMarker = some s' ∧ s'.markers = [marker] ∧
      marker.firstEnd = some recorded ∧ ¬ MatchEnd (utf8 "y") (generationsOf lateMarker) recorded := by
  have hy : utf8 "y" = [0x79] := by decide
  have he : ∀ offset, MatchEnd (utf8 "y") (generationsOf lateMarker) offset ↔
      offset = 4503599627370496 * 4096 + 1 := by
    intro offset
    rw [hy, lateMarker, generationsOf_reads]
    exact matchEnd_last (by decide)
  obtain ⟨s, hn, hs⟩ := new_spec (show markersRefused ["y"] = false by decide)
  obtain ⟨s', hru, h⟩ := hs.handleAll lateMarker
  have hf := h.first
  rw [nil_append] at hf
  generalize hmr : s'.markers = registered at hf
  cases hf with
  | cons hma hr =>
    cases hr
    rename_i marker
    cases hre : marker.firstEnd with
    | none =>
      rw [hre] at hma
      exact absurd ((he _).mpr rfl) (hma _)
    | some recorded =>
      rw [hre] at hma
      obtain ⟨offset, hm, -, rfl⟩ := hma
      refine ⟨s, s', marker, _, hn, hru, hmr, hre, fun ho => ?_⟩
      have hoff := (he _).mp ho
      rw [(he _).mp hm] at hoff
      exact absurd hoff (by decide)

end Keld.Runtime
