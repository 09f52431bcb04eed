/-
# `Keld.Ipc.ChannelTable` — the channel table is checked at compile time

`validateTable` and its scans are `const` code: index loops over bytes.  Each
loop is modelled with its indices, in `Option`: `none` is an index out of
range, or a difference that would wrap.  `Says` is what one lemma shows of each
scan: it ends, and it answers a question about lists.

The loops walk a list `pre ++ tail` with the index at `pre.length`, so each
lemma is an induction on what lies ahead, and the passed part grows by one.
-/
import Mathlib.Data.List.Infix
import Keld.Ipc.Receive
import Keld.Lib.Text

namespace Keld.Ipc

open List

/-! ## The scans -/

section Scans

variable (haystack needle : List Byte)

/-- The inner loop of `contains`: the offset where it stops. -/
def matchedFrom (start offset : Nat) : Option Nat :=
  if offset < needle.length then do
    let byte ← haystack[start + offset]?
    let wanted ← needle[offset]?
    if byte = wanted then matchedFrom start (offset + 1) else some offset
  else some offset
termination_by needle.length - offset

/-- The outer loop of `contains`. -/
def containsFrom (start : Nat) : Option Bool :=
  if start + needle.length ≤ haystack.length then do
    let offset ← matchedFrom haystack needle start 0
    if offset = needle.length then some true else containsFrom (start + 1)
  else some false
termination_by haystack.length + 1 - start

def contains : Option Bool := containsFrom haystack needle 0

variable (left right : List Byte)

def equalFrom (index : Nat) : Option Bool :=
  if index < left.length then do
    let byte ← left[index]?
    let other ← right[index]?
    if byte = other then equalFrom (index + 1) else some false
  else some true
termination_by left.length - index

def bytesEqual : Option Bool :=
  if left.length = right.length then equalFrom left right 0 else some false

end Scans

def isAsciiLowercase (byte : Byte) : Bool := 97 ≤ byte && byte ≤ 122
def isAsciiDigit (byte : Byte) : Bool := 48 ≤ byte && byte ≤ 57

/-- `b'-'`. -/
def hyphen : Byte := 45

/-- `b"electron"`. -/
def electron : List Byte := [101, 108, 101, 99, 116, 114, 111, 110]

/-- `b"el"`. -/
def el : List Byte := [101, 108]

section Names

variable (name : List Byte)

/-- `index - segment == 2 && name[segment] == b'e' && name[segment + 1] == b'l'`. -/
def segmentIsEl (index segment : Nat) : Option Bool :=
  if index < segment then none
  else if index - segment = 2 then do
    let first ← name[segment]?
    if first = 101 then
      let second ← name[segment + 1]?
      some (second = 108)
    else some false
  else some false

/-- `index == name.len() || name[index] == b'-'`. -/
def segmentEnds (index : Nat) : Option Bool :=
  if index = name.length then some true else name[index]?.map (· = hyphen)

/-- The loop of `validName`: whether it runs to its end. -/
def segmentsFrom (index segment : Nat) : Option Bool :=
  if index ≤ name.length then do
    if ← segmentEnds name index then
      if ← segmentIsEl name index segment then some false
      else segmentsFrom (index + 1) (index + 1)
    else
      let byte ← name[index]?
      if isAsciiLowercase byte || isAsciiDigit byte then segmentsFrom (index + 1) segment
      else some false
  else some true
termination_by name.length + 1 - index

def validName : Option Bool :=
  if name.isEmpty || name.length > 32 then some false
  else do
    let first ← name[0]?
    if isAsciiLowercase first then
      if ← segmentsFrom name 0 0 then (contains name electron).map not else some false
    else some false

end Names

/-! ## What they answer -/

/-- The scan stays in range, and it answers `yes` exactly when `p`. -/
def Says {α : Type} (scan : Option α) (yes : α) (p : Prop) : Prop :=
  ∃ r, scan = some r ∧ (r = yes ↔ p)

section Says

variable {α : Type} {scan : Option α} {r yes : α} {p q : Prop}

theorem says_some (h : r = yes ↔ p) : Says (some r) yes p := ⟨r, rfl, h⟩

theorem says_yes (h : p) : Says (some yes) yes p := says_some (iff_of_true rfl h)

theorem says_no (hr : r ≠ yes) (h : ¬ p) : Says (some r) yes p := says_some (iff_of_false hr h)

theorem Says.of_iff (hs : Says scan yes p) (h : p ↔ q) : Says scan yes q := by
  obtain ⟨r, hr, hp⟩ := hs
  exact ⟨r, hr, hp.trans h⟩

theorem Says.not {scan : Option Bool} (hs : Says scan true p) : Says (scan.map not) true (¬ p) := by
  obtain ⟨b, rfl, hp⟩ := hs
  refine says_some ?_
  rw [← hp, Bool.not_eq_true', Bool.not_eq_true]

end Says

/-! ### A text within a text -/

section Contains

variable {haystack needle : List Byte}

theorem matchedFrom_says {pre back : List Byte} (front tail : List Byte)
    (hn : needle = front ++ back) (hh : haystack = pre ++ (front ++ tail))
    (hl : back.length ≤ tail.length) :
    ∃ n, matchedFrom haystack needle pre.length front.length = some n
      ∧ (n = needle.length ↔ back <+: tail) := by
  induction back generalizing front tail with
  | nil =>
    refine ⟨front.length, ?_, by simp [hn]⟩
    rw [matchedFrom, if_neg (by simp [hn])]
  | cons wanted back ih =>
    obtain - | ⟨byte, tail⟩ := tail
    · simp at hl
    have hlt : front.length < needle.length := by simp [hn]
    have hb : haystack[pre.length + front.length]? = some byte := by simp [hh]
    have hw : needle[front.length]? = some wanted := by simp [hn]
    rw [matchedFrom, if_pos hlt, hb, hw, cons_prefix_cons]
    dsimp only [Option.bind_eq_bind, Option.bind_some]
    by_cases he : byte = wanted
    · subst he
      rw [if_pos rfl]
      have hi := ih (front ++ [byte]) tail (by simp [hn]) (by simp [hh]) (Nat.le_of_succ_le_succ hl)
      rw [length_append, length_singleton] at hi
      obtain ⟨n, hm, hp⟩ := hi
      exact ⟨n, hm, hp.trans (and_iff_right rfl).symm⟩
    · rw [if_neg he]
      refine ⟨_, rfl, iff_of_false (Nat.ne_of_lt hlt) fun h => he h.1.symm⟩

theorem containsFrom_says (pre : List Byte) {tail : List Byte} (hh : haystack = pre ++ tail) :
    Says (containsFrom haystack needle pre.length) true (needle <:+: tail) := by
  induction tail generalizing pre with
  | nil =>
    rw [containsFrom, infix_nil]
    split_ifs with hl
    · have hz : needle = [] := by
        rw [hh, append_nil] at hl
        exact eq_nil_of_length_eq_zero (by omega)
      subst hz
      rw [matchedFrom, if_neg (by simp)]
      exact says_yes rfl
    · refine says_no nofun fun hz => hl ?_
      simp [hz, hh]
  | cons byte tail ih =>
    have hi := ih (pre ++ [byte]) (by simp [hh])
    rw [length_append, length_singleton] at hi
    rw [containsFrom]
    split_ifs with hl
    · have hb : needle.length ≤ (byte :: tail).length := by
        rw [hh, length_append] at hl
        omega
      obtain ⟨n, hm, hp⟩ := matchedFrom_says [] _ (nil_append needle).symm hh hb
      rw [length_nil] at hm
      rw [hm, infix_cons_iff, ← hp]
      dsimp only [Option.bind_eq_bind, Option.bind_some]
      split_ifs with hn
      · exact says_yes (.inl hn)
      · exact hi.of_iff (or_iff_right hn).symm
    · refine says_no nofun fun h => hl ?_
      rw [hh, length_append]
      exact Nat.add_le_add_left h.length_le _

theorem contains_says : Says (contains haystack needle) true (needle <:+: haystack) :=
  containsFrom_says [] rfl

end Contains

theorem equalFrom_says {left right bytes others : List Byte} (pre : List Byte) (hle : left = pre ++ bytes)
    (hr : right = pre ++ others) (hl : bytes.length = others.length) :
    Says (equalFrom left right pre.length) true (bytes = others) := by
  induction bytes generalizing pre others with
  | nil =>
    rw [equalFrom, if_neg (by simp [hle])]
    exact says_yes (eq_nil_of_length_eq_zero hl.symm).symm
  | cons byte bytes ih =>
    obtain - | ⟨other, others⟩ := others
    · simp at hl
    have hb : left[pre.length]? = some byte := by simp [hle]
    have ho : right[pre.length]? = some other := by simp [hr]
    rw [equalFrom, if_pos (by simp [hle]), hb, ho, cons_eq_cons]
    dsimp only [Option.bind_eq_bind, Option.bind_some]
    split_ifs with he
    · subst he
      have hi := ih (pre ++ [byte]) (by simp [hle]) (by simp [hr]) (Nat.succ.inj hl)
      rw [length_append, length_singleton] at hi
      exact hi.of_iff (and_iff_right rfl).symm
    · exact says_no nofun fun h => he h.1

theorem bytesEqual_says (left right : List Byte) :
    Says (bytesEqual left right) true (left = right) := by
  unfold bytesEqual
  split_ifs with hl
  · exact equalFrom_says [] rfl rfl hl
  · exact says_no nofun fun h => hl (congrArg length h)

/-! ### Names -/

def NameByte (byte : Byte) : Prop :=
  isAsciiLowercase byte ∨ isAsciiDigit byte ∨ byte = hyphen

/-- A name matches `[a-z][a-z0-9-]{0,31}` and names no Electron family. -/
structure ValidName (name : List Byte) : Prop where
  shape : ∃ first rest, name = first :: rest ∧ isAsciiLowercase first ∧ rest.length ≤ 31
    ∧ ∀ byte ∈ rest, NameByte byte
  segments : el ∉ name.splitOn hyphen
  family : ¬ electron <:+: name

section Names

variable {name pre cur rest : List Byte}

theorem segmentIsEl_says (h : name = pre ++ (cur ++ rest)) :
    Says (segmentIsEl name (pre ++ cur).length pre.length) true (cur = el) := by
  unfold segmentIsEl
  rw [length_append, if_neg (by omega), Nat.add_sub_cancel_left]
  split_ifs with hl
  · obtain ⟨first, second, rfl⟩ := length_eq_two.mp hl
    have hf : name[pre.length]? = some first := by simp [h]
    have hs : name[pre.length + 1]? = some second := by simp [h]
    rw [hf, hs]
    dsimp only [Option.bind_eq_bind, Option.bind_some]
    split_ifs with he
    · exact says_some (by simp [el, he])
    · exact says_no nofun fun hc => he (cons.inj hc).1
  · exact says_no nofun fun hc => hl (congrArg length hc)

/-- `pre` is what ended with the last hyphen, `cur` the segment being read. -/
theorem segmentsFrom_says (pre cur : List Byte) (h : name = pre ++ (cur ++ rest)) (hc : hyphen ∉ cur) :
    Says (segmentsFrom name (pre ++ cur).length pre.length) true
      ((∀ byte ∈ rest, NameByte byte) ∧ el ∉ (cur ++ rest).splitOn hyphen) := by
  have hl : name.length = (pre ++ cur).length + rest.length := by simp [h, Nat.add_assoc]
  induction rest generalizing pre cur with
  | nil =>
    obtain ⟨found, hf, hel⟩ := segmentIsEl_says h
    have hen : segmentEnds name (pre ++ cur).length = some true := if_pos hl.symm
    have hla : segmentsFrom name ((pre ++ cur).length + 1) ((pre ++ cur).length + 1)
        = some true := by
      rw [segmentsFrom, if_neg (by simp [hl])]
    rw [segmentsFrom, if_pos (by omega), hen, hf, append_nil, splitOn_eq_singleton hc,
      mem_singleton, eq_comm (a := el), ← hel]
    dsimp only [Option.bind_eq_bind, Option.bind_some]
    rw [if_pos rfl, hla]
    split_ifs with he
    · exact says_no nofun fun hn => hn.2 he
    · exact says_yes ⟨nofun, he⟩
  | cons byte rest ih =>
    have hb : name[(pre ++ cur).length]? = some byte := by
      rw [h, ← append_assoc]
      simp
    have hen : segmentEnds name (pre ++ cur).length = some (decide (byte = hyphen)) := by
      rw [segmentEnds, if_neg (by simp [hl]), hb, Option.map_some]
    rw [segmentsFrom, if_pos (by omega), hen, forall_mem_cons]
    dsimp only [Option.bind_eq_bind, Option.bind_some]
    by_cases hy : byte = hyphen
    · -- the segment ends here and the next one starts behind the hyphen
      subst hy
      obtain ⟨found, hf, hel⟩ := segmentIsEl_says h
      have hi := ih (pre ++ cur ++ [hyphen]) [] (by simp [h]) not_mem_nil (by simp [hl]; omega)
      rw [append_nil, nil_append, length_append, length_singleton] at hi
      rw [decide_eq_true rfl, if_pos rfl, hf, splitOn_append_cons_self_of_not_mem hc, mem_cons,
        eq_comm (a := el), ← hel]
      dsimp only [Option.bind_some]
      split_ifs with he
      · exact says_no nofun fun hn => hn.2 (.inl he)
      · refine hi.of_iff ?_
        rw [or_iff_right he, and_iff_right (show NameByte hyphen from .inr (.inr rfl))]
    · have hi := ih pre (cur ++ [byte]) (by simp [h])
        (by simpa [hc] using Ne.symm hy) (by simp [hl]; omega)
      rw [← append_assoc, length_append, length_singleton, append_assoc, singleton_append] at hi
      rw [decide_eq_false hy, if_neg Bool.false_ne_true, hb]
      dsimp only [Option.bind_some]
      have hv : NameByte byte ↔ (isAsciiLowercase byte || isAsciiDigit byte) = true := by
        rw [NameByte, or_iff_left hy, Bool.or_eq_true]
      rw [hv]
      split_ifs with ho
      · exact hi.of_iff (and_congr_left fun _ => (and_iff_right ho).symm)
      · exact says_no nofun fun hn => ho hn.1.1

theorem validName_cons {first : Byte} : ValidName (first :: rest) ↔
    isAsciiLowercase first ∧ rest.length ≤ 31 ∧ ((∀ byte ∈ first :: rest, NameByte byte)
      ∧ el ∉ (first :: rest).splitOn hyphen) ∧ ¬ electron <:+: first :: rest := by
  constructor
  · rintro ⟨⟨_, _, h, hf, hl, hb⟩, hs, hg⟩
    cases h
    exact ⟨hf, hl, ⟨forall_mem_cons.mpr ⟨.inl hf, hb⟩, hs⟩, hg⟩
  · rintro ⟨hf, hl, ⟨hb, hs⟩, hg⟩
    exact ⟨⟨first, rest, rfl, hf, hl, (forall_mem_cons.mp hb).2⟩, hs, hg⟩

theorem validName_says (name : List Byte) : Says (validName name) true (ValidName name) := by
  unfold validName
  obtain - | ⟨first, rest⟩ := name
  · exact says_no nofun fun ⟨⟨_, _, h, _⟩, _, _⟩ => nomatch h
  rw [validName_cons]
  split_ifs with hl
  · refine says_no nofun fun hn => ?_
    have hlo : 32 < (first :: rest).length := by simpa using hl
    exact Nat.not_lt.mpr (Nat.succ_le_succ hn.2.1) hlo
  · have hsh : rest.length ≤ 31 := by
      simp at hl
      omega
    rw [getElem?_cons_zero]
    dsimp only [Option.bind_eq_bind, Option.bind_some]
    split_ifs with hf
    · obtain ⟨ran, hr, hs⟩ : Says (segmentsFrom (first :: rest) 0 0) true _ :=
        segmentsFrom_says [] [] rfl not_mem_nil
      rw [nil_append] at hs
      rw [hr]
      dsimp only [Option.bind_some]
      split_ifs with hran
      · refine contains_says.not.of_iff ?_
        rw [and_iff_right hf, and_iff_right hsh, and_iff_right (hs.mp hran)]
      · exact says_no nofun fun hn => hran (hs.mpr hn.2.2.1)
    · exact says_no nofun fun hn => hf hn.1

end Names

/-! ## The table -/

inductive TableDefect
  | reservedId
  | notIncreasing
  | duplicateId (id : UInt16)
  | invalidName
  | duplicateName
  | emptyCapabilityList
deriving DecidableEq, Repr

section Table

variable (entries : List ChannelEntry)

/-- The inner loop: the entry at `index` against each earlier one. -/
def repeatsFrom (entry : ChannelEntry) (index earlier : Nat) :
    Option (Except TableDefect Unit) :=
  if earlier < index then do
    let other ← entries[earlier]?
    if other.id.raw = entry.id.raw then some (.error (.duplicateId entry.id.raw))
    else if ← bytesEqual (utf8 other.name) (utf8 entry.name) then some (.error .duplicateName)
    else repeatsFrom entry index (earlier + 1)
  else some (.ok ())
termination_by index - earlier

/-- `index > 0 && entries[index - 1].id.0 >= entry.id.0`. -/
def notAfter (entry : ChannelEntry) (index : Nat) : Option Bool :=
  if 0 < index then entries[index - 1]?.map (entry.id.raw ≤ ·.id.raw) else some false

/-- One turn of the outer loop. -/
def validateEntry (index : Nat) : Option (Except TableDefect Unit) := do
  let entry ← entries[index]?
  if entry.id.raw = handshakeChannel.raw then some (.error .reservedId)
  else if !(← validName (utf8 entry.name)) then some (.error .invalidName)
  else if entry.authority = .guarded [] then some (.error .emptyCapabilityList)
  else
    match ← repeatsFrom entries entry index 0 with
    | .error defect => some (.error defect)
    | .ok () => if ← notAfter entries entry index then some (.error .notIncreasing) else some (.ok ())

def validateFrom (index : Nat) : Option (Except TableDefect Unit) :=
  if index < entries.length then do
    match ← validateEntry entries index with
    | .error defect => some (.error defect)
    | .ok () => validateFrom (index + 1)
  else some (.ok ())
termination_by entries.length - index

def validateTable : Option (Except TableDefect Unit) := validateFrom entries 0

end Table

structure ValidTable (entries : List ChannelEntry) : Prop where
  nonzero : ∀ entry ∈ entries, entry.id ≠ handshakeChannel
  increasing : entries.Pairwise (·.id.raw < ·.id.raw)
  distinct : entries.Pairwise (·.name ≠ ·.name)
  names : ∀ entry ∈ entries, ValidName (utf8 entry.name)
  guarded : ∀ entry ∈ entries, entry.authority ≠ .guarded []

section ValidTable

variable {entries pre mid rest : List ChannelEntry} {entry : ChannelEntry}

theorem ValidTable.sublist (h : ValidTable entries) (hs : pre <+ entries) : ValidTable pre where
  nonzero e he := h.nonzero e (hs.subset he)
  increasing := h.increasing.sublist hs
  distinct := h.distinct.sublist hs
  names e he := h.names e (hs.subset he)
  guarded e he := h.guarded e (hs.subset he)

/-- The last entry has the largest id, so the next one is compared with it only. -/
theorem validTable_snoc (h : ValidTable pre) : ValidTable (pre ++ [entry]) ↔
    entry.id ≠ handshakeChannel ∧ ValidName (utf8 entry.name) ∧ entry.authority ≠ .guarded []
      ∧ (∀ other ∈ pre, other.id.raw ≠ entry.id.raw ∧ other.name ≠ entry.name)
      ∧ ¬ ∃ last ∈ pre.getLast?, entry.id.raw ≤ last.id.raw := by
  have hm : entry ∈ pre ++ [entry] := mem_concat_self
  constructor
  · intro hv
    have hi := (pairwise_append.mp hv.increasing).2.2
    have hd := (pairwise_append.mp hv.distinct).2.2
    refine ⟨hv.nonzero entry hm, hv.names entry hm, hv.guarded entry hm, fun other ho => ?_, ?_⟩
    · exact ⟨UInt16.ne_of_lt (hi other ho entry (mem_singleton_self _)),
        hd other ho entry (mem_singleton_self _)⟩
    · rintro ⟨last, hl, hle⟩
      have hlt := hi last (mem_of_getLast? hl) entry (mem_singleton_self _)
      exact UInt16.not_lt.mpr hle hlt
  · rintro ⟨hz, hn, hg, ho, hl⟩
    have hlt : ∀ other ∈ pre, other.id.raw < entry.id.raw := by
      intro other hoh
      obtain rfl | ⟨init, last, rfl⟩ := eq_nil_or_concat' pre
      · exact absurd hoh not_mem_nil
      · have hla : last.id.raw < entry.id.raw := UInt16.not_le.mp fun hle => hl ⟨last, by simp, hle⟩
        obtain hin | hin := mem_append.mp hoh
        · refine UInt16.lt_trans ?_ hla
          exact (pairwise_append.mp h.increasing).2.2 other hin last (mem_singleton_self _)
        · rw [mem_singleton.mp hin]
          exact hla
    exact {
      nonzero := forall_mem_append.mpr ⟨h.nonzero, forall_mem_singleton.mpr hz⟩
      increasing := pairwise_append.mpr
        ⟨h.increasing, pairwise_singleton _ _, fun e he => forall_mem_singleton.mpr (hlt e he)⟩
      distinct := pairwise_append.mpr
        ⟨h.distinct, pairwise_singleton _ _, fun e he => forall_mem_singleton.mpr (ho e he).2⟩
      names := forall_mem_append.mpr ⟨h.names, forall_mem_singleton.mpr hn⟩
      guarded := forall_mem_append.mpr ⟨h.guarded, forall_mem_singleton.mpr hg⟩ }

theorem repeatsFrom_says (entry : ChannelEntry) (pre : List ChannelEntry) (h : entries = pre ++ (mid ++ rest)) :
    Says (repeatsFrom entries entry (pre ++ mid).length pre.length) (.ok ())
      (∀ other ∈ mid, other.id.raw ≠ entry.id.raw ∧ other.name ≠ entry.name) := by
  induction mid generalizing pre with
  | nil =>
    rw [repeatsFrom, if_neg (by simp)]
    exact says_yes nofun
  | cons other mid ih =>
    have ho : entries[pre.length]? = some other := by simp [h]
    obtain ⟨same, hs, hna⟩ := bytesEqual_says (utf8 other.name) (utf8 entry.name)
    have hi := ih (pre ++ [other]) (by simp [h])
    have hlen : (pre ++ [other]).length = pre.length + 1 := length_append
    rw [append_assoc, singleton_append, hlen] at hi
    rw [repeatsFrom, if_pos (by simp), ho, forall_mem_cons]
    dsimp only [Option.bind_eq_bind, Option.bind_some]
    rw [hs, Option.bind_some]
    split_ifs with hid he
    · exact says_no nofun fun hn => hn.1.1 hid
    · exact says_no nofun fun hn => hn.1.2 (utf8_inj (hna.mp he))
    · refine hi.of_iff (and_iff_right ⟨hid, fun hn => he ?_⟩).symm
      exact hna.mpr (congrArg utf8 hn)

theorem notAfter_says (h : entries = pre ++ entry :: rest) :
    Says (notAfter entries entry pre.length) true
      (∃ last ∈ pre.getLast?, entry.id.raw ≤ last.id.raw) := by
  unfold notAfter
  obtain rfl | ⟨init, last, rfl⟩ := eq_nil_or_concat' pre
  · exact says_no nofun nofun
  · have hl : entries[(init ++ [last]).length - 1]? = some last := by simp [h]
    rw [if_pos (by simp), hl]
    exact says_some (by simp)

theorem validateEntry_says (h : entries = pre ++ entry :: rest) (hv : ValidTable pre) :
    Says (validateEntry entries pre.length) (.ok ()) (ValidTable (pre ++ [entry])) := by
  have he : entries[pre.length]? = some entry := by simp [h]
  obtain ⟨valid, hva, hn⟩ := validName_says (utf8 entry.name)
  obtain ⟨r, hr, hrep⟩ := repeatsFrom_says entry [] h
  obtain ⟨after, ha, haf⟩ := notAfter_says h
  rw [nil_append, length_nil] at hr
  rw [validTable_snoc hv, ← hn, ← hrep, ← haf]
  unfold validateEntry
  rw [he]
  dsimp only [Option.bind_eq_bind, Option.bind_some]
  rw [hva, hr, ha]
  dsimp only [Option.bind_some]
  by_cases hz : entry.id.raw = handshakeChannel.raw
  · rw [if_pos hz]
    exact says_no nofun fun h => h.1 (congrArg ChannelId.mk hz)
  · rw [if_neg hz]
    have hne : entry.id ≠ handshakeChannel := fun h => hz (congrArg ChannelId.raw h)
    cases valid with
    | false => exact says_no nofun fun h => Bool.false_ne_true h.2.1
    | true =>
      rw [if_neg (by decide)]
      by_cases hg : entry.authority = .guarded []
      · rw [if_pos hg]
        exact says_no nofun fun h => h.2.2.1 hg
      · rw [if_neg hg]
        match r, after with
        | .error _, _ => exact says_no nofun fun h => nomatch h.2.2.2.1
        | .ok (), true => exact says_no nofun fun h => h.2.2.2.2 rfl
        | .ok (), false => exact says_yes ⟨hne, rfl, hg, rfl, Bool.false_ne_true⟩

theorem validateFrom_says (pre : List ChannelEntry) (h : entries = pre ++ rest) (hv : ValidTable pre) :
    Says (validateFrom entries pre.length) (.ok ()) (ValidTable entries) := by
  induction rest generalizing pre with
  | nil =>
    rw [validateFrom, if_neg (by simp [h])]
    rw [h, append_nil]
    exact says_yes hv
  | cons entry rest ih =>
    obtain ⟨r, hr, hiff⟩ := validateEntry_says h hv
    rw [validateFrom, if_pos (by simp [h]), hr]
    match r with
    | .error defect =>
      refine says_no nofun fun ha => nomatch hiff.mpr (ha.sublist ?_)
      rw [h]
      exact Sublist.append_left (singleton_sublist.mpr mem_cons_self) _
    | .ok () =>
      have hi := ih (pre ++ [entry]) (by simp [h]) (hiff.mp rfl)
      rw [length_append, length_singleton] at hi
      exact hi

end ValidTable

/-- The check accepts exactly the tables of the allocation rule, and each scan answers for every
byte string what it is named for, in range. -/
theorem channel_table_validation :
    (∀ entries, Says (validateTable entries) (.ok ()) (ValidTable entries))
      ∧ (∀ name, Says (validName name) true (ValidName name))
      ∧ ∀ haystack needle, Says (contains haystack needle) true (needle <:+: haystack) := by
  refine ⟨fun entries => ?_, validName_says, fun _ _ => contains_says⟩
  exact validateFrom_says [] rfl ⟨nofun, .nil, .nil, nofun, nofun⟩

end Keld.Ipc
