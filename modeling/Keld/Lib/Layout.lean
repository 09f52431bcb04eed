/-
# `Keld.Lib.Layout` — fields written and read in a row

A record of fixed layout is written into a buffer that holds the longest one,
field after field, and read back the same way.  A write or a read outside the
buffer has no result: that is where the machine would stop.  `putAll_eq` says
what a run of writes leaves in the buffer; `Takes` is a read of given bytes, and
reads compose as the bytes do.

A buffer that is written at fixed places instead is cut into blocks: `Holds`
follows the blocks through the writes, and `slices_eq_iff` reads them back.
-/
import Keld.Lib.Bytes

namespace Keld

open List

/-- An array of `n` bytes. -/
structure Chunk (n : Nat) where
  bytes : List Byte
  len : bytes.length = n
deriving DecidableEq, Repr

variable {n start : Nat} {buffer : Chunk n} {widths : List Nat} {blocks : List (List Byte)}
  {bytes : List Byte}

theorem Chunk.ext {left right : Chunk n} (h : left.bytes = right.bytes) :
    left = right := by
  cases left
  cases right
  cases h
  rfl

def Chunk.zero (n : Nat) : Chunk n := ⟨List.replicate n 0, length_replicate⟩

/-- `buffer[start..start + field.len()].copy_from_slice(field)`. -/
def Chunk.copyAt {n : Nat} (buffer : Chunk n) (start : Nat) (field : List Byte) :
    Option (Chunk n) :=
  if h : start + field.length ≤ n then
    some
      ⟨buffer.bytes.take start ++ (field ++ buffer.bytes.drop (start + field.length)), by
        simp only [length_append, length_take, length_drop, buffer.len]
        omega⟩
  else none

/-! ## Fields at their places -/

/-- Two adjacent fields can be written in one piece. -/
theorem Chunk.copyAt_append {left right : List Byte} (h : start + left.length + right.length ≤ n) :
    buffer.copyAt start (left ++ right)
      = (buffer.copyAt start left).bind fun next => next.copyAt (start + left.length) right := by
  have hl : start + left.length ≤ n := Nat.le_of_add_right_le h
  have hbo : start + (left ++ right).length ≤ n := by
    rw [length_append]
    omega
  have hta : (buffer.bytes.take start).length = start := by
    rw [length_take, buffer.len]
    omega
  have hsk : (buffer.bytes.take start ++ (left ++ buffer.bytes.drop (start + left.length))).take
      (start + left.length) = buffer.bytes.take start ++ left := by
    rw [← append_assoc, take_left']
    rw [length_append, hta]
  have hr : (buffer.bytes.take start ++ (left ++ buffer.bytes.drop (start + left.length))).drop
      (start + left.length + right.length)
        = buffer.bytes.drop (start + (left ++ right).length) := by
    have hfr : (buffer.bytes.take start ++ left).length = start + left.length := by
      rw [length_append, hta]
    rw [← append_assoc, ← hfr, drop_length_add_append, hfr, drop_drop, length_append, Nat.add_assoc]
  unfold Chunk.copyAt
  rw [dif_pos hbo, dif_pos hl, Option.bind_some, dif_pos h]
  refine congrArg some (Chunk.ext ?_)
  dsimp only
  rw [hsk, hr, append_assoc, append_assoc]

/-- A buffer cut into blocks of given widths. -/
structure Chunk.Holds {n : Nat} (buffer : Chunk n) (widths : List Nat) (blocks : List (List Byte)) :
    Prop where
  bytes : buffer.bytes = blocks.flatten
  widths : blocks.map List.length = widths

theorem Chunk.Holds.copyAt (h : buffer.Holds widths blocks) (i : Nat) {field : List Byte}
    (hs : (widths.take i).sum = start) (hwi : widths[i]? = some field.length) :
    ∃ next, buffer.copyAt start field = some next ∧ next.Holds widths (blocks.set i field) := by
  have hi : i < blocks.length := by
    rw [← length_map List.length, h.widths]
    exact (List.getElem?_eq_some_iff.mp hwi).1
  have ho : blocks[i].length = field.length := by
    rw [← h.widths, getElem?_map, List.getElem?_eq_getElem hi] at hwi
    exact Option.some.inj hwi
  have hfr : (blocks.take i).flatten.length = start := by
    rw [length_flatten, map_take, h.widths, hs]
  have hby : buffer.bytes
      = (blocks.take i).flatten ++ (blocks[i] ++ (blocks.drop (i + 1)).flatten) := by
    rw [h.bytes, ← flatten_cons, ← flatten_append, getElem_cons_drop, take_append_drop]
  have hf : start + field.length ≤ n := by
    rw [← buffer.len, hby, length_append, length_append, hfr, ho]
    omega
  refine ⟨_, dif_pos hf, ?_, ?_⟩
  · have hba : buffer.bytes.drop (start + field.length) = (blocks.drop (i + 1)).flatten := by
      rw [hby, ← append_assoc, drop_left']
      rw [length_append, hfr, ho]
    dsimp only
    rw [set_eq_take_append_cons_drop, if_pos hi, flatten_append, flatten_cons, hba,
      hby, take_left' hfr]
  · obtain ⟨hlt, hg⟩ := List.getElem?_eq_some_iff.mp hwi
    rw [map_set, h.widths, ← hg, set_getElem_self]

theorem flatten_replicate (widths : List Nat) (byte : Byte) :
    (widths.map fun width => List.replicate width byte).flatten
      = List.replicate widths.sum byte := by
  induction widths with
  | nil => rfl
  | cons width widths ih =>
    rw [map_cons, flatten_cons, ih, sum_cons, replicate_append_replicate]

theorem Chunk.zero_holds (h : widths.sum = n) :
    (Chunk.zero n).Holds widths (widths.map fun width => List.replicate width 0) := by
  refine ⟨?_, ?_⟩
  · rw [flatten_replicate, h]
    rfl
  · rw [map_map]
    exact (map_congr_left fun _ _ => length_replicate).trans (map_id _)

/-- The fields of given widths from an offset on. -/
def slices (bytes : List Byte) : Nat → List Nat → List (List Byte)
  | _, [] => []
  | start, width :: widths => slice bytes start width :: slices bytes (start + width) widths

theorem flatten_slices (bytes : List Byte) (widths : List Nat) (start : Nat) :
    (slices bytes start widths).flatten = slice bytes start widths.sum := by
  induction widths generalizing start with
  | nil => simp [slices, slice]
  | cons width widths ih =>
    rw [slices, flatten_cons, ih, slice_append_slice, sum_cons]

theorem slices_flatten (front : List Byte) (blocks : List (List Byte)) :
    slices (front ++ blocks.flatten) front.length (blocks.map List.length) = blocks := by
  induction blocks generalizing front with
  | nil => rfl
  | cons block blocks ih =>
    have hhe : slice (front ++ (block ++ blocks.flatten)) front.length block.length = block := by
      rw [slice_append_past le_rfl, Nat.sub_self, slice_append_here rfl]
    have hn := ih (front ++ block)
    rw [length_append, append_assoc] at hn
    rw [map_cons, slices, flatten_cons, hhe, hn]

theorem slices_eq_iff (hby : bytes.length = widths.sum) (hbl : blocks.map List.length = widths) :
    slices bytes 0 widths = blocks ↔ bytes = blocks.flatten := by
  constructor
  · rintro rfl
    rw [flatten_slices, slice_all hby.le]
  · rintro rfl
    rw [← hbl]
    exact slices_flatten [] blocks

/-! ## Writing -/

/-- Sequential field writes into a buffer that holds the longest record. -/
structure RecordWriter (cap : Nat) where
  bytes : Chunk cap
  len : Nat
deriving DecidableEq, Repr

namespace RecordWriter

variable {cap : Nat}

def fresh (cap : Nat) : RecordWriter cap := ⟨.zero cap, 0⟩

def put (out : RecordWriter cap) (field : List Byte) : Option (RecordWriter cap) :=
  (out.bytes.copyAt out.len field).map fun bytes => ⟨bytes, out.len + field.length⟩

/-- One `put` after the other. -/
def putAll (out : RecordWriter cap) (fields : List (List Byte)) : Option (RecordWriter cap) :=
  fields.foldlM put out

/-- The writer whose buffer begins with these bytes and is zero behind them. -/
def holding (content : List Byte) (h : content.length ≤ cap) : RecordWriter cap :=
  ⟨⟨content ++ List.replicate (cap - content.length) 0, by
    rw [length_append, length_replicate]
    omega⟩, content.length⟩

theorem fresh_eq_holding : fresh cap = holding [] (Nat.zero_le cap) := rfl

variable {content field : List Byte} {fields : List (List Byte)}

section

variable (hcontent : content.length ≤ cap) (h : (content ++ field).length ≤ cap)
include hcontent h

/-- A field copied behind the content becomes part of it. -/
theorem copyAt_holding :
    (holding content hcontent).bytes.copyAt content.length field
      = some (holding (content ++ field) h).bytes := by
  have hf : content.length + field.length ≤ cap := by rwa [length_append] at h
  have hba : List.drop (content.length + field.length)
      (content ++ List.replicate (cap - content.length) (0 : Byte))
        = List.replicate (cap - (content ++ field).length) 0 := by
    rw [drop_append, drop_eq_nil_of_le (Nat.le_add_right _ _), nil_append,
      drop_replicate, length_append]
    congr 1
    omega
  unfold holding Chunk.copyAt
  rw [dif_pos hf]
  simp only [take_left', hba, append_assoc]

theorem put_holding :
    (holding content hcontent).put field = some (holding (content ++ field) h) := by
  have hco := copyAt_holding hcontent h
  unfold put
  rw [show (holding content hcontent).len = content.length from rfl, hco, Option.map_some]
  simp only [holding, length_append]

end

/-- Writes that fit leave their fields in a row. -/
theorem putAll_holding (hcontent : content.length ≤ cap)
    (h : (content ++ fields.flatten).length ≤ cap) :
    (holding content hcontent).putAll fields = some (holding (content ++ fields.flatten) h) := by
  induction fields generalizing content with
  | nil => simp [putAll]
  | cons field fields ih =>
    have hs : content ++ (field :: fields).flatten = content ++ field ++ fields.flatten := by
      rw [flatten_cons, append_assoc]
    have ha : (content ++ field ++ fields.flatten).length ≤ cap := by rwa [← hs]
    have hn : (content ++ field).length ≤ cap := le_trans (by simp [length_append]) ha
    rw [putAll, foldlM_cons, put_holding hcontent hn]
    simp only [hs]
    exact ih hn ha

theorem putAll_eq (h : fields.flatten.length ≤ cap) :
    (fresh cap).putAll fields = some (holding fields.flatten h) := by
  rw [fresh_eq_holding]
  exact putAll_holding _ h

theorem holding_bytes_take (h : content.length ≤ cap) :
    (holding content h).bytes.bytes.take (holding content h).len = content :=
  take_left

end RecordWriter

/-! ## Reading -/

/-- Sequential fixed-width field reads from such a buffer. -/
structure FieldReader (cap : Nat) where
  record : Chunk cap
  pos : Nat
deriving DecidableEq, Repr

/-- A computation that reads fields; it has no result where a read leaves the buffer. -/
abbrev Fields (cap : Nat) := StateT (FieldReader cap) Option

namespace FieldReader

variable {cap : Nat}

def take (n : Nat) : Fields cap (Chunk n) := fun fields =>
  if h : fields.pos + n ≤ cap then
    some
      (⟨slice fields.record.bytes fields.pos n, length_slice (by rw [fields.record.len]; exact h)⟩,
        { fields with pos := fields.pos + n })
  else none

/-- These are the bytes from the reader's position to the end of the buffer. -/
def Ahead (fields : FieldReader cap) (bytes : List Byte) : Prop :=
  fields.pos ≤ cap ∧ fields.record.bytes.drop fields.pos = bytes

variable {fields : FieldReader cap} {front : List Byte} {α : Type}

theorem Ahead.length {bytes : List Byte} (h : fields.Ahead bytes) :
    fields.pos + bytes.length = cap := by
  rw [← h.2, length_drop, fields.record.len]
  have := h.1
  omega

theorem Ahead.next {rest : List Byte} (h : fields.Ahead (front ++ rest)) :
    Ahead { fields with pos := fields.pos + front.length } rest := by
  have hl := h.length
  rw [length_append] at hl
  refine ⟨by show fields.pos + front.length ≤ cap; omega, ?_⟩
  rw [← drop_drop, h.2, drop_left]

/-- Wherever these bytes stand next, the computation reads exactly them and returns this. -/
def Takes {α : Type} (x : Fields cap α) (bytes : List Byte) (a : α) : Prop :=
  ∀ (fields : FieldReader cap) (rest : List Byte), fields.Ahead (bytes ++ rest) →
    x fields = some (a, { fields with pos := fields.pos + bytes.length })

theorem takes_pure (a : α) : Takes (pure a : Fields cap α) [] a := by
  intro fields rest _
  rfl

theorem takes_take {n : Nat} (field : Chunk n) : Takes (take n : Fields cap (Chunk n)) field.bytes field := by
  intro fields rest h
  have hl := h.length
  rw [length_append, field.len] at hl
  have hfi : fields.pos + n ≤ cap := by omega
  have hf : slice fields.record.bytes fields.pos n = field.bytes := by
    rw [slice, h.2, take_left' field.len]
  unfold take
  rw [dif_pos hfi]
  simp only [hf, field.len]

theorem Takes.bind {β : Type} {x : Fields cap α} {f : α → Fields cap β} {a : α} {b : β}
    {back : List Byte} (hx : Takes x front a) (hf : Takes (f a) back b) :
    Takes (x >>= f) (front ++ back) b := by
  intro fields rest h
  rw [append_assoc] at h
  show Option.bind (x fields) (fun r => f r.1 r.2) = _
  rw [hx fields _ h, Option.bind_some, hf _ rest h.next, length_append, Nat.add_assoc]

end FieldReader

theorem exists_field {m : Nat} (h : bytes.length = n + m) :
    ∃ (field : Chunk n) (rest : List Byte), bytes = field.bytes ++ rest ∧ rest.length = m := by
  refine ⟨⟨bytes.take n, length_take_of_le (by omega)⟩, bytes.drop n,
    (take_append_drop n bytes).symm, ?_⟩
  rw [length_drop]
  omega

end Keld
