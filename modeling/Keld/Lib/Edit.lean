/-
# `Keld.Lib.Edit` — a record with one range written over

`Edited old new start len` says that `new` is `old` with the range of `len` bytes
at `start` written over, and possibly with more bytes behind.  A slice that the
range does not touch is the same in both (`Edited.slice`), which is all a reader
of fixed places needs to know of the change.
-/
import Keld.Lib.Bytes

namespace Keld

open List

structure Edited (old new : List Byte) (start len : ℕ) : Prop where
  within : start + len ≤ old.length
  grows : old.length ≤ new.length
  front : new.take start = old.take start
  back : (new.take old.length).drop (start + len) = old.drop (start + len)

/-- The same number of bytes is written over a part, and something may be appended. -/
theorem edited_append (front back : List Byte) {mid mid' : List Byte} (hmid : mid.length = mid'.length)
    (more : List Byte) :
    Edited (front ++ (mid ++ back)) (front ++ (mid' ++ back) ++ more) front.length mid.length where
  within := by
    rw [length_append, length_append]
    omega
  grows := by
    simp only [length_append]
    omega
  front := by
    rw [append_assoc, take_left, take_left]
  back := by
    have hl : (front ++ (mid ++ back)).length = (front ++ (mid' ++ back)).length := by
      simp only [length_append, hmid]
    rw [hl, take_left, ← append_assoc, ← append_assoc,
      drop_left' (by rw [length_append, hmid]), drop_left' length_append]

variable {bs : List Byte} {start len count : ℕ}

theorem slice_take (h : start + len ≤ count) :
    slice (bs.take count) start len = slice bs start len := by
  rw [slice, slice, drop_take, take_take, Nat.min_eq_left (by omega)]

theorem slice_drop (bs : List Byte) (start len count : ℕ) :
    slice (bs.drop count) start len = slice bs (count + start) len := by
  rw [slice, slice, drop_drop]

theorem slice_slice {start' len' : ℕ} (h : start' + len' ≤ len) :
    slice (slice bs start len) start' len' = slice bs (start + start') len' := by
  rw [show slice bs start len = (bs.drop start).take len from rfl, slice_take h, slice_drop]

theorem Edited.slice {old new : List Byte} (h : Edited old new start len) {at' : ℕ}
    (hin : at' + count ≤ old.length) (ho : at' + count ≤ start ∨ start + len ≤ at') :
    slice new at' count = slice old at' count := by
  rcases ho with hfr | hba
  · rw [← slice_take hfr, h.front, slice_take hfr]
  · have hd : at' = start + len + (at' - (start + len)) := (Nat.add_sub_cancel' hba).symm
    have hcut : Keld.slice (new.take old.length) at' count = Keld.slice new at' count :=
      slice_take hin
    rw [← hcut, hd, ← slice_drop, h.back, slice_drop]

end Keld
