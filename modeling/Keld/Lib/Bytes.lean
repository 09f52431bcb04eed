/-
# `Keld.Lib.Bytes` — little-endian fields and fixed offsets

A fixed record is a run of fields, each an unsigned number of a known width
with its least significant byte first.  `leBytes w n` writes one field and
`leNat` reads one back; `leNat_leBytes` and `leBytes_leNat` say that neither
direction loses anything.  `slice at len` is the field at an offset, and the
`slice_*` lemmas compute it in a record written as an append of its fields.
-/
import Mathlib.Tactic.Common
import Mathlib.Tactic.Ring

namespace Keld

open List

/-- One byte as the machine has it. -/
abbrev Byte := UInt8

/-- The `w` bytes of `n`, least significant first. -/
def leBytes : Nat → Nat → List Byte
  | 0, _ => []
  | w + 1, n => UInt8.ofNat n :: leBytes w (n / 256)

/-- The number whose bytes these are, least significant first. -/
def leNat : List Byte → Nat
  | [] => 0
  | b :: bs => b.toNat + 256 * leNat bs

@[simp] theorem length_leBytes (w n : Nat) : (leBytes w n).length = w := by
  induction w generalizing n with
  | zero => rfl
  | succ w ih => rw [leBytes, length_cons, ih]

theorem leNat_lt (bs : List Byte) : leNat bs < 256 ^ bs.length := by
  induction bs with
  | nil => exact Nat.one_pos
  | cons b bs ih =>
    have hb : b.toNat < 256 := b.toNat_lt
    rw [leNat, length_cons, Nat.pow_succ]
    omega

variable {w start len : Nat} {bs field rest : List Byte}

theorem leNat_leBytes {n : Nat} (h : n < 256 ^ w) : leNat (leBytes w n) = n := by
  induction w generalizing n with
  | zero =>
    rw [Nat.pow_zero] at h
    exact (Nat.lt_one_iff.mp h).symm
  | succ w ih =>
    have hdiv : n / 256 < 256 ^ w := Nat.div_lt_of_lt_mul (by rwa [Nat.pow_succ'] at h)
    have hlow : (UInt8.ofNat n).toNat = n % 256 := UInt8.toNat_ofNat'
    rw [leBytes, leNat, ih hdiv, hlow]
    exact Nat.mod_add_div n 256

theorem leBytes_leNat (h : bs.length = w) : leBytes w (leNat bs) = bs := by
  induction bs generalizing w with
  | nil =>
    subst h
    rfl
  | cons b bs ih =>
    subst h
    have hb : b.toNat < 256 := b.toNat_lt
    have hlow : UInt8.ofNat (b.toNat + 256 * leNat bs) = b := by
      apply UInt8.toNat_inj.mp
      have h : (UInt8.ofNat (b.toNat + 256 * leNat bs)).toNat
          = (b.toNat + 256 * leNat bs) % 256 := UInt8.toNat_ofNat'
      omega
    have hhi : (b.toNat + 256 * leNat bs) / 256 = leNat bs := by omega
    rw [length_cons, leBytes, leNat, hlow, hhi, ih rfl]

/-! ## Machine words -/

theorem leNat_leBytes_u16 (n : UInt16) : leNat (leBytes 2 n.toNat) = n.toNat :=
  leNat_leBytes n.toNat_lt

theorem leNat_leBytes_u32 (n : UInt32) : leNat (leBytes 4 n.toNat) = n.toNat :=
  leNat_leBytes n.toNat_lt

/-- `u16::from_le_bytes`. -/
def u16Le (bs : List Byte) : UInt16 := UInt16.ofNat (leNat bs)

/-- `u32::from_le_bytes`. -/
def u32Le (bs : List Byte) : UInt32 := UInt32.ofNat (leNat bs)

@[simp] theorem u16Le_leBytes (n : UInt16) : u16Le (leBytes 2 n.toNat) = n := by
  rw [u16Le, leNat_leBytes_u16, UInt16.ofNat_toNat]

@[simp] theorem u32Le_leBytes (n : UInt32) : u32Le (leBytes 4 n.toNat) = n := by
  rw [u32Le, leNat_leBytes_u32, UInt32.ofNat_toNat]

theorem leBytes_u16Le (h : bs.length = 2) : leBytes 2 (u16Le bs).toNat = bs := by
  have hlt : leNat bs < 2 ^ 16 := by simpa [h] using leNat_lt bs
  rw [u16Le, UInt16.toNat_ofNat', Nat.mod_eq_of_lt hlt, leBytes_leNat h]

theorem leBytes_u32Le (h : bs.length = 4) : leBytes 4 (u32Le bs).toNat = bs := by
  have hlt : leNat bs < 2 ^ 32 := by simpa [h] using leNat_lt bs
  rw [u32Le, UInt32.toNat_ofNat', Nat.mod_eq_of_lt hlt, leBytes_leNat h]

/-! ## Fields at an offset -/

/-- The `len` bytes of a record from offset `start` on. -/
def slice (bs : List Byte) (start len : Nat) : List Byte := (bs.drop start).take len

theorem length_slice (h : start + len ≤ bs.length) : (slice bs start len).length = len := by
  rw [slice, length_take, length_drop]
  omega

theorem slice_append_here (h : field.length = len) : slice (field ++ rest) 0 len = field := by
  rw [slice, drop_zero, take_left' h]

theorem slice_append_past (h : field.length ≤ start) :
    slice (field ++ rest) start len = slice rest (start - field.length) len := by
  rw [slice, slice, drop_append, drop_eq_nil_of_le h, nil_append]

theorem slice_cons_succ {b : Byte} : slice (b :: bs) (start + 1) len = slice bs start len := rfl

theorem slice_one (h : start < bs.length) : slice bs start 1 = [bs.getD start 0] := by
  have hg : bs.getD start 0 = bs[start] := by simp [h]
  rw [hg, slice, drop_eq_getElem_cons h, take_succ_cons, take_zero]

theorem slice_append_slice (bs : List Byte) (start len more : Nat) :
    slice bs start len ++ slice bs (start + len) more = slice bs start (len + more) := by
  rw [slice, slice, slice, take_add, drop_drop]

theorem slice_all (h : bs.length ≤ len) : slice bs 0 len = bs := by
  rw [slice, drop_zero, take_of_length_le h]

end Keld
