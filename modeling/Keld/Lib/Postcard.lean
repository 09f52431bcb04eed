/-
# `Keld.Lib.Postcard` — the postcard layout of a value

A value is serialized as a sequence of primitives (an enum's discriminant, an integer,
a flag, the tag of an option) with nothing in between, so its bytes are determined by
its list of `Atom`s.  An unsigned integer is a base-128 varint, least significant group
first; a signed one is zigzag-mapped; a flag and an option's tag are one byte, 0 or 1.

A reader accepts more than one spelling of a varint, but never more bytes than the
width needs, nor a last byte that would overflow it: `Varint` says which bytes spell
which number.  `Atom.bytes` is the spelling that a writer chooses.
-/
import Keld.Lib.Bytes
import Mathlib.Data.Int.Notation
import Mathlib.Tactic.IntervalCases

namespace Keld

open List

/-! ## Varints -/

/-- The shortest base-128 spelling of a number. -/
def leb128 (n : ℕ) : List Byte :=
  if n / 128 = 0 then [UInt8.ofNat (n % 128)]
  else UInt8.ofNat (n % 128 + 128) :: leb128 (n / 128)
termination_by n
decreasing_by omega

/-- The bytes spell the number as a varint of at most `turns` bytes, the last place of which
holds at most `final`. -/
inductive Varint (final : ℕ) : ℕ → List Byte → ℕ → Prop
  | last (turns : ℕ) {b : Byte} (low : b.toNat < 128) (fits : turns = 0 → b.toNat ≤ final) :
      Varint final (turns + 1) [b] b.toNat
  | more {turns : ℕ} {b : Byte} {bs : List Byte} {n : ℕ} (high : 128 ≤ b.toNat)
      (rest : Varint final turns bs n) :
      Varint final (turns + 1) (b :: bs) (b.toNat - 128 + 128 * n)

variable {final turns n : ℕ} {bs : List Byte}

theorem Varint.pos (h : Varint final turns bs n) : 0 < turns := by
  cases h <;> exact Nat.succ_pos _

theorem Varint.length_le (h : Varint final turns bs n) : bs.length ≤ turns := by
  induction h with
  | last _ _ _ => exact Nat.succ_le_succ (Nat.zero_le _)
  | more _ _ ih => exact Nat.succ_le_succ ih

/-- No varint overflows its width. -/
theorem Varint.lt (h : Varint final turns bs n) : n < 128 ^ (turns - 1) * (final + 1) := by
  induction h with
  | @last turns b low fits =>
    rcases Nat.eq_zero_or_pos turns with rfl | hpos
    · omega
    · obtain ⟨t, rfl⟩ : ∃ t, turns = t + 1 := ⟨turns - 1, by omega⟩
      have hpow : 128 ≤ 128 ^ (t + 1) := by
        rw [Nat.pow_succ]
        exact Nat.le_mul_of_pos_left 128 (Nat.pow_pos (by decide))
      calc b.toNat < 128 := low
        _ ≤ 128 ^ (t + 1) := hpow
        _ ≤ 128 ^ (t + 1) * (final + 1) := Nat.le_mul_of_pos_right _ (Nat.succ_pos _)
  | @more turns b bs n high rest ih =>
    obtain ⟨t, rfl⟩ : ∃ t, turns = t + 1 := ⟨turns - 1, by have := rest.pos; omega⟩
    have hb : b.toNat < 256 := b.toNat_lt
    simp only [Nat.add_sub_cancel] at ih ⊢
    have hs : 128 ^ (t + 1) * (final + 1) = 128 * (128 ^ t * (final + 1)) := by
      ring
    omega

/-- A varint at the front of a list, by its first byte. -/
theorem varint_cons {b : Byte} {tail : List Byte} {P : ℕ → ℕ → Prop} :
    (∃ here rest n, b :: tail = here ++ rest ∧ Varint final (turns + 1) here n ∧ P n here.length) ↔
      (b.toNat < 128 ∧ (turns = 0 → b.toNat ≤ final) ∧ P b.toNat 1) ∨
      (128 ≤ b.toNat ∧ ∃ here rest n, tail = here ++ rest ∧ Varint final turns here n ∧
        P (b.toNat - 128 + 128 * n) (here.length + 1)) := by
  constructor
  · rintro ⟨here, rest, n, hs, hv, hP⟩
    cases hv with
    | last _ low fits =>
      rw [singleton_append, List.cons.injEq] at hs
      obtain ⟨rfl, rfl⟩ := hs
      exact .inl ⟨low, fits, hP⟩
    | more high hr =>
      rw [cons_append, List.cons.injEq] at hs
      obtain ⟨rfl, rfl⟩ := hs
      exact .inr ⟨high, _, _, _, rfl, hr, hP⟩
  · rintro (⟨low, fits, hP⟩ | ⟨high, here, rest, n, rfl, hv, hP⟩)
    · exact ⟨[b], tail, b.toNat, rfl, .last turns low fits, hP⟩
    · exact ⟨b :: here, rest, _, rfl, .more high hv, hP⟩

theorem toNat_ofNat_lt (h : n < 256) : (UInt8.ofNat n).toNat = n := by
  rw [UInt8.toNat_ofNat']
  exact Nat.mod_eq_of_lt h

/-- The shortest spelling of a number within the width is a varint of that width. -/
theorem varint_leb128 (hf : final < 128) (turns : ℕ) (h : n < 128 ^ turns * (final + 1)) :
    Varint final (turns + 1) (leb128 n) n := by
  induction turns generalizing n with
  | zero =>
    have hn : n < 128 := by
      omega
    have hby : (UInt8.ofNat (n % 128)).toNat = n := by
      rw [toNat_ofNat_lt (by omega)]
      omega
    rw [leb128, if_pos (by omega)]
    have hfi : (UInt8.ofNat (n % 128)).toNat ≤ final := by
      omega
    have hv := Varint.last 0 (by rw [hby]; exact hn) (fun _ => hfi)
    rw [hby] at hv
    exact hv
  | succ turns ih =>
    rw [leb128]
    split_ifs with hsm
    · have hby : (UInt8.ofNat (n % 128)).toNat = n := by
        rw [toNat_ofNat_lt (by omega)]
        omega
      have hlow : (UInt8.ofNat (n % 128)).toNat < 128 := by
        omega
      have hv : Varint final (turns + 2) _ _ :=
        Varint.last (turns + 1) hlow (fun h0 => absurd h0 (Nat.succ_ne_zero _))
      rw [hby] at hv
      exact hv
    · have hby : (UInt8.ofNat (n % 128 + 128)).toNat = n % 128 + 128 := toNat_ofNat_lt (by omega)
      have hr : n / 128 < 128 ^ turns * (final + 1) := by
        have hs : 128 ^ (turns + 1) * (final + 1) = 128 * (128 ^ turns * (final + 1)) := by
          ring
        omega
      have hv := Varint.more (b := UInt8.ofNat (n % 128 + 128)) (by rw [hby]; omega) (ih hr)
      rw [hby] at hv
      have hn : n % 128 + 128 - 128 + 128 * (n / 128) = n := by omega
      rw [hn] at hv
      exact hv

/-! ## Zigzag -/

/-- Small numbers of either sign to small unsigned ones. -/
def zigzag (n : ℤ) : ℕ := if n < 0 then (-n * 2 - 1).toNat else (n * 2).toNat

/-- The number that `zigzag` maps there. -/
def unzigzag (n : ℕ) : ℤ := if n % 2 = 0 then (n : ℤ) / 2 else -((n : ℤ) + 1) / 2

theorem unzigzag_zigzag (n : ℤ) : unzigzag (zigzag n) = n := by
  unfold zigzag
  split_ifs with h
  · rw [unzigzag, if_neg (by omega)]
    omega
  · rw [unzigzag, if_pos (by omega)]
    omega

theorem zigzag_unzigzag (n : ℕ) : zigzag (unzigzag n) = n := by
  unfold unzigzag
  split_ifs with h
  · rw [zigzag, if_neg (by omega)]
    omega
  · rw [zigzag, if_pos (by omega)]
    omega

theorem zigzag_lt {n : ℤ} (hlow : -2 ^ 31 ≤ n) (hhi : n < 2 ^ 31) : zigzag n < 2 ^ 32 := by
  unfold zigzag
  split_ifs <;> omega

theorem unzigzag_range (h : n < 2 ^ 32) : -2 ^ 31 ≤ unzigzag n ∧ unzigzag n < 2 ^ 31 := by
  unfold unzigzag
  split_ifs <;> omega

/-! ## Atoms -/

/-- One primitive that a serializer visits. -/
inductive Atom where
  | u32 (n : ℕ)
  | u64 (n : ℕ)
  | flag (b : Bool)
deriving DecidableEq, Repr

/-- The atom fits its width. -/
def Atom.Fits : Atom → Prop
  | .u32 n => n < 2 ^ 32
  | .u64 n => n < 2 ^ 64
  | .flag _ => True

/-- What a writer writes for it. -/
def Atom.bytes : Atom → List Byte
  | .u32 n => leb128 n
  | .u64 n => leb128 n
  | .flag b => [if b then 1 else 0]

/-- What a reader may accept for it. -/
def Atom.Spelled : Atom → List Byte → Prop
  | .u32 n, bs => Varint 15 5 bs n
  | .u64 n, bs => Varint 1 10 bs n
  | .flag b, bs => bs = [if b then 1 else 0]

variable {a : Atom} {as : List Atom}

theorem Atom.spelled_bytes (h : a.Fits) : a.Spelled a.bytes := by
  cases a with
  | u32 n => exact varint_leb128 (by decide) 4 h
  | u64 n => exact varint_leb128 (by decide) 9 h
  | flag b => rfl

/-- The bytes are spellings of the atoms, one after the other and nothing else. -/
def Spelled : List Atom → List Byte → Prop
  | [], bs => bs = []
  | a :: as, bs => ∃ here rest, bs = here ++ rest ∧ a.Spelled here ∧ Spelled as rest

theorem spelled_append {as' : List Atom} :
    Spelled (as ++ as') bs ↔ ∃ front back, bs = front ++ back ∧ Spelled as front ∧
      Spelled as' back := by
  induction as generalizing bs with
  | nil =>
    constructor
    · intro h
      exact ⟨[], bs, rfl, rfl, h⟩
    · rintro ⟨front, back, rfl, rfl, h⟩
      exact h
  | cons a as ih =>
    constructor
    · rintro ⟨here, rest, rfl, ha, hr⟩
      obtain ⟨front, back, rfl, hf, hb⟩ := ih.mp hr
      exact ⟨here ++ front, back, (append_assoc _ _ _).symm, ⟨here, front, rfl, ha, hf⟩, hb⟩
    · rintro ⟨front, back, rfl, ⟨here, rest, rfl, ha, hr⟩, hb⟩
      exact ⟨here, rest ++ back, append_assoc _ _ _, ha, ih.mpr ⟨rest, back, rfl, hr, hb⟩⟩

theorem spelled_singleton : Spelled [a] bs ↔ a.Spelled bs := by
  constructor
  · rintro ⟨here, rest, rfl, ha, rfl⟩
    rw [append_nil]
    exact ha
  · intro ha
    exact ⟨bs, [], (append_nil _).symm, ha, rfl⟩

/-- The postcard bytes of a value with these atoms. -/
def postcard (as : List Atom) : List Byte := as.flatMap Atom.bytes

@[simp] theorem postcard_append (as as' : List Atom) :
    postcard (as ++ as') = postcard as ++ postcard as' :=
  flatMap_append

@[simp] theorem postcard_cons (a : Atom) (as : List Atom) :
    postcard (a :: as) = a.bytes ++ postcard as :=
  flatMap_cons

@[simp] theorem postcard_nil : postcard [] = [] := rfl

theorem spelled_postcard (h : ∀ a ∈ as, a.Fits) : Spelled as (postcard as) := by
  induction as with
  | nil => rfl
  | cons a as ih =>
    exact ⟨a.bytes, postcard as, rfl, Atom.spelled_bytes (h a mem_cons_self),
      ih (fun b hb => h b (mem_cons_of_mem _ hb))⟩

end Keld
