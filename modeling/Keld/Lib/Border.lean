/-
# `Keld.Lib.Border` — prefixes of a pattern at the end of a text

A scan for a pattern has to know, after each item of the text, the longest prefix
of the pattern that the text ends with (`Longest`).  One more item extends a prefix
that fitted before (`fits_snoc`), and of two prefixes that fit the shorter one fits at
the end of the longer one (`Fits.inside`): so the prefixes to try after a mismatch
are those that end the part that is matched, without its first item.
-/
import Mathlib.Data.List.Infix

namespace Keld

open List

variable {α : Type} {p t : List α} {k m : Nat}

/-- The text ends with the prefix of length `k`. -/
def Fits (p t : List α) (k : Nat) : Prop := k ≤ p.length ∧ p.take k <:+ t

structure Longest (p t : List α) (m : Nat) : Prop where
  fits : Fits p t m
  max : ∀ k, Fits p t k → k ≤ m

theorem fits_zero (p t : List α) : Fits p t 0 := ⟨Nat.zero_le _, nil_suffix⟩

theorem fits_length : Fits p t p.length ↔ p <:+ t := by
  rw [Fits, take_length]
  exact and_iff_right le_rfl

theorem Fits.le_length (h : Fits p t k) : k ≤ t.length := by
  have hle := h.2.length_le
  rwa [length_take_of_le h.1] at hle

theorem fits_snoc (b : α) : Fits p (t ++ [b]) (k + 1) ↔ Fits p t k ∧ p[k]? = some b := by
  constructor
  · rintro ⟨hk, hsuf⟩
    have hlt : k < p.length := hk
    rw [take_succ_eq_append_getElem hlt] at hsuf
    obtain ⟨front, hfr⟩ := hsuf
    rw [← append_assoc] at hfr
    obtain ⟨ht, hb⟩ := append_inj' hfr rfl
    refine ⟨⟨hlt.le, front, ht⟩, ?_⟩
    rw [List.getElem?_eq_getElem hlt, singleton_inj.mp hb]
  · rintro ⟨⟨-, front, ht⟩, hb⟩
    obtain ⟨hlt, rfl⟩ := List.getElem?_eq_some_iff.mp hb
    refine ⟨hlt, front, ?_⟩
    rw [take_succ_eq_append_getElem hlt, ← append_assoc, ht]

theorem Fits.trans (hk : Fits p (p.take m) k) (hm : Fits p t m) : Fits p t k :=
  ⟨hk.1, hk.2.trans hm.2⟩

/-- The shorter of two prefixes that fit is at the end of the longer one. -/
theorem Fits.inside (hk : Fits p t k) (hm : Fits p t m) (hlt : k < m) : Fits p (p.take m).tail k := by
  refine ⟨hk.1, suffix_of_suffix_length_le hk.2 ((tail_suffix _).trans hm.2) ?_⟩
  rw [length_tail, length_take_of_le hk.1, length_take_of_le hm.1]
  omega

theorem Fits.of_tail (h : Fits p (p.take m).tail k) : Fits p (p.take m) k :=
  ⟨h.1, h.2.trans (tail_suffix _)⟩

theorem longest_nil (p : List α) : Longest p [] 0 := ⟨fits_zero p [], fun _ h => h.le_length⟩

/-- The item extends the longest of the prefixes that fitted and that it continues. -/
theorem longest_snoc {b : α} (hm : Fits p t m) (hb : p[m]? = some b)
    (hmax : ∀ k, Fits p t k → p[k]? = some b → k ≤ m) : Longest p (t ++ [b]) (m + 1) := by
  refine ⟨(fits_snoc b).mpr ⟨hm, hb⟩, ?_⟩
  intro k h
  cases k with
  | zero => exact Nat.zero_le _
  | succ k =>
    obtain ⟨hf, hn⟩ := (fits_snoc b).mp h
    exact Nat.succ_le_succ (hmax k hf hn)

theorem longest_snoc_none {b : α} (hn : ∀ k, Fits p t k → p[k]? ≠ some b) :
    Longest p (t ++ [b]) 0 := by
  refine ⟨fits_zero _ _, ?_⟩
  intro k h
  cases k with
  | zero => exact le_rfl
  | succ k =>
    obtain ⟨hf, hne⟩ := (fits_snoc b).mp h
    exact absurd hne (hn k hf)

end Keld
