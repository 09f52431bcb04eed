/-
# `Keld.Lib.Ieee` — rounding to a double

A number of the host language is a double: 53 significant bits and an exponent.
Each operation computes its exact result and rounds it to the nearest double,
to the even one of two.  The exponent is left unbounded here, since nothing
below comes near either end of its range.  What has at most 53 significant bits
is not changed by rounding (`nearest_exact`), and so an integer below `2 ^ 53`
is not, nor its quotient by a power of two.
-/
import Mathlib.Data.Rat.Floor
import Mathlib.Data.Int.Log
import Mathlib.Algebra.Order.Field.Rat
import Mathlib.Tactic.Positivity

namespace Keld.Ieee

/-- The nearest integer, the even one of two. -/
def halfEven (q : ℚ) : ℤ :=
  if q - ⌊q⌋ < 1 / 2 then ⌊q⌋
  else if 1 / 2 < q - ⌊q⌋ then ⌊q⌋ + 1
  else if ⌊q⌋ % 2 = 0 then ⌊q⌋
  else ⌊q⌋ + 1

/-- The weight of the last significant bit. -/
def ulp (q : ℚ) : ℚ := 2 ^ (Int.log 2 |q| - 52)

/-- The nearest double. -/
def nearest (q : ℚ) : ℚ := if q = 0 then 0 else halfEven (q / ulp q) * ulp q

theorem halfEven_intCast (n : ℤ) : halfEven n = n := by
  unfold halfEven
  rw [Int.floor_intCast, sub_self, if_pos (by norm_num)]

/-- A number of at most 53 significant bits is a double. -/
theorem nearest_exact {m : ℤ} (hm : |m| < 2 ^ 53) (e : ℤ) : nearest (m * 2 ^ e) = m * 2 ^ e := by
  unfold nearest
  split_ifs with hz
  · exact hz.symm
  · set q : ℚ := m * 2 ^ e with hq
    have hpow : (0 : ℚ) < 2 ^ e := zpow_pos (by norm_num) e
    have habs : |q| = |(m : ℚ)| * 2 ^ e := by
      rw [hq, abs_mul, abs_of_pos hpow]
    have hb : |(m : ℚ)| < 2 ^ (53 : ℤ) := by exact_mod_cast hm
    have hlt : |q| < 2 ^ (53 + e) := by
      rw [habs, zpow_add₀ (by norm_num)]
      exact mul_lt_mul_of_pos_right hb hpow
    have hl : Int.log 2 |q| < 53 + e := by
      refine (Int.lt_zpow_iff_log_lt (by norm_num) (abs_pos.mpr hz)).mp ?_
      exact_mod_cast hlt
    -- the last significant bit divides the number
    obtain ⟨k, hk⟩ : ∃ k : ℕ, e = Int.log 2 |q| - 52 + k :=
      ⟨(e - (Int.log 2 |q| - 52)).toNat, by omega⟩
    have hulp : ulp q ≠ 0 := zpow_ne_zero _ (by norm_num)
    have hs : q = ((m * 2 ^ k : ℤ) : ℚ) * ulp q := by
      have hfa : (2 : ℚ) ^ e = 2 ^ k * ulp q := by
        conv_lhs => rw [hk]
        rw [zpow_add₀ (by norm_num), zpow_natCast, mul_comm]
        rfl
      rw [Int.cast_mul, Int.cast_pow, Int.cast_ofNat, mul_assoc, ← hfa]
    have hqu : q / ulp q = ((m * 2 ^ k : ℤ) : ℚ) := by
      rw [div_eq_iff hulp]
      exact hs
    rw [hqu, halfEven_intCast]
    exact hs.symm

/-- An integer result. -/
def int (n : ℤ) : ℤ := ⌊nearest n⌋

/-- `Math.floor(a / b)`, and `a / b` itself where that is an integer. -/
def floorDiv (a b : ℤ) : ℤ := ⌊nearest (a / b)⌋

variable {n : ℤ}

theorem int_exact (h : |n| < 2 ^ 53) : int n = n := by
  have hn := nearest_exact h 0
  rw [zpow_zero, mul_one] at hn
  unfold int
  rw [hn, Int.floor_intCast]

theorem floor_le_halfEven (q : ℚ) : ⌊q⌋ ≤ halfEven q := by
  unfold halfEven
  split_ifs <;> omega

/-- What is too large for 53 bits stays so. -/
theorem le_int (h : 2 ^ 53 ≤ n) : 2 ^ 53 ≤ int n := by
  have hq : (2 : ℚ) ^ (53 : ℤ) ≤ n := by exact_mod_cast h
  have hpos : (0 : ℚ) < n := lt_of_lt_of_le (by norm_num) hq
  have hl : 53 ≤ Int.log 2 |(n : ℚ)| := by
    rw [abs_of_pos hpos]
    refine (Int.zpow_le_iff_le_log (by norm_num) hpos).mp ?_
    exact_mod_cast hq
  have hulp : (0 : ℚ) < ulp n := zpow_pos (by norm_num) _
  have hlow : (2 : ℚ) ^ (52 : ℤ) * ulp n ≤ n := by
    have hse := Int.zpow_log_le_self (b := 2) (by norm_num) hpos
    unfold ulp
    rw [← zpow_add₀ (by norm_num), abs_of_pos hpos]
    rw [show 52 + (Int.log 2 (n : ℚ) - 52) = Int.log 2 (n : ℚ) by ring]
    exact_mod_cast hse
  have hqu : (2 : ℤ) ^ 52 ≤ halfEven (n / ulp n) := by
    refine le_trans (Int.le_floor.mpr ?_) (floor_le_halfEven _)
    rw [le_div_iff₀ hulp]
    exact_mod_cast hlow
  have hulp2 : (2 : ℚ) ≤ ulp n := by
    calc (2 : ℚ) = 2 ^ (1 : ℤ) := by norm_num
      _ ≤ 2 ^ (Int.log 2 |(n : ℚ)| - 52) := zpow_le_zpow_right₀ (by norm_num) (by omega)
  unfold int nearest
  rw [if_neg (ne_of_gt hpos)]
  refine Int.le_floor.mpr ?_
  have hqu' : (2 : ℚ) ^ 52 ≤ halfEven (n / ulp n) := by exact_mod_cast hqu
  calc (((2 : ℤ) ^ 53 : ℤ) : ℚ) = 2 ^ 52 * 2 := by norm_num
    _ ≤ halfEven (n / ulp n) * ulp n :=
        mul_le_mul hqu' hulp2 (by norm_num) (le_trans (by norm_num) hqu')

theorem floorDiv_exact (h : |n| < 2 ^ 53) (k : ℕ) : floorDiv n (2 ^ k : ℕ) = n / 2 ^ k := by
  have hn := nearest_exact h (-k)
  rw [zpow_neg, zpow_natCast, ← div_eq_mul_inv] at hn
  unfold floorDiv
  have hca : (((2 ^ k : ℕ) : ℤ) : ℚ) = 2 ^ k := by norm_num
  rw [hca, hn]
  have hf := Rat.floor_intCast_div_natCast n (2 ^ k)
  rw [Nat.cast_pow, Nat.cast_ofNat] at hf
  rw [hf]
  exact_mod_cast rfl

end Keld.Ieee
