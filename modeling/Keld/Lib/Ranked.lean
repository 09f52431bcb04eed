/-
# `Keld.Lib.Ranked` — lists ranked by a key: ties and the highest

Elements are compared through a key in a linear order, so two of them may tie
without being equal.  `firstTie` looks at neighbours only; on a list in the order
of the keys that finds a tie wherever there is one (`firstTie_eq_none`).
`highest` is a maximum found from left to right.  Where no two elements tie, it is
the one with the greatest key (`highest_eq_some`), whatever the order of the list.
-/
import Mathlib.Order.Basic
import Mathlib.Order.Defs.LinearOrder
import Mathlib.Data.List.Pairwise
import Mathlib.Tactic.Common
import Mathlib.Order.Lattice

namespace Keld

open List

section Keys

variable {α κ : Type} (key : α → κ)

/-- No two elements have the same key. -/
def Untied (l : List α) : Prop := l.Pairwise fun a b => key a ≠ key b

variable {l : List α}

theorem untied_perm {l' : List α} (h : l.Perm l') : Untied key l ↔ Untied key l' :=
  h.pairwise_iff fun hne => hne.symm

theorem Untied.eq_of_key {key : α → κ} (h : Untied key l) {a b : α} (ha : a ∈ l) (hb : b ∈ l)
    (he : key a = key b) : a = b := by
  have : Std.Symm fun a b => key a ≠ key b := ⟨fun _ _ hne => hne.symm⟩
  by_contra hne
  exact h.forall ha hb hne he

end Keys

variable {α κ : Type} [LinearOrder κ] (key : α → κ)

/-! ## Ties -/

/-- The first two neighbours with one key. -/
def firstTie : List α → Option (α × α)
  | a :: b :: rest => if key a = key b then some (a, b) else firstTie (b :: rest)
  | _ => none

variable {l : List α} {a : α}

/-- In the order of the keys, a tie is one of neighbours. -/
theorem firstTie_eq_none (hso : l.Pairwise fun a b => key a ≤ key b) :
    firstTie key l = none ↔ Untied key l := by
  induction l using firstTie.induct key with
  | case1 a b rest he =>
    rw [firstTie, if_pos he]
    refine iff_of_false nofun fun h => ?_
    exact (pairwise_cons.mp h).1 b mem_cons_self he
  | case2 a b rest hne ih =>
    rw [firstTie, if_neg hne, ih (pairwise_cons.mp hso).2]
    refine ⟨fun h => pairwise_cons.mpr ⟨fun c hc => ?_, h⟩, fun h =>
      (pairwise_cons.mp h).2⟩
    -- nothing behind `b` is below it, and `a` is
    have hbe : key a < key b := lt_of_le_of_ne ((pairwise_cons.mp hso).1 b mem_cons_self) hne
    rcases mem_cons.mp hc with rfl | hc
    · exact hbe.ne
    · have hla := (pairwise_cons.mp (pairwise_cons.mp hso).2).1 c hc
      exact (lt_of_lt_of_le hbe hla).ne
  | case3 l hl =>
    match l with
    | [] => exact iff_of_true rfl .nil
    | [a] => exact iff_of_true rfl (pairwise_singleton _ _)
    | a :: b :: rest => exact absurd rfl (hl a b rest)

/-! ## The highest -/

/-- The highest so far against one element more; a tie goes to the later one. -/
def higher (a b : α) : α := if key b < key a then a else b

/-- `Iterator::max_by`. -/
def highest : List α → Option α
  | [] => none
  | a :: rest => some (rest.foldl (higher key) a)

theorem highest_eq_none : highest key l = none ↔ l = [] := by
  cases l with
  | nil => exact iff_of_true rfl rfl
  | cons a rest => exact iff_of_false nofun (cons_ne_nil _ _)

theorem foldl_higher (rest : List α) (a : α) :
    rest.foldl (higher key) a ∈ a :: rest ∧
      ∀ b ∈ a :: rest, key b ≤ key (rest.foldl (higher key) a) := by
  induction rest generalizing a with
  | nil => exact ⟨mem_cons_self, fun b hb => by rw [mem_singleton.mp hb]; rfl⟩
  | cons c rest ih =>
    obtain ⟨hm, hle⟩ := ih (higher key a c)
    have hhi : (higher key a c = a ∨ higher key a c = c) ∧ key a ≤ key (higher key a c) ∧
        key c ≤ key (higher key a c) := by
      unfold higher
      split_ifs with hlt
      · exact ⟨.inl rfl, le_refl _, hlt.le⟩
      · exact ⟨.inr rfl, not_lt.mp hlt, le_refl _⟩
    refine ⟨?_, fun b hb => ?_⟩
    · rw [foldl_cons]
      rcases mem_cons.mp hm with he | hm
      · rw [he]
        rcases hhi.1 with he | he
        all_goals
          rw [he]
          simp
      · exact mem_cons_of_mem _ (mem_cons_of_mem _ hm)
    · rw [foldl_cons]
      have hf := hle _ mem_cons_self
      rcases mem_cons.mp hb with rfl | hb
      · exact hhi.2.1.trans hf
      · rcases mem_cons.mp hb with rfl | hb
        · exact hhi.2.2.trans hf
        · exact hle b (mem_cons_of_mem _ hb)

theorem highest_spec (h : highest key l = some a) : a ∈ l ∧ ∀ b ∈ l, key b ≤ key a := by
  cases l with
  | nil => cases h
  | cons c rest =>
    cases h
    exact foldl_higher key rest c

theorem highest_eq_some (hunt : Untied key l) :
    highest key l = some a ↔ a ∈ l ∧ ∀ b ∈ l, key b ≤ key a := by
  refine ⟨highest_spec key, fun ⟨ha, hle⟩ => ?_⟩
  cases hhi : highest key l with
  | none =>
    rw [(highest_eq_none key).mp hhi] at ha
    cases ha
  | some b =>
    obtain ⟨hb, hb'⟩ := highest_spec key hhi
    rw [hunt.eq_of_key ha hb (le_antisymm (hb' a ha) (hle b hb))]

theorem highest_perm {l' : List α} (hp : l.Perm l') (hunt : Untied key l) :
    highest key l = highest key l' := by
  refine Option.ext fun a => ?_
  rw [highest_eq_some key hunt, highest_eq_some key ((untied_perm key hp).mp hunt), hp.mem_iff]
  simp only [hp.mem_iff]

end Keld
