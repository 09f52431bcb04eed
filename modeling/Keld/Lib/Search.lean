/-
# `Keld.Lib.Search` — binary search

`binarySearchBy` is the search of the standard library: the part of a list that
is still looked at starts at `base` and is halved until one item is left.  What
it returns matches in any list (`binarySearchBy_sound`); in a list ordered as the
comparison says it finds a match whenever there is one
(`binarySearchBy_complete`), since every turn keeps one in the part looked at.
-/
import Mathlib.Data.List.Basic
import Mathlib.Tactic.Common

namespace Keld

variable {α : Type}

/-- The loop of `slice::binary_search_by`: where it ends. -/
def searchLoop (cmp : α → Ordering) (items : List α) : Nat → Nat → Nat → Nat
  | 0, _, base => base
  | turns + 1, size, base =>
    if 1 < size then
      let half := size / 2
      let mid := base + half
      if items[mid]?.map cmp = some .gt then searchLoop cmp items turns (size - half) base
      else searchLoop cmp items turns (size - half) mid
    else base

/-- `slice::binary_search_by`, without the place where an item that is not there would go. -/
def binarySearchBy (cmp : α → Ordering) (items : List α) : Option Nat :=
  let base := searchLoop cmp items items.length items.length 0
  if items[base]?.map cmp = some .eq then some base else none

/-- Smaller items come first, larger ones last. -/
def OrderedBy (cmp : α → Ordering) (items : List α) : Prop :=
  items.Pairwise fun one other =>
    (cmp one = .gt → cmp other = .gt) ∧ (cmp other = .lt → cmp one = .lt)

/-- The item at an index matches. -/
def MatchAt (cmp : α → Ordering) (items : List α) (index : Nat) : Prop :=
  items[index]?.map cmp = some .eq

variable {cmp : α → Ordering} {items : List α}

theorem binarySearchBy_sound {index : Nat} (h : binarySearchBy cmp items = some index) :
    MatchAt cmp items index := by
  unfold binarySearchBy at h
  dsimp only at h
  split at h
  · rename_i hm
    cases h
    exact hm
  · cases h

/-- Nothing before an item that is too small matches, and nothing behind one too large. -/
theorem OrderedBy.not_match {one other : Nat} (hor : OrderedBy cmp items) (hlt : one < other) :
    (items[one]?.map cmp = some .gt → ¬ MatchAt cmp items other) ∧
      (items[other]?.map cmp = some .lt → ¬ MatchAt cmp items one) := by
  have hpa : ∀ {left right : α}, items[one]? = some left → items[other]? = some right →
      (cmp left = .gt → cmp right = .gt) ∧ (cmp right = .lt → cmp left = .lt) := by
    intro left right hl hr
    obtain ⟨hon, rfl⟩ := List.getElem?_eq_some_iff.mp hl
    obtain ⟨ho, rfl⟩ := List.getElem?_eq_some_iff.mp hr
    exact List.pairwise_iff_getElem.mp hor one other hon ho hlt
  constructor
  · intro hon hm
    obtain ⟨left, hl, hgt⟩ := Option.map_eq_some_iff.mp hon
    obtain ⟨right, hr, he⟩ := Option.map_eq_some_iff.mp hm
    rw [(hpa hl hr).1 hgt] at he
    cases he
  · intro ho hm
    obtain ⟨left, hl, he⟩ := Option.map_eq_some_iff.mp hm
    obtain ⟨right, hr, hle⟩ := Option.map_eq_some_iff.mp ho
    rw [(hpa hl hr).2 hle] at he
    cases he

/-- One half keeps a match: the upper one unless its first item is too large. -/
theorem OrderedBy.half {base size half index : Nat} (hor : OrderedBy cmp items)
    (hl : base + size ≤ items.length) (hha : half ≤ size - half) (hpos : 0 < size - half)
    (hm : MatchAt cmp items index) (hba : base ≤ index) (hs : index < base + size) :
    if items[base + half]?.map cmp = some .gt then index < base + (size - half)
    else ∃ later, MatchAt cmp items later ∧ base + half ≤ later ∧
      later < base + half + (size - half) := by
  have hmid : base + half < items.length := by omega
  split
  · rename_i hgt
    rcases Nat.lt_trichotomy (base + half) index with hlt | rfl | hlt
    · exact absurd hm ((hor.not_match hlt).1 hgt)
    · rw [MatchAt, hgt] at hm
      cases hm
    · omega
  · rename_i hnot
    rcases Nat.lt_or_ge index (base + half) with hlt | hge
    · -- with a match in front of it the first of the upper half is a match itself
      have hi : items[base + half]?.map cmp = some (cmp items[base + half]) := by
        rw [List.getElem?_eq_getElem hmid, Option.map_some]
      cases hod : cmp items[base + half] with
      | lt => exact absurd hm ((hor.not_match hlt).2 (by rw [hi, hod]))
      | gt => exact absurd (by rw [hi, hod]) hnot
      | eq => exact ⟨base + half, by rw [MatchAt, hi, hod], Nat.le_refl _, by omega⟩
    · exact ⟨index, hm, hge, by omega⟩

/-- A part with a match in it is searched down to a match. -/
theorem searchLoop_match (hor : OrderedBy cmp items) :
    ∀ {turns size base index : Nat}, size ≤ turns → base + size ≤ items.length →
      MatchAt cmp items index → base ≤ index → index < base + size →
        MatchAt cmp items (searchLoop cmp items turns size base) := by
  intro turns
  induction turns with
  | zero =>
    intro size base index htu _ _ hba hs
    omega
  | succ turns ih =>
    intro size base index htu hle hm hba hs
    unfold searchLoop
    by_cases ho : 1 < size
    · rw [if_pos ho]
      have hk := hor.half hle (by omega : size / 2 ≤ size - size / 2) (by omega) hm hba hs
      by_cases hgt : items[base + size / 2]?.map cmp = some .gt
      · rw [if_pos hgt] at hk ⊢
        exact ih (by omega) (by omega) hm hba hk
      · rw [if_neg hgt] at hk ⊢
        obtain ⟨later, hl, hge, hlt⟩ := hk
        exact ih (by omega) (by omega) hl hge hlt
    · rw [if_neg ho]
      have hin : index = base := by omega
      rw [← hin]
      exact hm

theorem binarySearchBy_complete (hor : OrderedBy cmp items) {item : α} (hme : item ∈ items)
    (hm : cmp item = .eq) : ∃ index, binarySearchBy cmp items = some index := by
  obtain ⟨index, hin, rfl⟩ := List.mem_iff_getElem.mp hme
  have hat : MatchAt cmp items index := by
    rw [MatchAt, List.getElem?_eq_getElem hin, Option.map_some, hm]
  have hf := searchLoop_match hor (Nat.le_refl _) (Nat.le_of_eq (Nat.zero_add _)) hat
    (Nat.zero_le _) (by rwa [Nat.zero_add])
  exact ⟨_, if_pos hf⟩

end Keld
