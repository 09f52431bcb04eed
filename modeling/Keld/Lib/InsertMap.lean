/-
# `Keld.Lib.InsertMap` — a finite map iterated in insertion order

A new key goes to the end, a value written at a key that is there replaces the
value in its place, and a key that is deleted is forgotten with its place.  That
the keys differ is a field, so a proof sees the map through `get?` and, for its
values, through `mem_values_iff`.
-/
import Mathlib.Data.List.Nodup
import Mathlib.Data.List.Perm.Subperm
import Mathlib.Tactic.Common

namespace Keld

open List

structure InsertMap (κ ν : Type*) [DecidableEq κ] where
  toList : List (κ × ν)
  nodup : (toList.map Prod.fst).Nodup

namespace InsertMap

variable {κ ν : Type*} [DecidableEq κ]

def empty : InsertMap κ ν := ⟨[], nodup_nil⟩

def size (m : InsertMap κ ν) : ℕ := m.toList.length

def getList (k : κ) : List (κ × ν) → Option ν
  | [] => none
  | (k', v) :: l => if k' = k then some v else getList k l

def get? (m : InsertMap κ ν) (k : κ) : Option ν := getList k m.toList

def has (m : InsertMap κ ν) (k : κ) : Bool := (m.get? k).isSome

def values (m : InsertMap κ ν) : List ν := m.toList.map Prod.snd

/-- In place, or at the end. -/
def setList (k : κ) (v : ν) : List (κ × ν) → List (κ × ν)
  | [] => [(k, v)]
  | (k', v') :: l => if k' = k then (k, v) :: l else (k', v') :: setList k v l

variable {k : κ} {m : InsertMap κ ν} {v : ν}

theorem getList_eq_none {l : List (κ × ν)} : getList k l = none ↔ k ∉ l.map Prod.fst := by
  induction l with
  | nil => exact iff_of_true rfl not_mem_nil
  | cons a l ih =>
    rw [getList, map_cons, mem_cons, not_or]
    split_ifs with h
    · exact iff_of_false nofun fun hne => hne.1 h.symm
    · rw [ih, and_iff_right (Ne.symm h)]

theorem map_fst_setList (k : κ) (v : ν) (l : List (κ × ν)) :
    (setList k v l).map Prod.fst =
      if k ∈ l.map Prod.fst then l.map Prod.fst else l.map Prod.fst ++ [k] := by
  induction l with
  | nil => rfl
  | cons a l ih =>
    rw [setList, map_cons]
    by_cases h : a.1 = k
    · rw [if_pos h, if_pos (mem_cons.mpr (.inl h.symm)), map_cons, h]
    · rw [if_neg h, map_cons, ih]
      by_cases hm : k ∈ l.map Prod.fst
      · rw [if_pos hm, if_pos (mem_cons_of_mem _ hm)]
      · have hn : k ∉ a.1 :: l.map Prod.fst :=
          fun hin => (mem_cons.mp hin).elim (fun he => h he.symm) hm
        rw [if_neg hm, if_neg hn]
        rfl

def set (m : InsertMap κ ν) (k : κ) (v : ν) : InsertMap κ ν where
  toList := setList k v m.toList
  nodup := by
    rw [map_fst_setList]
    split_ifs with h
    · exact m.nodup
    · exact nodup_append.mpr ⟨m.nodup, nodup_singleton k, fun a ha b hb heq =>
        h (mem_singleton.mp hb ▸ heq ▸ ha)⟩

def erase (m : InsertMap κ ν) (k : κ) : InsertMap κ ν where
  toList := m.toList.filter fun a => a.1 ≠ k
  nodup := m.nodup.sublist (filter_sublist.map Prod.fst)

theorem get?_set (m : InsertMap κ ν) (k : κ) (v : ν) (k' : κ) :
    (m.set k v).get? k' = if k = k' then some v else m.get? k' := by
  have hli (l : List (κ × ν)) :
      getList k' (setList k v l) = if k = k' then some v else getList k' l := by
    induction l with
    | nil => rfl
    | cons a l ih =>
      rw [setList]
      by_cases ha : a.1 = k
      · rw [if_pos ha, getList, getList, ha]
        split_ifs <;> rfl
      · rw [if_neg ha, getList, getList, ih]
        by_cases hk : k = k'
        · rw [if_pos hk, if_pos hk, if_neg (hk ▸ ha)]
        · rw [if_neg hk, if_neg hk]
  exact hli m.toList

theorem get?_erase (m : InsertMap κ ν) (k k' : κ) :
    (m.erase k).get? k' = if k = k' then none else m.get? k' := by
  have hli (l : List (κ × ν)) : getList k' (l.filter fun a => a.1 ≠ k) =
      if k = k' then none else getList k' l := by
    induction l with
    | nil => exact (ite_self _).symm
    | cons a l ih =>
      rw [filter_cons]
      by_cases ha : a.1 = k
      · rw [if_neg (by simp [ha]), ih, getList]
        by_cases hk : k = k'
        · rw [if_pos hk, if_pos hk]
        · rw [if_neg hk, if_neg hk, if_neg (ha ▸ hk)]
      · rw [if_pos (by simp [ha]), getList, getList, ih]
        by_cases hk : k = k'
        · rw [if_pos hk, if_pos hk, if_neg (hk ▸ ha)]
        · rw [if_neg hk, if_neg hk]
  exact hli m.toList

theorem mem_toList_iff : (k, v) ∈ m.toList ↔ m.get? k = some v := by
  have hli (l : List (κ × ν)) (hl : (l.map Prod.fst).Nodup) :
      (k, v) ∈ l ↔ getList k l = some v := by
    induction l with
    | nil => exact iff_of_false not_mem_nil nofun
    | cons a l ih =>
      obtain ⟨hh, hta⟩ := nodup_cons.mp hl
      rw [mem_cons, getList, ih hta]
      split_ifs with ha
      · have hn : getList k l = none := getList_eq_none.mpr (ha ▸ hh)
        rw [hn, ← ha]
        exact ⟨fun h => h.elim (fun h => by rw [← h]) nofun,
          fun h => .inl (Prod.ext rfl (Option.some.inj h).symm)⟩
      · exact ⟨fun h => h.resolve_left fun h => ha (congrArg Prod.fst h).symm, .inr⟩
  exact hli m.toList m.nodup

theorem mem_values_iff : v ∈ m.values ↔ ∃ k, m.get? k = some v := by
  rw [values, mem_map]
  constructor
  · rintro ⟨⟨k, v⟩, hm, rfl⟩
    exact ⟨k, mem_toList_iff.mp hm⟩
  · rintro ⟨k, hk⟩
    exact ⟨(k, v), mem_toList_iff.mpr hk, rfl⟩

theorem size_set_fresh (h : m.get? k = none) (v : ν) : (m.set k v).size = m.size + 1 := by
  have hke := map_fst_setList k v m.toList
  rw [if_neg (getList_eq_none.mp h)] at hke
  have hl := congrArg List.length hke
  rw [length_append, length_map, length_map, length_singleton] at hl
  exact hl

theorem size_set_of_mem (h : m.get? k ≠ none) (v : ν) : (m.set k v).size = m.size := by
  have hke := map_fst_setList k v m.toList
  rw [if_pos (Classical.not_not.mp fun hm => h (getList_eq_none.mpr hm))] at hke
  have hl := congrArg List.length hke
  rw [length_map, length_map] at hl
  exact hl

theorem size_le {m : InsertMap ℕ ν} {n : ℕ} (h : ∀ k, m.get? k ≠ none → 1 ≤ k ∧ k ≤ n) :
    m.size ≤ n := by
  have hs : m.toList.map Prod.fst ⊆ range' 1 n := by
    intro k hk
    obtain ⟨hpos, hle⟩ := h k fun hg => getList_eq_none.mp hg hk
    exact mem_range'_1.mpr ⟨hpos, by omega⟩
  have hle := (subperm_of_subset m.nodup hs).length_le
  rwa [length_map, length_range'] at hle

end InsertMap

end Keld
