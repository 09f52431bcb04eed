/-
# `Keld.Lib.Names` — the names that a list is broken into

`namesBetween` breaks a list at its separators and keeps what is not empty.  A
separator between two lists separates their names (`namesBetween_append`), and a
list of names that is spelled with one separator between two of them is
recovered from its spelling.
-/
import Mathlib.Tactic.Common
import Mathlib.Data.List.Basic

namespace Keld

open List

variable {α : Type}

variable {p : α → Bool} {text : List α}

theorem splitOnP_congr {q : α → Bool} (h : ∀ c ∈ text, p c = q c) :
    text.splitOnP p = text.splitOnP q := by
  induction text with
  | nil => rfl
  | cons c rest ih =>
    rw [splitOnP_cons_eq_if_modifyHead, splitOnP_cons_eq_if_modifyHead,
      h c mem_cons_self, ih fun d hd => h d (mem_cons_of_mem c hd)]

/-- A segment is part of the list. -/
theorem mem_of_mem_splitOnP {segment : List α} (h : segment ∈ text.splitOnP p) {c : α}
    (hc : c ∈ segment) : c ∈ text := by
  induction text generalizing segment with
  | nil =>
    rw [splitOnP_nil, mem_singleton] at h
    rwa [h] at hc
  | cons d rest ih =>
    rw [splitOnP_cons_eq_if_modifyHead] at h
    split at h
    · rcases mem_cons.mp h with rfl | h
      · cases hc
      · exact mem_cons_of_mem d (ih h hc)
    · obtain ⟨first, others, hs⟩ := exists_cons_of_ne_nil (splitOnP_ne_nil p rest)
      rw [hs, modifyHead_cons] at h
      rcases mem_cons.mp h with rfl | h
      · rcases mem_cons.mp hc with rfl | hc
        · exact mem_cons_self
        · exact mem_cons_of_mem d (ih (hs ▸ mem_cons_self) hc)
      · exact mem_cons_of_mem d (ih (hs ▸ mem_cons_of_mem first h) hc)

/-- The nonempty segments of a list. -/
def namesBetween [DecidableEq α] (isBreak : α → Bool) (text : List α) : List (List α) :=
  (text.splitOnP isBreak).filter (· ≠ [])

variable [DecidableEq α] {isBreak : α → Bool} {sep : α}

@[simp] theorem namesBetween_nil : namesBetween isBreak [] = [] := rfl

theorem namesBetween_append (hsep : isBreak sep = true) (front rest : List α) :
    namesBetween isBreak (front ++ sep :: rest) =
      namesBetween isBreak front ++ namesBetween isBreak rest := by
  unfold namesBetween
  rw [splitOnP_append_cons front rest hsep, filter_append]

theorem namesBetween_cons (hsep : isBreak sep = true) (rest : List α) :
    namesBetween isBreak (sep :: rest) = namesBetween isBreak rest := by
  have hap := namesBetween_append hsep [] rest
  rwa [nil_append, namesBetween_nil, nil_append] at hap

theorem namesBetween_snoc (hsep : isBreak sep = true) (front : List α) :
    namesBetween isBreak (front ++ [sep]) = namesBetween isBreak front := by
  have hap := namesBetween_append hsep front []
  rwa [namesBetween_nil, append_nil] at hap

theorem namesBetween_name {name : List α} (hne : name ≠ [])
    (hbr : ∀ c ∈ name, isBreak c = false) : namesBetween isBreak name = [name] := by
  unfold namesBetween
  rw [splitOnP_eq_singleton hbr]
  simp [hne]

theorem ne_nil_of_namesBetween (h : namesBetween isBreak text ≠ []) : text ≠ [] := by
  rintro rfl
  exact h rfl

theorem intercalate_namesBetween (h : ∀ segment ∈ text.splitOn sep, segment ≠ []) :
    [sep].intercalate (namesBetween (· == sep) text) = text := by
  unfold namesBetween
  rw [← splitOn_eq_splitOnP, filter_eq_self.mpr fun segment hm => decide_eq_true (h segment hm)]
  exact intercalate_splitOn sep

end Keld
