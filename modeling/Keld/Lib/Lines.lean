/-
# `Keld.Lib.Lines` — the pieces between separators

A piece of a list split at a separator is a run of the list that has no
separator, and every such run lies inside one piece (`exists_piece`).  So what is
put together from runs of a list and separators has only parts of its pieces
(`pieces_join`).
-/
import Mathlib.Data.List.Infix

namespace Keld

open List

variable {α : Type} [DecidableEq α] {a : α}

/-- A list has no separator, or a first one. -/
theorem splitInduction {motive : List α → Prop} (whole : ∀ xs, a ∉ xs → motive xs)
    (next : ∀ xs ys, a ∉ xs → motive ys → motive (xs ++ a :: ys)) :
    ∀ items, motive items := by
  intro items
  induction hl : items.length using Nat.strong_induction_on generalizing items with
  | _ len ih =>
    by_cases ha : a ∈ items
    · obtain ⟨xs, ys, rfl, hxs⟩ := eq_append_cons_of_mem ha
      refine next xs ys hxs (ih ys.length ?_ ys rfl)
      rw [← hl, length_append, length_cons]
      omega
    · exact whole items ha

theorem piece_isInfix (items : List α) :
    ∀ piece ∈ items.splitOn a, a ∉ piece ∧ piece <:+: items := by
  induction items using splitInduction (a := a) with
  | whole xs hxs =>
    rw [splitOn_eq_singleton hxs]
    intro piece h
    rw [mem_singleton] at h
    subst h
    exact ⟨hxs, infix_refl _⟩
  | next xs ys hxs ih =>
    rw [splitOn_append_cons_self_of_not_mem hxs]
    intro piece h
    rcases mem_cons.mp h with rfl | h
    · exact ⟨hxs, (prefix_append _ _).isInfix⟩
    · obtain ⟨ha, hp⟩ := ih piece h
      exact ⟨ha, hp.trans ((suffix_cons _ _).trans (suffix_append _ _)).isInfix⟩

variable {run xs ys items : List α}

omit [DecidableEq α] in
/-- A run that has no separator is on one side of it. -/
theorem infix_of_infix_append (ha : a ∉ run) (h : run <:+: xs ++ a :: ys) :
    run <:+: xs ∨ run <:+: ys := by
  obtain ⟨front, back, h⟩ := h
  rcases append_eq_append_iff.mp h with ⟨rest, rfl, -⟩ | ⟨rest, hfr, hre⟩
  · exact .inl ⟨front, rest, rfl⟩
  · cases rest with
    | nil =>
      rw [append_nil] at hfr
      exact .inl (hfr ▸ (suffix_append _ _).isInfix)
    | cons b rest =>
      obtain ⟨rfl, rfl⟩ := List.cons.inj hre
      rcases append_eq_append_iff.mp hfr with ⟨skip, -, hr⟩ | ⟨skip, -, hr⟩
      · exact absurd (hr ▸ mem_append_right _ mem_cons_self) ha
      · cases skip with
        | nil =>
          rw [nil_append] at hr
          exact absurd (hr ▸ mem_cons_self) ha
        | cons b skip =>
          obtain ⟨-, rfl⟩ := List.cons.inj hr
          exact .inr ⟨skip, back, rfl⟩

/-- A run that has no separator lies inside one piece. -/
theorem exists_piece (ha : a ∉ run) (items : List α) :
    run <:+: items → ∃ piece ∈ items.splitOn a, run <:+: piece := by
  induction items using splitInduction (a := a) with
  | whole xs hxs =>
    intro h
    rw [splitOn_eq_singleton hxs]
    exact ⟨xs, mem_singleton_self _, h⟩
  | next xs ys hxs ih =>
    intro h
    rw [splitOn_append_cons_self_of_not_mem hxs]
    rcases infix_of_infix_append ha h with h | h
    · exact ⟨xs, mem_cons_self, h⟩
    · obtain ⟨piece, hpi, h⟩ := ih h
      exact ⟨piece, mem_cons_of_mem _ hpi, h⟩

/-- Two runs of a list with a separator between them have only parts of its pieces. -/
theorem pieces_join (hxs : xs <:+: items) (hys : ys <:+: items) :
    ∀ piece ∈ (xs ++ a :: ys).splitOn a, ∃ whole ∈ items.splitOn a, piece <:+: whole := by
  intro piece h
  rw [splitOn_append_cons_self] at h
  rcases mem_append.mp h with h | h
  · obtain ⟨ha, hp⟩ := piece_isInfix xs piece h
    exact exists_piece ha items (hp.trans hxs)
  · obtain ⟨ha, hp⟩ := piece_isInfix ys piece h
    exact exists_piece ha items (hp.trans hys)

/-! ## The first separator -/

theorem findIdx?_of_not_mem {front : List α} (ha : a ∉ front) (back : List α) :
    (front ++ a :: back).findIdx? (· == a) = some front.length := by
  have hfr : front.findIdx? (· == a) = none :=
    findIdx?_eq_none_iff.mpr fun b hb => beq_eq_false_iff_ne.mpr fun h => ha (h ▸ hb)
  rw [findIdx?_append, hfr, findIdx?_cons, beq_self_eq_true, if_pos rfl]
  simp

/-- Where the first separator is found. -/
theorem split_of_findIdx? {i : Nat} (h : items.findIdx? (· == a) = some i) :
    ∃ front back, items = front ++ a :: back ∧ a ∉ front ∧ front.length = i := by
  by_cases ha : a ∈ items
  · obtain ⟨front, back, rfl, hfr⟩ := eq_append_cons_of_mem ha
    rw [findIdx?_of_not_mem hfr] at h
    exact ⟨front, back, rfl, hfr, Option.some.inj h⟩
  · have hn : items.findIdx? (· == a) = none :=
      findIdx?_eq_none_iff.mpr fun b hb => beq_eq_false_iff_ne.mpr fun h => ha (h ▸ hb)
    rw [hn] at h
    cases h

end Keld
