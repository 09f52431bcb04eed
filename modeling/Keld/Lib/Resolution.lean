/-
# `Keld.Lib.Resolution` — resolving a path below a root

A file tree says what stands at a node and what a directory holds; a directory
is held by one directory only, of smaller rank.  `Resolves` is the resolution of
a path from a directory, with a root that nothing leads above: at the root the
parent is the root, and an absolute link starts there.  How the target of a link
reads as a path is a parameter.

A chain is the stack of directories from the root down to one that was entered
from the one below it; in a tree it goes back the way that parents do.
-/
import Mathlib.Tactic.Common
import Mathlib.Order.Basic

namespace Keld

inductive Segment (α : Type) where
  | current
  | parent
  | normal (name : α)
deriving DecidableEq

/-- What stands at a node. -/
inductive Standing (τ : Type) where
  | directory
  | file
  | link (target : τ)
  | other

structure FileTree (ν α τ : Type) where
  standing : ν → Standing τ
  entry : ν → α → Option ν
  parent : ν → ν
  rank : ν → ℕ
  parent_entry : ∀ {dir name child}, entry dir name = some child →
    standing child = .directory → parent child = dir
  rank_entry : ∀ {dir name child}, entry dir name = some child →
    standing child = .directory → rank dir < rank child

/-- How a target reads as a path: whether it is absolute, and its segments. -/
abbrev Reading (α τ : Type) := τ → Option (Bool × List (Segment α))

namespace FileTree

variable {ν α τ : Type} (tree : FileTree ν α τ) (read : Reading α τ) (root : ν)

/-- The path leads from a directory to a node. -/
inductive Resolves : ν → List (Segment α) → ν → Prop
  | done {dir : ν} : Resolves dir [] dir
  | current {dir out : ν} {rest : List (Segment α)} :
      Resolves dir rest out → Resolves dir (.current :: rest) out
  | atRoot {out : ν} {rest : List (Segment α)} :
      Resolves root rest out → Resolves root (.parent :: rest) out
  | parent {dir out : ν} {rest : List (Segment α)} : dir ≠ root →
      Resolves (tree.parent dir) rest out → Resolves dir (.parent :: rest) out
  | enter {dir child out : ν} {name : α} {rest : List (Segment α)} :
      tree.entry dir name = some child → tree.standing child = .directory →
      Resolves child rest out → Resolves dir (.normal name :: rest) out
  | last {dir child : ν} {name : α} : tree.entry dir name = some child →
      tree.standing child = .file ∨ tree.standing child = .other →
      Resolves dir [.normal name] child
  | follow {dir link out : ν} {name : α} {target : τ} {absolute : Bool}
      {path rest : List (Segment α)} : tree.entry dir name = some link →
      tree.standing link = .link target → read target = some (absolute, path) →
      Resolves (if absolute then root else dir) (path ++ rest) out →
      Resolves dir (.normal name :: rest) out

variable {tree read root}

/-- A path leads to one node at most. -/
theorem Resolves.unique {dir one other : ν} {path : List (Segment α)}
    (hon : tree.Resolves read root dir path one) (ho : tree.Resolves read root dir path other) :
    one = other := by
  induction hon with
  | done =>
    cases ho
    rfl
  | current _ ih =>
    cases ho with
    | current ho => exact ih ho
  | atRoot _ ih =>
    cases ho with
    | atRoot ho => exact ih ho
    | parent hne => exact absurd rfl hne
  | parent hne _ ih =>
    cases ho with
    | atRoot => exact absurd rfl hne
    | parent _ ho => exact ih ho
  | enter he hst _ ih =>
    cases ho with
    | enter he' _ ho =>
      cases he.symm.trans he'
      exact ih ho
    | last he' hst' =>
      cases he.symm.trans he'
      rw [hst] at hst'
      rcases hst' with h | h <;> cases h
    | follow he' hst' =>
      cases he.symm.trans he'
      cases hst.symm.trans hst'
  | last he hst =>
    cases ho with
    | enter he' hst' | follow he' hst' =>
      cases he.symm.trans he'
      rw [hst'] at hst
      rcases hst with h | h <;> cases h
    | last he' => exact Option.some.inj (he.symm.trans he')
  | follow he hst hr _ ih =>
    cases ho with
    | enter he' hst' =>
      cases he.symm.trans he'
      cases hst.symm.trans hst'
    | last he' hst' =>
      cases he.symm.trans he'
      rw [hst] at hst'
      rcases hst' with h | h <;> cases h
    | follow he' hst' hr' ho =>
      cases he.symm.trans he'
      cases hst.symm.trans hst'
      cases hr.symm.trans hr'
      exact ih ho

/-! ## Chains -/

variable (tree root) in
/-- Each directory but the last, the root, was entered from the next. -/
inductive Chain : List ν → Prop
  | root : Chain [root]
  | enter {dir child : ν} {name : α} {below : List ν} : Chain (dir :: below) →
      tree.entry dir name = some child → tree.standing child = .directory →
      Chain (child :: dir :: below)

theorem Chain.rank_le {stack : List ν} (h : tree.Chain root stack) {dir : ν}
    (hd : stack.head? = some dir) : tree.rank root ≤ tree.rank dir := by
  induction h generalizing dir with
  | root =>
    cases hd
    exact Nat.le_refl _
  | enter _ he hst ih =>
    cases hd
    exact Nat.le_trans (ih rfl) (Nat.le_of_lt (tree.rank_entry he hst))

theorem Chain.up {dir next : ν} {below : List ν} (h : tree.Chain root (dir :: next :: below)) :
    dir ≠ root ∧ tree.parent dir = next ∧ tree.Chain root (next :: below) := by
  cases h with
  | enter hch he hst =>
    refine ⟨?_, tree.parent_entry he hst, hch⟩
    rintro rfl
    exact absurd (tree.rank_entry he hst) (Nat.not_lt.mpr (hch.rank_le rfl))

end FileTree

end Keld
