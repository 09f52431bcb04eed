/-
# `Keld.Lib.Mounts` — what is seen through a table of mounts

A tree is put together by mounting one thing after another, each at a path.  A
mount hides whatever was at or below its place before (`seen`); a thing that is
a leaf, such as a file, has nothing below it (`shown`), so nothing can be mounted
or made there (`Op.runAll`).

Mounts that stand apart do not hide each other: one that no later mount is above
is seen at its own place (`seen_of_apart`), and everything seen comes from some
mount at or above where it is seen (`seen_mem`).
-/
import Mathlib.Data.List.Basic
import Mathlib.Tactic.Common

namespace Keld

open List

/-- A thing and the path it is mounted at. -/
structure Mount (N C : Type) where
  place : List N
  content : C

namespace Mount

variable {N C : Type} [DecidableEq N]

/-- What is seen at a path, and where in it: the last mount at or above decides. -/
def seen (table : List (Mount N C)) (path : List N) : Option (C × List N) :=
  match table.reverse.find? fun mount => mount.place.isPrefixOf path with
  | some mount => some (mount.content, path.drop mount.place.length)
  | none => none

/-- What is really there: nothing is below a leaf. -/
def shown (leaf : C → Bool) (table : List (Mount N C)) (path : List N) : Option (C × List N) :=
  (seen table path).filter fun found => !leaf found.1 || found.2.isEmpty

section Seen

variable {table : List (Mount N C)} {path : List N}

variable {rest : List N}

theorem seen_eq_some {content : C} :
    seen table path = some (content, rest) ↔
      ∃ before mount after, table = before ++ mount :: after ∧ mount.place <+: path ∧
        (∀ later ∈ after, ¬ later.place <+: path) ∧ content = mount.content ∧
        rest = path.drop mount.place.length := by
  unfold seen
  constructor
  · intro h
    split at h
    · rename_i mount hfi
      cases h
      obtain ⟨hpl, before, after, hs, hb⟩ := find?_eq_some_iff_append.mp hfi
      refine ⟨after.reverse, mount, before.reverse, ?_, isPrefixOf_iff_prefix.mp hpl,
        fun later hl hlaterPlace => ?_, rfl, rfl⟩
      · rw [← reverse_reverse table, hs]
        simp
      · have hnot := hb later (mem_reverse.mp hl)
        rw [List.isPrefixOf_iff_prefix.mpr hlaterPlace] at hnot
        cases hnot
    · cases h
  · rintro ⟨before, mount, after, rfl, hpl, haf, rfl, rfl⟩
    have hfi : (before ++ mount :: after).reverse.find?
        (fun mount => mount.place.isPrefixOf path) = some mount := by
      refine find?_eq_some_iff_append.mpr
        ⟨List.isPrefixOf_iff_prefix.mpr hpl, after.reverse, before.reverse, by simp, ?_⟩
      intro later hl
      rw [Bool.not_eq_true', Bool.eq_false_iff]
      exact fun hlaterPlace => haf later (mem_reverse.mp hl)
        (List.isPrefixOf_iff_prefix.mp hlaterPlace)
    rw [hfi]

theorem seen_mem {content : C} (h : seen table path = some (content, rest)) :
    ∃ mount ∈ table, mount.content = content ∧ path = mount.place ++ rest := by
  obtain ⟨before, mount, after, rfl, ⟨tail, rfl⟩, -, rfl, rfl⟩ := seen_eq_some.mp h
  refine ⟨mount, mem_append_right _ (mem_cons_self ..), rfl, ?_⟩
  rw [drop_left]

theorem seen_of_apart {before after : List (Mount N C)} {mount : Mount N C}
    (hs : table = before ++ mount :: after)
    (haf : ∀ later ∈ after, ¬ later.place <+: mount.place) :
    seen table mount.place = some (mount.content, []) := by
  refine seen_eq_some.mpr ⟨before, mount, after, hs, prefix_refl _, haf, rfl, ?_⟩
  rw [drop_length]

end Seen

/-- What a tree is put together with. -/
inductive Op (N C : Type)
  /-- A directory is made, unless it is there. -/
  | directory (place : List N)
  | mount (new : Mount N C)

namespace Op

/-- What must be no leaf and not in one. -/
def base : Op N C → List N
  | .directory place => place
  | .mount new => new.place.dropLast

def mounts : Op N C → List (Mount N C)
  | .directory _ => []
  | .mount new => [new]

/-- One operation more, unless what is seen at its base is a leaf. -/
def run (leaf : C → Bool) (table : List (Mount N C)) (op : Op N C) : Option (List (Mount N C)) :=
  match seen table op.base with
  | some (content, _) => if leaf content then none else some (table ++ op.mounts)
  | none => some (table ++ op.mounts)

/-- All operations in order. -/
def runAll (leaf : C → Bool) (ops : List (Op N C)) : Option (List (Mount N C)) :=
  ops.foldlM (run leaf) []

/-- No leaf is mounted at or above the base of a later operation. -/
def Clear (leaf : C → Bool) (ops : List (Op N C)) : Prop :=
  ops.Pairwise fun earlier later => ∀ mount ∈ earlier.mounts,
    leaf mount.content = true → ¬ mount.place <+: later.base

variable {leaf : C → Bool} {table next : List (Mount N C)}

variable {ops : List (Op N C)}

theorem foldlM_run_of_clear (hc : Clear leaf ops)
    (ht : ∀ op ∈ ops, ∀ mount ∈ table, leaf mount.content = true → ¬ mount.place <+: op.base) :
    ops.foldlM (run leaf) table = some (table ++ ops.flatMap mounts) := by
  induction ops generalizing table with
  | nil => exact congrArg some (append_nil _).symm
  | cons op ops ih =>
    obtain ⟨hop, hops⟩ := pairwise_cons.mp hc
    have hr : run leaf table op = some (table ++ op.mounts) := by
      unfold run
      split
      · rename_i content rest hse
        obtain ⟨mount, hmo, hco, hpl⟩ := seen_mem hse
        rw [if_neg]
        intro hle
        rw [← hco] at hle
        exact ht op (mem_cons_self ..) mount hmo hle ⟨rest, hpl.symm⟩
      · rfl
    have hn : ∀ later ∈ ops, ∀ mount ∈ table ++ op.mounts, leaf mount.content = true →
        ¬ mount.place <+: later.base := by
      intro later hl mount hmo
      rcases mem_append.mp hmo with hmo | hmo
      · exact ht later (mem_cons_of_mem _ hl) mount hmo
      · exact hop later hl mount hmo
    rw [foldlM_cons, hr]
    show ops.foldlM (run leaf) (table ++ op.mounts) = _
    rw [ih hops hn, flatMap_cons, append_assoc]

theorem runAll_of_clear (h : Clear leaf ops) :
    runAll leaf ops = some (ops.flatMap mounts) := foldlM_run_of_clear h nofun

end Op

end Mount

end Keld
