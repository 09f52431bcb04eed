/-
# `Keld.Lib.Ring` — a queue in a fixed number of slots

`slots` never grows: what is pushed goes to the slot behind the last one taken,
modulo their number, and what is popped is taken from `head`.  `contents` is the
queue that the slots stand for, so `push` and `pop` are said of a list
(`contents_push`, `contents_pop`).
-/
import Mathlib.Data.List.Basic
import Mathlib.Data.Nat.ModEq
import Mathlib.Tactic.Common

namespace Keld

open List

/-- The slot `i` places behind the head. -/
def ringCell {α : Type} (slots : List (Option α)) (head i : ℕ) : Option α :=
  (slots[(head + i) % slots.length]?).join

structure Ring (α : Type) where
  slots : List (Option α)
  head : ℕ
  count : ℕ
  fits : count ≤ slots.length
  filled : ∀ i < count, (ringCell slots head i).isSome = true

variable {α : Type}

variable {head i j : ℕ} {slots : List (Option α)}

theorem ring_index_ne {n : ℕ} (hij : i < j) (hj : j < n) : (head + i) % n ≠ (head + j) % n := by
  intro he
  have hdvd : n ∣ head + j - (head + i) := (Nat.modEq_iff_dvd' (by omega)).mp he
  have hz := Nat.eq_zero_of_dvd_of_lt hdvd (by omega)
  omega

theorem ringCell_set_of_ne (hij : i ≠ j) (hi : i < slots.length) (hj : j < slots.length)
    (value : Option α) :
    ringCell (slots.set ((head + j) % slots.length) value) head i = ringCell slots head i := by
  have hne : (head + j) % slots.length ≠ (head + i) % slots.length := by
    rcases Nat.lt_or_gt_of_ne hij with h | h
    · exact (ring_index_ne h hj).symm
    · exact ring_index_ne h hi
  rw [ringCell, ringCell, length_set, getElem?_set_ne hne]

theorem ringCell_set (hj : j < slots.length) (value : Option α) :
    ringCell (slots.set ((head + j) % slots.length) value) head j = value := by
  rw [ringCell, length_set, getElem?_set_self (Nat.mod_lt _ (Nat.zero_lt_of_lt hj))]
  rfl

theorem ringCell_next (slots : List (Option α)) (head i : ℕ) :
    ringCell slots ((head + 1) % slots.length) i = ringCell slots head (i + 1) := by
  rw [ringCell, ringCell, Nat.mod_add_mod, Nat.add_assoc, Nat.add_comm 1 i]

/-- With the first cell cleared, the cells are counted from the next one. -/
theorem ringCell_popped (h : i + 1 < slots.length) (head : ℕ) :
    ringCell (slots.set (head % slots.length) none) ((head + 1) % slots.length) i =
      ringCell slots head (i + 1) := by
  have hn := ringCell_next (slots.set (head % slots.length) none) head i
  rw [length_set] at hn
  rw [hn]
  exact ringCell_set_of_ne (Nat.succ_ne_zero i) h (Nat.zero_lt_of_lt h) none

namespace Ring

def empty (capacity : ℕ) : Ring α where
  slots := List.replicate capacity none
  head := 0
  count := 0
  fits := Nat.zero_le _
  filled := fun _ h => (Nat.not_lt_zero _ h).elim

def capacity (r : Ring α) : ℕ := r.slots.length

/-- The queue, the oldest first. -/
def contents (r : Ring α) : List α := (List.range r.count).filterMap (ringCell r.slots r.head)

/-- Where there is a slot left. -/
def push (r : Ring α) (a : α) : Option (Ring α) :=
  if h : r.count < r.slots.length then
    some {
      slots := r.slots.set ((r.head + r.count) % r.slots.length) (some a)
      head := r.head
      count := r.count + 1
      fits := by
        rw [length_set]
        exact h
      filled := fun i hi => by
        rcases Nat.lt_succ_iff_lt_or_eq.mp hi with hlt | rfl
        · rw [ringCell_set_of_ne (Nat.ne_of_lt hlt) (Nat.lt_trans hlt h) h]
          exact r.filled i hlt
        · rw [ringCell_set h]
          rfl }
  else none

/-- The oldest, and its slot is cleared. -/
def pop (r : Ring α) : Option (α × Ring α) :=
  if h : 0 < r.count then
    (ringCell r.slots r.head 0).map fun a => (a, {
      slots := r.slots.set (r.head % r.slots.length) none
      head := (r.head + 1) % r.slots.length
      count := r.count - 1
      fits := by
        rw [length_set]
        exact Nat.le_trans (Nat.sub_le _ _) r.fits
      filled := fun i hi => by
        have hin : i + 1 < r.count := by omega
        rw [ringCell_popped (Nat.lt_of_lt_of_le hin r.fits)]
        exact r.filled (i + 1) hin })
  else none

theorem length_contents (r : Ring α) : r.contents.length = r.count := by
  have hal (n : ℕ) (hn : n ≤ r.count) :
      ((List.range n).filterMap (ringCell r.slots r.head)).length = n := by
    induction n with
    | zero => rfl
    | succ n ih =>
      obtain ⟨a, ha⟩ := Option.isSome_iff_exists.mp (r.filled n hn)
      rw [range_succ, filterMap_append, length_append, ih (Nat.le_of_succ_le hn),
        filterMap_cons_some ha]
      rfl
  exact hal r.count le_rfl

variable {r r' : Ring α} {a : α}

theorem contents_push (h : r.push a = some r') :
    r'.contents = r.contents ++ [a] ∧ r'.capacity = r.capacity := by
  rw [push] at h
  split_ifs at h with hlt
  cases h
  refine ⟨?_, length_set⟩
  rw [contents, range_succ, filterMap_append]
  congr 1
  · refine filterMap_congr fun i hi => ?_
    have hin := mem_range.mp hi
    exact ringCell_set_of_ne (Nat.ne_of_lt hin) (Nat.lt_trans hin hlt) hlt _
  · rw [filterMap_cons_some (ringCell_set hlt _), filterMap_nil]

theorem contents_pop (h : r.pop = some (a, r')) :
    r.contents = a :: r'.contents ∧ r'.capacity = r.capacity := by
  rw [pop] at h
  split_ifs at h with hpos
  obtain ⟨first, hf, he⟩ := Option.map_eq_some_iff.mp h
  cases he
  refine ⟨?_, length_set⟩
  have hra : List.range r.count = 0 :: (List.range (r.count - 1)).map Nat.succ := by
    rw [← range_succ_eq_map, Nat.sub_add_cancel hpos]
  rw [contents, hra, filterMap_cons_some hf, filterMap_map]
  refine congrArg (a :: ·) (filterMap_congr fun i hi => ?_)
  have hin : i + 1 < r.count := Nat.add_lt_of_lt_sub (mem_range.mp hi)
  exact (ringCell_popped (Nat.lt_of_lt_of_le hin r.fits) r.head).symm

theorem contents_le (r : Ring α) : r.contents.length ≤ r.capacity :=
  (length_contents r).symm ▸ r.fits

end Ring

end Keld
