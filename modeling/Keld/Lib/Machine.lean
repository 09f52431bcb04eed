/-
# `Keld.Lib.Machine` — deterministic machines, their runs and what a run emits

A machine has one initial state and a total step function.  A run is a list of inputs
and all nondeterminism is in that list, so "for every run" is "for every list".

* `run` is the state reached and `outcome` the outcome of one more input.
* `collect f` is the history: everything that `f` reads off the steps, in order.  "At
  most once over the whole run" is `Nodup` of a history, "strictly increasing" is
  `Pairwise (· < ·)`, "A before B" is a statement about its prefixes.
* `Guarded ok` restricts the runs to those whose environment keeps a promise, which may
  look at the inputs so far.

`run_induction` is the one induction over runs: what holds of the empty run and
survives one promised step holds of every run, with its history.
-/
import Mathlib.Data.List.Induction
import Mathlib.Tactic.Common

namespace Keld

open List

/-- A deterministic machine with states `σ`, inputs `ι` and outcomes `ω`. -/
structure Machine (σ ι ω : Type*) where
  init : σ
  step : σ → ι → σ × ω

namespace Machine

variable {σ ι ω β : Type*} (m : Machine σ ι ω)

/-- The state after the inputs `is`, from `s`. -/
def runFrom (s : σ) (is : List ι) : σ := is.foldl (fun s i => (m.step s i).1) s

/-- The state after the inputs `is`. -/
def run (is : List ι) : σ := m.runFrom m.init is

/-- The outcome of input `i` after the inputs `is`. -/
def outcome (is : List ι) (i : ι) : ω := (m.step (m.run is) i).2

/-- What `f` reads off the steps of a run from `s`, in order. -/
def collectFrom (f : σ → ι → ω → List β) : σ → List ι → List β
  | _, [] => []
  | s, i :: is => f s i (m.step s i).2 ++ collectFrom f (m.step s i).1 is

/-- What `f` reads off the steps of a run, in order. -/
def collect (f : σ → ι → ω → List β) (is : List ι) : List β := m.collectFrom f m.init is

@[simp] theorem run_nil : m.run [] = m.init := rfl

theorem runFrom_append (s : σ) (is js : List ι) :
    m.runFrom s (is ++ js) = m.runFrom (m.runFrom s is) js := by
  simp [runFrom]

theorem run_append (is js : List ι) : m.run (is ++ js) = m.runFrom (m.run is) js :=
  m.runFrom_append _ is js

theorem run_snoc (is : List ι) (i : ι) : m.run (is ++ [i]) = (m.step (m.run is) i).1 := by
  simp [run_append, runFrom]

@[simp] theorem collect_nil (f : σ → ι → ω → List β) : m.collect f [] = [] := rfl

theorem collectFrom_append (f : σ → ι → ω → List β) :
    ∀ (s : σ) (is js : List ι),
      m.collectFrom f s (is ++ js) = m.collectFrom f s is ++ m.collectFrom f (m.runFrom s is) js
  | _, [], _ => rfl
  | s, i :: is, js => by
    have ih := collectFrom_append f (m.step s i).1 is js
    simp only [cons_append, collectFrom, ih, append_assoc]
    rfl

theorem collect_append (f : σ → ι → ω → List β) (is js : List ι) :
    m.collect f (is ++ js) = m.collect f is ++ m.collectFrom f (m.run is) js :=
  m.collectFrom_append f m.init is js

@[simp] theorem collect_snoc (f : σ → ι → ω → List β) (is : List ι) (i : ι) :
    m.collect f (is ++ [i]) = m.collect f is ++ f (m.run is) i (m.outcome is i) := by
  simp [collect_append, collectFrom, outcome]

theorem collectFrom_snoc (f : σ → ι → ω → List β) (is js : List ι) (j : ι) :
    m.collectFrom f (m.run is) (js ++ [j]) =
      m.collectFrom f (m.run is) js ++ f (m.run (is ++ js)) j (m.outcome (is ++ js) j) := by
  rw [collectFrom_append, run_append, outcome, run_append]
  simp [collectFrom]

variable {is : List ι} {ok : List ι → ι → Prop}

/-- Every member of a history was emitted by one step of the run. -/
theorem mem_collect_iff (f : σ → ι → ω → List β) {b : β} :
    b ∈ m.collect f is ↔
      ∃ before i after, is = before ++ i :: after ∧ b ∈ f (m.run before) i (m.outcome before i) := by
  constructor
  · induction is using reverseRecOn with
    | nil => simp
    | append_singleton is i ih =>
      intro h
      rw [collect_snoc, mem_append] at h
      rcases h with h | h
      · obtain ⟨before, j, after, rfl, hb⟩ := ih h
        exact ⟨before, j, after ++ [i], by simp, hb⟩
      · exact ⟨is, i, [], rfl, h⟩
  · rintro ⟨before, i, after, rfl, hb⟩
    rw [show before ++ i :: after = (before ++ [i]) ++ after by simp, collect_append, collect_snoc]
    exact mem_append_left _ (mem_append_right _ hb)

/-- A segment whose first step emits something with property `p` has a last such step. -/
theorem exists_last_emission (f : σ → ι → ω → List β) (p : β → Prop) (is : List ι) (i : ι)
    (h : ∃ b ∈ f (m.run is) i (m.outcome is i), p b) (js : List ι) :
    ∃ mid j rest, i :: js = mid ++ j :: rest ∧
      (∃ b ∈ f (m.run (is ++ mid)) j (m.outcome (is ++ mid) j), p b) ∧
      ∀ b ∈ m.collectFrom f (m.run (is ++ mid ++ [j])) rest, ¬ p b := by
  induction js using reverseRecOn with
  | nil => exact ⟨[], i, [], rfl, by simpa using h, by simp [collectFrom]⟩
  | append_singleton js k ih =>
    by_cases hk : ∃ b ∈ f (m.run (is ++ i :: js)) k (m.outcome (is ++ i :: js) k), p b
    · exact ⟨i :: js, k, [], by simp, hk, by simp [collectFrom]⟩
    · obtain ⟨mid, j, rest, he, hj, hr⟩ := ih
      refine ⟨mid, j, rest ++ [k], ?_, hj, ?_⟩
      · rw [← cons_append, he, append_assoc, cons_append]
      · intro b hb hp
        rw [collectFrom_snoc, mem_append] at hb
        rcases hb with hb | hb
        · exact hr b hb hp
        · refine hk ⟨b, ?_, hp⟩
          rw [he]
          simpa using hb

/-! ## Promises of the environment, and induction over runs -/

/-- Every input of the run keeps the promise `ok` against the inputs before it. -/
def Guarded (ok : List ι → ι → Prop) (is : List ι) : Prop :=
  ∀ before i after, is = before ++ i :: after → ok before i

theorem guarded_snoc {i : ι} : Guarded ok (is ++ [i]) ↔ Guarded ok is ∧ ok is i := by
  constructor
  · intro h
    refine ⟨?_, h is i [] rfl⟩
    rintro before j after rfl
    exact h before j (after ++ [i]) (by simp)
  · rintro ⟨h, hi⟩ before j after he
    rcases eq_nil_or_concat after with rfl | ⟨init, last, rfl⟩
    · obtain ⟨rfl, hj⟩ := append_inj' he rfl
      cases hj
      exact hi
    · have he' : is ++ [i] = (before ++ j :: init) ++ [last] := by
        simpa using he
      obtain ⟨rfl, -⟩ := append_inj' he' rfl
      exact h before j init rfl

theorem Guarded.of_append {js : List ι} (h : Guarded ok (is ++ js)) : Guarded ok is := by
  rintro before i after rfl
  exact h before i (after ++ js) (by simp)

theorem guarded_trivial (is : List ι) : Guarded (fun _ _ => True) is := fun _ _ _ _ => trivial

theorem run_induction {P : List ι → σ → Prop} (init : P [] m.init)
    (step : ∀ is i, Guarded ok is → ok is i → P is (m.run is) → P (is ++ [i]) (m.run (is ++ [i])))
    (h : Guarded ok is) : P is (m.run is) := by
  induction is using reverseRecOn with
  | nil => exact init
  | append_singleton is i ih =>
    obtain ⟨hg, hi⟩ := guarded_snoc.mp h
    exact step is i hg hi (ih hg)

end Machine
end Keld
