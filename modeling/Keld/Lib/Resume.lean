/-
# `Keld.Lib.Resume` — plans of durable steps that survive being cut

A transaction writes one durable step after another and may be cut between any two;
whoever takes over sees only what was durable.

* A `Plan` says what comes next at each *position*, given the *decisions* taken from
  outside; `remaining d p` is everything left to do at `p`.  If a step already taken
  never binds later decisions (`Settled`), a partial path followed by what remains at
  its end is all of what remained at its beginning: `Path.resume`.
* A run is a list of writes to a store, and `Tracks p s ws p'` says that they follow
  the plan from `p` to `p'`: each is a step of the plan, or one that it does not see.
  Cutting an owner's run and starting another's tracks the plan again:
  `tracks_of_interrupted`.
-/
import Mathlib.Data.List.Basic
import Mathlib.Tactic.Common

namespace Keld

open List

/-- What comes next at each position, given the decisions; every step goes down in rank. -/
structure Plan (P L D : Type*) where
  step : D → P → Option (L × P)
  rank : P → ℕ
  rank_lt : ∀ {d p l p'}, step d p = some (l, p') → rank p' < rank p

namespace Plan

variable {P L D : Type*} (plan : Plan P L D)

/-- The steps left at `p`, and the position where none is left. -/
def remaining (d : D) (p : P) : List L × P :=
  match h : plan.step d p with
  | none => ([], p)
  | some (l, p') =>
    have := plan.rank_lt h
    let rest := remaining d p'
    (l :: rest.1, rest.2)
termination_by plan.rank p

theorem remaining_of_done {d : D} {p : P} (h : plan.step d p = none) :
    plan.remaining d p = ([], p) := by
  rw [remaining]
  split
  · rfl
  · rename_i h'
    rw [h] at h'
    cases h'

theorem remaining_of_step {d : D} {p p' : P} {l : L} (h : plan.step d p = some (l, p')) :
    plan.remaining d p = (l :: (plan.remaining d p').1, (plan.remaining d p').2) := by
  rw [remaining]
  split
  · rename_i h'
    rw [h] at h'
    cases h'
  · rename_i h'
    rw [h] at h'
    cases h'
    rfl

/-- Decisions that agree wherever the steps lead leave the same to do. -/
theorem remaining_congr {d d' : D} (Q : P → Prop) (hsa : ∀ p, Q p → plan.step d p = plan.step d' p)
    (hcl : ∀ p l p', Q p → plan.step d p = some (l, p') → Q p') {p : P} (hp : Q p) :
    plan.remaining d p = plan.remaining d' p := by
  induction hn : plan.rank p using Nat.strongRecOn generalizing p with
  | ind n ih =>
    subst hn
    have hst := hsa p hp
    cases hs : plan.step d p with
    | none =>
      rw [hs] at hst
      rw [plan.remaining_of_done hs, plan.remaining_of_done hst.symm]
    | some next =>
      obtain ⟨l, p'⟩ := next
      rw [hs] at hst
      have hta := ih (plan.rank p') (plan.rank_lt hs) (hcl p l p' hp hs) rfl
      rw [plan.remaining_of_step hs, plan.remaining_of_step hst.symm, hta]

/-- Steps taken one after another, each under decisions of its own. -/
inductive Path : P → List L → P → Prop
  | nil {p} : Path p [] p
  | cons {d p l p₁ ls p'} : plan.step d p = some (l, p₁) → Path p₁ ls p' → Path p (l :: ls) p'

/-- A step taken does not bind what is decided after it. -/
def Settled : Prop :=
  ∀ d p l p', plan.step d p = some (l, p') →
    ∀ d', ∃ d₀, plan.step d₀ p = some (l, p') ∧ plan.remaining d₀ p' = plan.remaining d' p'

variable {plan}

/-- What was done, followed by what is left, is what there was to do. -/
theorem Path.resume (hse : plan.Settled) {p p' : P} {ls : List L} (h : plan.Path p ls p')
    (d : D) : ∃ d₀, plan.remaining d₀ p =
      (ls ++ (plan.remaining d p').1, (plan.remaining d p').2) := by
  induction h with
  | nil => exact ⟨d, rfl⟩
  | @cons d₁ p l p₁ ls p' hs _ ih =>
    obtain ⟨d₂, ih⟩ := ih
    obtain ⟨d₀, hs₀, hsa⟩ := hse d₁ p l p₁ hs d₂
    refine ⟨d₀, ?_⟩
    rw [plan.remaining_of_step hs₀, hsa, ih]
    rfl

/-- The plan of one that has taken its decisions. -/
def under (plan : Plan P L D) (d : D) : Plan P L Unit where
  step := fun _ => plan.step d
  rank := plan.rank
  rank_lt := plan.rank_lt

theorem Path.remaining_eq {d : D} {p p' : P} {ls : List L} (h : (plan.under d).Path p ls p') :
    plan.remaining d p = (ls ++ (plan.remaining d p').1, (plan.remaining d p').2) := by
  induction h with
  | nil => rfl
  | cons hs _ ih =>
    rw [plan.remaining_of_step hs, ih]
    rfl

end Plan

/-! ## Runs of writes that follow a plan -/

section Tracking

variable {P L D S W : Type*} (plan : Plan P L D) (apply : S → W → S) (label : W → Option L)
  (at' : P → S → Prop)

/-- The writes follow the plan from a position to another, in step with the store. -/
inductive Tracks : P → S → List W → P → Prop
  | nil {p s} : at' p s → Tracks p s [] p
  | silent {p s w ws p'} : at' p s → label w = none → Tracks p (apply s w) ws p' →
      Tracks p s (w :: ws) p'
  | step {d p s w l p₁ ws p'} : at' p s → label w = some l → plan.step d p = some (l, p₁) →
      Tracks p₁ (apply s w) ws p' → Tracks p s (w :: ws) p'

variable {plan apply label at'}

section

variable {p p' : P} {s : S} {ws : List W} (h : Tracks plan apply label at' p s ws p')
include h

theorem Tracks.start : at' p s := by
  cases h with
  | nil h | silent h _ _ | step h _ _ _ => exact h

theorem Tracks.finish : at' p' (ws.foldl apply s) := by
  induction h with
  | nil h => exact h
  | silent _ _ _ ih | step _ _ _ _ ih => exact ih

theorem Tracks.path : plan.Path p (ws.filterMap label) p' := by
  induction h with
  | nil _ => exact .nil
  | silent _ hl _ ih => simpa [filterMap_cons, hl] using ih
  | step _ hl hs _ ih =>
    rw [filterMap_cons, hl]
    exact .cons hs ih

end

section

variable {d : D} {p p' : P} {s : S} {ws : List W}
  (h : Tracks (plan.under d) apply label at' p s ws p')
include h

theorem Tracks.of_under : Tracks plan apply label at' p s ws p' := by
  induction h with
  | nil h => exact .nil h
  | silent h hl _ ih => exact .silent h hl ih
  | step h hl hs _ ih => exact .step h hl hs ih

theorem Tracks.remaining_eq (hd : plan.step d p' = none) :
    plan.remaining d p = (ws.filterMap label, p') := by
  rw [h.path.remaining_eq, plan.remaining_of_done hd, append_nil]

end

theorem Tracks.append {p p₁ p' : P} {s : S} {ws ws' : List W}
    (h : Tracks plan apply label at' p s ws p₁)
    (h' : Tracks plan apply label at' p₁ (ws.foldl apply s) ws' p') :
    Tracks plan apply label at' p s (ws ++ ws') p' := by
  induction h with
  | nil _ => exact h'
  | silent hat hl _ ih => exact .silent hat hl (ih h')
  | step hat hl hs _ ih => exact .step hat hl hs (ih h')

/-- A tracked run can be cut anywhere. -/
theorem Tracks.cut {p p' : P} {s : S} {ws ws' : List W}
    (h : Tracks plan apply label at' p s (ws ++ ws') p') :
    ∃ q, Tracks plan apply label at' p s ws q ∧
      Tracks plan apply label at' q (ws.foldl apply s) ws' p' := by
  induction ws generalizing p s with
  | nil => exact ⟨p, .nil h.start, h⟩
  | cons w ws ih =>
    cases h with
    | silent hat hl h =>
      obtain ⟨q, h1, h2⟩ := ih h
      exact ⟨q, .silent hat hl h1, h2⟩
    | step hat hl hs h =>
      obtain ⟨q, h1, h2⟩ := ih h
      exact ⟨q, .step hat hl hs h1, h2⟩

/-- Owners that follow one another, each cut wherever it happens to be. -/
inductive Interrupted {O : Type*} (run : O → S → List W) (apply : S → W → S) :
    S → List W → S → Prop
  | start {s} : Interrupted run apply s [] s
  | cut {s ws s' o ws₁ ws₂} : Interrupted run apply s ws s' → run o s' = ws₁ ++ ws₂ →
      Interrupted run apply s (ws ++ ws₁) (ws₁.foldl apply s')

theorem Interrupted.foldl_eq {O : Type*} {run : O → S → List W} {s s' : S} {ws : List W}
    (h : Interrupted run apply s ws s') : s' = ws.foldl apply s := by
  induction h with
  | start => rfl
  | cut _ _ ih => rw [foldl_append, ← ih]

/-- If every owner tracks the plan, then so do owners that cut one another off. -/
theorem tracks_of_interrupted {O : Type*} {run : O → S → List W}
    (hr : ∀ o p s, at' p s → ∃ p', Tracks plan apply label at' p s (run o s) p')
    {p : P} {s s' : S} {ws : List W} (h : Interrupted run apply s ws s') (hp : at' p s) :
    ∃ p', Tracks plan apply label at' p s ws p' := by
  induction h with
  | start => exact ⟨p, .nil hp⟩
  | @cut ws s' o ws₁ ws₂ hi hcut ih =>
    obtain ⟨p₁, htrk⟩ := ih
    have hat : at' p₁ s' := by
      rw [hi.foldl_eq]
      exact htrk.finish
    obtain ⟨p₂, hown⟩ := hr o p₁ s' hat
    rw [hcut] at hown
    obtain ⟨q, hq, -⟩ := hown.cut
    refine ⟨q, htrk.append ?_⟩
    rw [← hi.foldl_eq]
    exact hq

/-- Every write of a run, with the store it was made to. -/
def trail (apply : S → W → S) : S → List W → List (S × W)
  | _, [] => []
  | s, w :: ws => (s, w) :: trail apply (apply s w) ws

/-- Each single write of a tracked run is a step of the plan, or one it does not see. -/
theorem Tracks.mem_trail {p p' : P} {s s₁ : S} {ws : List W} {w : W}
    (h : Tracks plan apply label at' p s ws p') (hm : (s₁, w) ∈ trail apply s ws) :
    ∃ p₁, at' p₁ s₁ ∧ (label w = none ∧ at' p₁ (apply s₁ w) ∨ ∃ d l p₂, label w = some l ∧
      plan.step d p₁ = some (l, p₂) ∧ at' p₂ (apply s₁ w)) := by
  induction h with
  | nil _ => cases hm
  | @silent p s w' ws p' hat hl hta ih =>
    rcases mem_cons.mp hm with he | hm
    · cases he
      exact ⟨p, hat, .inl ⟨hl, hta.start⟩⟩
    · exact ih hm
  | @step d p s w' l p₂ ws p' hat hl hs hta ih =>
    rcases mem_cons.mp hm with he | hm
    · cases he
      exact ⟨p, hat, .inr ⟨d, l, p₂, hl, hs, hta.start⟩⟩
    · exact ih hm

end Tracking

end Keld
