/-
# `Keld.Lib.Trace` — laws of a log

A log grows at its end.  `Always P` says that every event was right when it
happened, `P` being what the events before it allow; one event more keeps it
exactly where the event is right (`always_snoc`).
-/
import Mathlib.Tactic.Common
import Mathlib.Data.List.Induction

namespace Keld

open List

section Snoc

variable {α : Type*} {a b : α} {l : List α}

theorem mem_snoc : a ∈ l ++ [b] ↔ a ∈ l ∨ a = b := by
  rw [mem_append, mem_singleton]

theorem mem_of_snoc (h : a ∈ l ++ [b]) (hne : a ≠ b) : a ∈ l := (mem_snoc.mp h).resolve_right hne

end Snoc

variable {E : Type}

/-- Every event of the log is allowed by what came before it. -/
def Always (P : List E → E → Prop) (log : List E) : Prop :=
  ∀ before e after, log = before ++ e :: after → P before e

theorem always_nil (P : List E → E → Prop) : Always P [] := by
  intro before e after h
  cases before with
  | nil | cons => cases h

variable {P : List E → E → Prop} {log : List E} {e : E}

theorem always_snoc : Always P (log ++ [e]) ↔ Always P log ∧ P log e := by
  constructor
  · intro h
    refine ⟨?_, h log e [] rfl⟩
    rintro before e' after rfl
    exact h before e' (after ++ [e]) (by simp)
  · rintro ⟨h, he⟩ before e' after heq
    rcases eq_nil_or_concat after with rfl | ⟨after', e'', rfl⟩
    · obtain ⟨rfl, hl⟩ := append_inj' heq rfl
      cases hl
      exact he
    · have hcut : log ++ [e] = (before ++ e' :: after') ++ [e''] := by
        rw [heq]
        simp
      obtain ⟨rfl, -⟩ := append_inj' hcut rfl
      exact h before e' after' rfl

theorem Always.mono {Q : List E → E → Prop} (h : Always P log)
    (hPQ : ∀ before e, P before e → Q before e) : Always Q log :=
  fun before e after he => hPQ before e (h before e after he)

theorem Always.of_mem (h : Always P log) (he : e ∈ log) :
    ∃ before after, log = before ++ e :: after ∧ P before e := by
  obtain ⟨before, after, heq⟩ := append_of_mem he
  exact ⟨before, after, heq, h before e after heq⟩

theorem Always.append {l : List E} (h : Always P log) (hl : ∀ before e, e ∈ l → P before e) :
    Always P (log ++ l) := by
  induction l using reverseRecOn with
  | nil => rwa [append_nil]
  | append_singleton l e ih =>
    rw [← append_assoc, always_snoc]
    refine ⟨ih (fun before e' he' => hl before e' (mem_append_left _ he')), ?_⟩
    exact hl _ e (mem_append_right _ (mem_singleton_self e))

end Keld
