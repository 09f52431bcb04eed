/-
# `Keld.Lib.Except` — reading a successful computation backwards

A validator is a sequence of checks, each of which passes a value on or stops
with an error.  That the whole succeeded says that every check did: `bind_ok`
takes one step apart, `forM_ok` a loop over a list, `require_ok` a plain test.
With them a proof reads a validator from its success without unfolding the
monad.  `ErrorsOf` bounds what can go wrong, and `Carries` runs two validators side
by side.
-/
import Mathlib.Data.List.Forall2
import Mathlib.Tactic.Common

namespace Keld

open List

universe u

variable {ε : Type*} {α β : Type u}

/-- Stops with `err` unless the test holds. -/
def require (test : Bool) (err : ε) : Except ε Unit := if test then .ok () else .error err

/-- The value of an option, or the error. -/
def orElseError (value : Option α) (err : ε) : Except ε α :=
  match value with
  | some a => .ok a
  | none => .error err

variable {err : ε} {value : Option α} {a : α} {f : α → Except ε β} {b : β} {l : List α}

@[simp] theorem require_ok {test : Bool} : require test err = .ok () ↔ test = true := by
  unfold require
  split_ifs with h <;> simp [h]

@[simp] theorem orElseError_ok : orElseError value err = .ok a ↔ value = some a := by
  cases value <;> simp [orElseError]

theorem bind_ok {x : Except ε α} : (x >>= f) = .ok b ↔ ∃ a, x = .ok a ∧ f a = .ok b := by
  cases x with
  | error err =>
    constructor
    · intro h
      cases h
    · rintro ⟨a, h, -⟩
      cases h
  | ok a =>
    constructor
    · intro h
      exact ⟨a, rfl, h⟩
    · rintro ⟨a', h, h'⟩
      cases h
      exact h'

theorem mapError_ok {ε' : Type*} {f : ε → ε'} {x : Except ε α} :
    x.mapError f = .ok a ↔ x = .ok a := by
  cases x with
  | error err => exact iff_of_false nofun nofun
  | ok a' => exact ⟨fun h => congrArg _ (Except.ok.inj h), fun h => congrArg _ (Except.ok.inj h)⟩

theorem bind_unit_ok {γ : Type} {x : Except ε Unit} {f : Unit → Except ε γ} {c : γ} :
    (x >>= f) = .ok c ↔ x = .ok () ∧ f () = .ok c := by
  rw [bind_ok]
  constructor
  · rintro ⟨⟨⟩, h, h'⟩
    exact ⟨h, h'⟩
  · rintro ⟨h, h'⟩
    exact ⟨(), h, h'⟩

theorem orElseError_bind_ok :
    (orElseError value err >>= f) = .ok b ↔ ∃ a, value = some a ∧ f a = .ok b := by
  simp only [bind_ok, orElseError_ok]

theorem forM_ok {f : α → Except ε PUnit} : l.forM f = .ok ⟨⟩ ↔ ∀ a ∈ l, f a = .ok ⟨⟩ := by
  induction l with
  | nil => simp [List.forM, pure, Except.pure]
  | cons a l ih =>
    rw [forM_eq_forM, forM_cons, bind_ok]
    constructor
    · rintro ⟨⟨⟩, h, h'⟩ b hb
      rcases mem_cons.mp hb with rfl | hb
      · exact h
      · exact ih.mp h' b hb
    · intro h
      exact ⟨⟨⟩, h a mem_cons_self, ih.mpr (fun b hb => h b (mem_cons_of_mem _ hb))⟩

/-- A loop that keeps what each turn passes on. -/
theorem mapM_ok {bs : List β} : l.mapM f = .ok bs ↔ List.Forall₂ (fun a b => f a = .ok b) l bs := by
  induction l generalizing bs with
  | nil =>
    rw [mapM_nil, forall₂_nil_left_iff]
    exact ⟨fun h => (Except.ok.inj h).symm, fun h => congrArg Except.ok h.symm⟩
  | cons a l ih =>
    rw [mapM_cons, bind_ok, forall₂_cons_left_iff]
    constructor
    · rintro ⟨b, hb, h⟩
      obtain ⟨rest, hr, h⟩ := bind_ok.mp h
      cases h
      exact ⟨b, rest, hb, ih.mp hr, rfl⟩
    · rintro ⟨b, rest, hb, hr, rfl⟩
      exact ⟨b, hb, bind_ok.mpr ⟨rest, ih.mpr hr, rfl⟩⟩

/-! ## What can go wrong -/

/-- Every error of the computation is of a kind. -/
def ErrorsOf (P : ε → Prop) (x : Except ε α) : Prop := ∀ err, x = .error err → P err

namespace ErrorsOf

variable {P : ε → Prop}

theorem ok (a : α) : ErrorsOf P (.ok a) := nofun

variable {f : α → Except ε β} {err : ε}

theorem bind {x : Except ε α} (hx : ErrorsOf P x) (hf : ∀ a, ErrorsOf P (f a)) :
    ErrorsOf P (x >>= f) := by
  cases x with
  | error err =>
    rintro _ ⟨⟩
    exact hx err rfl
  | ok a => exact hf a

theorem bindOf {x : Except ε α} (hx : ErrorsOf P x) (hf : ∀ a, x = .ok a → ErrorsOf P (f a)) :
    ErrorsOf P (x >>= f) := by
  cases x with
  | error err =>
    rintro _ ⟨⟩
    exact hx err rfl
  | ok a => exact hf a rfl

theorem require {test : Bool} (h : P err) : ErrorsOf P (require test err) := by
  cases test with
  | true => exact ok ()
  | false =>
    rintro _ ⟨⟩
    exact h

theorem orElseError {value : Option α} (h : P err) : ErrorsOf P (orElseError value err) := by
  cases value with
  | some a => exact ok a
  | none =>
    rintro _ ⟨⟩
    exact h

theorem mapError {ε' : Type*} {f : ε' → ε} {x : Except ε' α} (h : ∀ err, P (f err)) :
    ErrorsOf P (x.mapError f) := by
  cases x with
  | ok a => exact ok a
  | error err =>
    rintro _ ⟨⟩
    exact h err

end ErrorsOf

/-! ## Two computations side by side -/

/-- Where the first returns the second does too, with a related value; where the first fails the
second fails in the same way, unless it is excused. -/
def Carries (excused : Prop) (R : α → β → Prop) : Except ε α → Except ε β → Prop
  | .ok a, .ok b => R a b
  | .error err, .error err' => excused ∨ err' = err
  | .error _, .ok _ => excused
  | .ok _, .error _ => False

namespace Carries

variable {γ δ : Type u} {excused : Prop} {R : α → β → Prop} {x : Except ε α} {y : Except ε β}

theorem refl (x : Except ε α) : Carries excused (fun a b => b = a) x x := by
  cases x with
  | ok a => rfl
  | error err => exact .inr rfl

variable {a : α}

theorem pure {b : β} (h : R a b) : Carries (ε := ε) excused R (.ok a) (.ok b) := h

theorem bind {f : α → Except ε γ} {g : β → Except ε δ} {S : γ → δ → Prop}
    (h : Carries excused R x y) (hf : ∀ a b, x = .ok a → R a b → Carries excused S (f a) (g b)) :
    Carries excused S (x >>= f) (y >>= g) := by
  cases x with
  | ok a =>
    cases y with
    | ok b => exact hf a b rfl h
    | error err => exact h.elim
  | error err =>
    cases y with
    | ok b =>
      show Carries excused S (.error err) (g b)
      cases g b with
      | ok c => exact h
      | error err' => exact .inl h
    | error err' => exact h

theorem require {test test' : Bool} {err : ε} (h : test = true → test' = true)
    (h' : ¬ excused → test' = true → test = true) :
    Carries excused (fun _ _ => True) (require test err) (Keld.require test' err) := by
  cases test with
  | true =>
    rw [h rfl]
    exact trivial
  | false =>
    cases test' with
    | false => exact .inr rfl
    | true => exact Classical.byContradiction fun hno => nomatch h' hno rfl

theorem ok (h : Carries excused R x y) (hx : x = .ok a) : ∃ b, y = .ok b ∧ R a b := by
  subst hx
  cases y with
  | ok b => exact ⟨b, rfl, h⟩
  | error err => exact h.elim

theorem eq {x y : Except ε α} (h : Carries False (fun a b => b = a) x y) : y = x := by
  cases x with
  | ok a =>
    cases y with
    | ok b => exact congrArg Except.ok h
    | error err => exact h.elim
  | error err =>
    cases y with
    | ok b => exact h.elim
    | error err' => exact congrArg Except.error (h.resolve_left fun h => h)

end Carries

end Keld
