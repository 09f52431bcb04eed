/-
# `Keld.Lib.Proc` — computations that keep their state when they fail

`Proc σ ε α` reads and changes a state and either returns or stops; a stopped
computation still says in which state it stopped, so what it had consumed or
written by then can be talked about.  The `bind_run_*` lemmas compute a sequence
from the outcome of its first part, `Proc.Keeps` is a property no step of a
computation ever loses, `Proc.Gives` says that a run returns with a given
postcondition unless it ends with such a property, and `Proc.Ensures` says one
thing of the runs that return and another of those that stop.
-/
import Mathlib.Tactic.Common

namespace Keld

/-- A computation over a state that it keeps when it fails. -/
def Proc (σ ε α : Type) := σ → Except ε α × σ

namespace Proc

variable {σ ε α β : Type}

instance : Monad (Proc σ ε) where
  pure a := fun s => (.ok a, s)
  bind x f := fun s =>
    match x s with
    | (.ok a, s') => f a s'
    | (.error e, s') => (.error e, s')

/-- Stops where it stands. -/
def fail (e : ε) : Proc σ ε α := fun s => (.error e, s)

/-- A pure computation that may stop. -/
def ofExcept (r : Except ε α) : Proc σ ε α := fun s => (r, s)

/-- The state as it stands. -/
def state : Proc σ ε σ := fun s => (.ok s, s)

/-- The same computation with its errors renamed. -/
def mapError {ε' : Type} (f : ε → ε') (x : Proc σ ε α) : Proc σ ε' α := fun s =>
  ((x s).1.mapError f, (x s).2)

/-- The results of `n` runs in a row. -/
def times (x : Proc σ ε α) : Nat → Proc σ ε (List α)
  | 0 => pure []
  | n + 1 => do
    let a ← x
    let rest ← times x n
    return a :: rest

@[simp] theorem pure_run (a : α) (s : σ) : (pure a : Proc σ ε α) s = (.ok a, s) := rfl

@[simp] theorem fail_run (e : ε) (s : σ) : (fail e : Proc σ ε α) s = (.error e, s) := rfl

@[simp] theorem ofExcept_run (r : Except ε α) (s : σ) : (ofExcept r : Proc σ ε α) s = (r, s) := rfl

variable {x : Proc σ ε α} {f : α → Proc σ ε β} {s' s'' : σ} {a : α} {e : ε} {r : Except ε α}
  {γ ε' : Type} {P escape : σ → Prop}

theorem bind_run_ok {s : σ} (h : x s = (.ok a, s')) : (x >>= f) s = f a s' := by
  show (match x s with
    | (.ok a, s') => f a s'
    | (.error e, s') => (.error e, s')) = f a s'
  rw [h]

theorem bind_run_error {s : σ} (h : x s = (.error e, s')) : (x >>= f) s = (.error e, s') := by
  show (match x s with
    | (.ok a, s') => f a s'
    | (.error e, s') => (.error e, s')) = (.error e, s')
  rw [h]

theorem ofExcept_bind_run {s : σ} (h : r = .ok a) : (ofExcept r >>= f) s = f a s := by
  rw [h]
  rfl

theorem bind_assoc (x : Proc σ ε α) (f : α → Proc σ ε β) (g : β → Proc σ ε γ) :
    x >>= f >>= g = x >>= fun a => f a >>= g := by
  funext s
  rcases hx : x s with ⟨e | a, s'⟩
  · rw [bind_run_error hx, bind_run_error (bind_run_error hx)]
  · rw [bind_run_ok hx]
    show (match (x >>= f) s with
      | (.ok b, s'') => g b s''
      | (.error e, s'') => (.error e, s'')) = _
    rw [bind_run_ok hx]
    rfl

theorem pure_bind (a : α) (f : α → Proc σ ε β) : pure a >>= f = f a := rfl

theorem bind_congr_run {y : Proc σ ε α} {s : σ} (h : x s = y s) : (x >>= f) s = (y >>= f) s := by
  rcases hy : y s with ⟨e | a, s'⟩
  · rw [bind_run_error hy, bind_run_error (h.trans hy)]
  · rw [bind_run_ok hy, bind_run_ok (h.trans hy)]

theorem mapError_run_ok {f : ε → ε'} {s : σ} (h : x s = (.ok a, s')) :
    x.mapError f s = (.ok a, s') := by
  unfold mapError
  rw [h]
  rfl

theorem mapError_run_error {f : ε → ε'} {s : σ} (h : x s = (.error e, s')) :
    x.mapError f s = (.error (f e), s') := by
  unfold mapError
  rw [h]
  rfl

theorem ofExcept_ok {s : σ} (h : (ofExcept r : Proc σ ε α) s = (.ok a, s')) :
    r = .ok a ∧ s' = s := by
  obtain ⟨hr, hs⟩ := Prod.mk.inj h
  exact ⟨hr, hs.symm⟩

theorem mapError_ok {f : ε → ε'} {s : σ} (h : x.mapError f s = (.ok a, s')) :
    x s = (.ok a, s') := by
  unfold mapError at h
  rcases hx : x s with ⟨r, t⟩
  rw [hx] at h
  cases r with
  | ok b =>
    cases h
    rfl
  | error err => cases h

/-- A sequence that returned: both parts did. -/
theorem bind_ok_iff {s : σ} {b : β} :
    (x >>= f) s = (.ok b, s'') ↔ ∃ a s', x s = (.ok a, s') ∧ f a s' = (.ok b, s'') := by
  rcases hx : x s with ⟨r, s'⟩
  cases r with
  | ok a =>
    rw [bind_run_ok hx]
    constructor
    · intro h
      exact ⟨a, s', rfl, h⟩
    · rintro ⟨a', t, h, h'⟩
      cases h
      exact h'
  | error e =>
    rw [bind_run_error hx]
    constructor
    · intro h
      cases h
    · rintro ⟨a', t, h, -⟩
      cases h

theorem ofExcept_bind_ok {s : σ} {b : β} (h : ((ofExcept r : Proc σ ε α) >>= f) s = (.ok b, s'')) :
    ∃ a, r = .ok a ∧ f a s = (.ok b, s'') := by
  obtain ⟨a, s', hr, hf⟩ := bind_ok_iff.mp h
  obtain ⟨hok, hs⟩ := ofExcept_ok hr
  exact ⟨a, hok, hs ▸ hf⟩

/-- A sequence that stopped: in its first part or in its second. -/
theorem bind_error_iff {s : σ} :
    (x >>= f) s = (.error e, s'') ↔
      x s = (.error e, s'') ∨ ∃ a s', x s = (.ok a, s') ∧ f a s' = (.error e, s'') := by
  rcases hx : x s with ⟨r, s'⟩
  cases r with
  | ok a =>
    rw [bind_run_ok hx]
    constructor
    · intro h
      exact .inr ⟨a, s', rfl, h⟩
    · rintro (h | ⟨a', t, h, h'⟩)
      · cases h
      · cases h
        exact h'
  | error e' =>
    rw [bind_run_error hx]
    constructor
    · intro h
      cases h
      exact .inl rfl
    · rintro (h | ⟨a', t, h, -⟩)
      · cases h
        rfl
      · cases h

/-- Where a sequence ends: where its first part failed, or where its second part ends. -/
theorem bind_ends {s : σ} (hf : ∀ e s', x s = (.error e, s') → P s')
    (hwe : ∀ a s', x s = (.ok a, s') → P (f a s').2) : P ((x >>= f) s).2 := by
  rcases hx : x s with ⟨r, s'⟩
  cases r with
  | ok a =>
    rw [bind_run_ok hx]
    exact hwe a s' hx
  | error e =>
    rw [bind_run_error hx]
    exact hf e s' hx

theorem returned_of_isOk {r : Except ε Unit × σ} (h : r.1.isOk = true) : ∃ s, r = (.ok (), s) := by
  obtain ⟨r, s⟩ := r
  cases r with
  | ok a => exact ⟨s, rfl⟩
  | error e => cases h

/-! ## What a computation never loses -/

/-- No outcome of the computation takes the property away. -/
def Keeps (P : σ → Prop) (x : Proc σ ε α) : Prop := ∀ s, P s → P (x s).2

theorem keeps_pure (P : σ → Prop) (a : α) : Keeps P (pure a : Proc σ ε α) := fun _ h => h

theorem keeps_ofExcept (P : σ → Prop) (r : Except ε α) : Keeps P (ofExcept r : Proc σ ε α) :=
  fun _ h => h

theorem Keeps.mapError (hx : Keeps P x) (f : ε → ε') : Keeps P (x.mapError f) := fun s hs => hx s hs

/-- A sequence keeps what both parts keep; the second may use what the first can return. -/
theorem Keeps.bindOf {Q : α → Prop} (hx : Keeps P x) (hre : ∀ s a s', x s = (.ok a, s') → Q a)
    (hf : ∀ a, Q a → Keeps P (f a)) : Keeps P (x >>= f) := by
  intro s hs
  have hx := hx s hs
  rcases hr : x s with ⟨r, s'⟩
  rw [hr] at hx
  cases r with
  | ok a =>
    rw [bind_run_ok hr]
    exact hf a (hre s a s' hr) s' hx
  | error e =>
    rw [bind_run_error hr]
    exact hx

theorem Keeps.bind (hx : Keeps P x) (hf : ∀ a, Keeps P (f a)) : Keeps P (x >>= f) :=
  hx.bindOf (Q := fun _ => True) (fun _ _ _ _ => trivial) (fun a _ => hf a)

theorem Keeps.times (hx : Keeps P x) (n : Nat) : Keeps P (x.times n) := by
  induction n with
  | zero => exact keeps_pure P _
  | succ n ih => exact hx.bind (fun a => ih.bind (fun rest => keeps_pure P _))

/-! ## What a computation gives unless it ends in an escape -/

/-- The run returns and meets the postcondition, unless it ends with the escape. -/
def Gives (escape : σ → Prop) (x : Proc σ ε α) (s : σ) (post : α → σ → Prop) : Prop :=
  escape (x s).2 ∨ ∃ a s', x s = (.ok a, s') ∧ post a s'

theorem gives_pure {s : σ} {post : α → σ → Prop} (h : post a s) :
    Gives escape (pure a : Proc σ ε α) s post := .inr ⟨a, s, rfl, h⟩

theorem Gives.bind {s : σ} {mid : α → σ → Prop} {post : β → σ → Prop} (hx : Gives escape x s mid)
    (hke : ∀ a, Keeps escape (f a)) (hf : ∀ a s', mid a s' → Gives escape (f a) s' post) :
    Gives escape (x >>= f) s post := by
  rcases hx with hes | ⟨a, s', hx, hmid⟩
  · left
    rcases hr : x s with ⟨r, s'⟩
    rw [hr] at hes
    cases r with
    | ok a =>
      rw [bind_run_ok hr]
      exact hke a s' hes
    | error e =>
      rw [bind_run_error hr]
      exact hes
  · unfold Gives
    rw [bind_run_ok hx]
    exact hf a s' hmid

/-- Repeating a computation that takes one item off a list takes the whole list off. -/
theorem Gives.times (hke : Keeps escape x) {before : List γ → σ → Prop} {rel : γ → α → Prop}
    (hx : ∀ c l s, before (c :: l) s → Gives escape x s (fun a s' => rel c a ∧ before l s'))
    (l : List γ) {s : σ} (hs : before l s) :
    Gives escape (x.times l.length) s (fun as s' => List.Forall₂ rel l as ∧ before [] s') := by
  induction l generalizing s with
  | nil => exact gives_pure ⟨.nil, hs⟩
  | cons c l ih =>
    refine (hx c l s hs).bind (fun a => (hke.times _).bind (fun _ => keeps_pure _ _)) ?_
    rintro a s' ⟨hrel, hs'⟩
    refine (ih hs').bind (fun _ => keeps_pure _ _) ?_
    rintro as s'' ⟨hre, hs''⟩
    exact gives_pure ⟨.cons hrel hre, hs''⟩

/-! ## What a computation ensures however it ends -/

/-- Where it returns the postcondition holds, and where it stops the other property. -/
def Ensures (Q : α → σ → Prop) (E : σ → Prop) (x : Proc σ ε α) (s : σ) : Prop :=
  match x s with
  | (.ok a, s') => Q a s'
  | (.error _, s') => E s'

section Ensures

variable {Q Q' : α → σ → Prop} {E : σ → Prop} {s : σ}

theorem ensures_ofExcept {r : Except ε α} (hok : ∀ a, r = .ok a → Q a s)
    (heo : ∀ e, r = .error e → E s) : Ensures Q E (ofExcept r : Proc σ ε α) s := by
  cases r with
  | ok a => exact hok a rfl
  | error e => exact heo e rfl

theorem ensures_state {Q : σ → σ → Prop} (h : Q s s) : Ensures Q E (state : Proc σ ε σ) s := h

variable {x : Proc σ ε α} {a : α} {s' : σ} {e : ε}

theorem Ensures.bind {f : α → Proc σ ε β} {R : β → σ → Prop} (hx : Ensures Q E x s)
    (hf : ∀ a s', Q a s' → Ensures R E (f a) s') :
    Ensures R E (x >>= f) s := by
  rcases hr : x s with ⟨r, s'⟩
  rw [Ensures, hr] at hx
  rw [Ensures]
  cases r with
  | ok a =>
    rw [bind_run_ok hr]
    exact hf a s' hx
  | error e =>
    rw [bind_run_error hr]
    exact hx

theorem Ensures.mono (hx : Ensures Q E x s) (hmo : ∀ a s', Q a s' → Q' a s') :
    Ensures Q' E x s := by
  rcases hr : x s with ⟨r, s'⟩
  rw [Ensures, hr] at hx
  rw [Ensures, hr]
  cases r with
  | ok a => exact hmo a s' hx
  | error e => exact hx

theorem Ensures.of_ok (hx : x s = (.ok a, s')) (h : Q a s') : Ensures Q E x s := by
  rw [Ensures, hx]
  exact h

theorem Ensures.of_error (hx : x s = (.error e, s')) (h : E s') : Ensures Q E x s := by
  rw [Ensures, hx]
  exact h

theorem Ensures.ok (h : Ensures Q E x s) (hx : x s = (.ok a, s')) : Q a s' := by
  rw [Ensures, hx] at h
  exact h

theorem Ensures.error (h : Ensures Q E x s) (hx : x s = (.error e, s')) : E s' := by
  rw [Ensures, hx] at h
  exact h

end Ensures

end Proc

/-! ## Programs that pull their input

A decoder does not own its input: it asks for more of it as often as it likes
and goes on by what it is given, an error included.  Run against a reader it
changes the reader's state and nothing else, so it keeps whatever the reader keeps. -/

inductive Pull (ε β α : Type) where
  | done (a : α)
  /-- Asks for at most `room` items. -/
  | pull (room : ℕ) (next : Except ε β → Pull ε β α)

namespace Pull

variable {σ ε ε' β α : Type}

/-- An error of the reader is handed to the program and ends nothing. -/
def run (reader : ℕ → Proc σ ε β) : Pull ε β α → Proc σ ε' α
  | .done a => pure a
  | .pull room next => fun s =>
    let answer := reader room s
    run reader (next answer.1) answer.2

theorem run_ok {reader : ℕ → Proc σ ε β} {P : σ → Prop} (hrdr : ∀ room, Proc.Keeps P (reader room))
    (program : Pull ε β α) {s : σ} (hs : P s) :
    ∃ a s', (program.run reader : Proc σ ε' α) s = (.ok a, s') ∧ P s' := by
  induction program generalizing s with
  | done a => exact ⟨a, s, rfl, hs⟩
  | pull room next ih => exact ih (reader room s).1 (hrdr room s hs)

end Pull

end Keld
