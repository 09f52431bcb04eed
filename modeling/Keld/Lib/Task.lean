/-
# `Keld.Lib.Task` — a sequential program among others, and what holds of it

A `Task` is a thread that runs its own code in order: `ask` is where it needs an answer
from outside (a clock, a system call, a lock that has to be free), and before the
answer any number of others may act.  All of that comes from a script, so "for every
interleaving and every behaviour of the outside" is "for every script".  Where a script
ends the task is cut, and its state still says what had happened.

`wp` is the weakest precondition over all scripts, with a postcondition for each way to
stop: `Q` where the task returns, `F` where it fails, `E` where it is cut.
-/
import Mathlib.Tactic.Common
import Keld.Lib.Proc

namespace Keld

/-- What a script holds: an act of another party, or an answer to the task. -/
inductive Entry (H A : Type) where
  | other (h : H)
  | answer (a : A)

/-- The state of a system and what the script still holds. -/
structure World (S H A : Type) where
  state : S
  script : List (Entry H A)

/-- Why a task stopped without a result. -/
inductive Stop (ε : Type) where
  | cut
  | failed (e : ε)

/-- A thread over the shared state `S`, among others that act by `H` and with answers `A`. -/
abbrev Task (S H A ε α : Type) := Proc (World S H A) (Stop ε) α

namespace Task

variable {S H A ε ε' α β σ : Type}

/-- The state as it stands. -/
def get : Task S H A ε S := fun w => (.ok w.state, w)

def modify (f : S → S) : Task S H A ε Unit := fun w => (.ok (), { w with state := f w.state })

/-- Fails. -/
def throw (e : ε) : Task S H A ε α := Proc.fail (.failed e)

/-- Stops where the script does not fit. -/
def cut : Task S H A ε α := Proc.fail .cut

/-- The others act, then the answer is there. -/
def turn (act : H → S → S) : S → List (Entry H A) → Except (Stop ε) A × World S H A
  | s, [] => (.error .cut, ⟨s, []⟩)
  | s, .other h :: rest => turn act (act h s) rest
  | s, .answer a :: rest => (.ok a, ⟨s, rest⟩)

/-- Asks the outside. -/
def ask (act : H → S → S) : Task S H A ε A := fun w => turn act w.state w.script

/-- An outcome as a value. -/
def attempt (x : Task S H A ε α) : Task S H A ε' (Except ε α) := fun w =>
  match x w with
  | (.ok a, w') => (.ok (.ok a), w')
  | (.error (.failed e), w') => (.ok (.error e), w')
  | (.error .cut, w') => (.error .cut, w')

/-- Repeats the body until it returns a result; each turn takes one unit of fuel. -/
def loop (body : σ → Task S H A ε (σ ⊕ α)) : ℕ → σ → Task S H A ε α
  | 0, _ => cut
  | fuel + 1, s => do
    match ← body s with
    | .inl s' => loop body fuel s'
    | .inr a => pure a

/-! ## Weakest preconditions -/

/-- `Q` if the task returned, `F` if it failed, `E` if it was cut. -/
def Post (Q : α → S → Prop) (F : ε → S → Prop) (E : S → Prop) :
    Except (Stop ε) α × World S H A → Prop
  | (.ok a, w) => Q a w.state
  | (.error (.failed e), w) => F e w.state
  | (.error .cut, w) => E w.state

/-- The postcondition holds whatever the script. -/
def wp (x : Task S H A ε α) (Q : α → S → Prop) (F : ε → S → Prop) (E : S → Prop) (s : S) : Prop :=
  ∀ script, Post Q F E (x ⟨s, script⟩)

section Rules

variable {Q Q' : α → S → Prop} {F F' : ε → S → Prop} {E E' : S → Prop} {s : S}

theorem wp_pure {a : α} (h : Q a s) : wp (pure a : Task S H A ε α) Q F E s := fun _ => h

theorem wp_throw {e : ε} (h : F e s) : wp (throw e : Task S H A ε α) Q F E s := fun _ => h

theorem wp_cut (h : E s) : wp (cut : Task S H A ε α) Q F E s := fun _ => h

theorem wp_get {Q : S → S → Prop} (h : Q s s) : wp (get : Task S H A ε S) Q F E s := fun _ => h

theorem wp_modify {Q : Unit → S → Prop} {f : S → S} (h : Q () (f s)) :
    wp (modify f : Task S H A ε Unit) Q F E s := fun _ => h

variable {x : Task S H A ε α} {body : σ → Task S H A ε (σ ⊕ α)} {l : σ}

theorem wp_bind {f : α → Task S H A ε β} {Q : β → S → Prop}
    (h : wp x (fun a => wp (f a) Q F E) F E s) : wp (x >>= f) Q F E s := by
  intro script
  have hx := h script
  rcases hr : x ⟨s, script⟩ with ⟨r, w⟩
  rw [hr] at hx
  cases r with
  | ok a =>
    rw [Proc.bind_run_ok hr]
    exact hx w.script
  | error e =>
    rw [Proc.bind_run_error hr]
    cases e with
    | cut | failed => exact hx

theorem wp_mono (h : wp x Q F E s) (hQ : ∀ a s, Q a s → Q' a s) (hF : ∀ e s, F e s → F' e s)
    (hE : ∀ s, E s → E' s) : wp x Q' F' E' s := by
  intro script
  have hx := h script
  rcases hr : x ⟨s, script⟩ with ⟨(e | e) | a, w⟩
  all_goals rw [hr] at hx
  · exact hE _ hx
  · exact hF _ _ hx
  · exact hQ _ _ hx

/-- What is true of both ways to stop may be used for the value. -/
theorem wp_attempt {Q : Except ε α → S → Prop} {F' : ε' → S → Prop}
    (h : wp x (fun a => Q (.ok a)) (fun e => Q (.error e)) E s) :
    wp (attempt x : Task S H A ε' (Except ε α)) Q F' E s := by
  intro script
  have hx := h script
  unfold attempt
  rcases hr : x ⟨s, script⟩ with ⟨(e | e) | a, w⟩
  all_goals rw [hr] at hx
  · exact hx
  · exact hx
  · exact hx

/-- The others keep `J`, and may stop anywhere in it. -/
theorem wp_ask {act : H → S → S} {Q : A → S → Prop} (J : S → Prop)
    (ha : ∀ h s, J s → J (act h s)) (hE : ∀ s, J s → E s) (hQ : ∀ a s, J s → Q a s)
    (hs : J s) : wp (ask act : Task S H A ε A) Q F E s := by
  intro script
  induction script generalizing s with
  | nil => exact hE s hs
  | cons entry rest ih =>
    cases entry with
    | other h => exact ih (ha h s hs)
    | answer a => exact hQ a s hs

/-- After a turn: `I` where it goes on, `Q` where it has a result. -/
def Next (I : σ → S → Prop) (Q : α → S → Prop) : σ ⊕ α → S → Prop
  | .inl l, s => I l s
  | .inr a, s => Q a s

theorem wp_loop_succ {fuel : ℕ}
    (h : wp (body l) (Next (fun l' s' => wp (loop body fuel l') Q F E s') Q) F E s) :
    wp (loop body (fuel + 1) l) Q F E s := by
  refine wp_bind (wp_mono h (fun r s' hr => ?_) (fun _ _ h => h) (fun _ h => h))
  cases r with
  | inl l' => exact hr
  | inr a => exact wp_pure hr

/-- What every turn keeps, the loop keeps. -/
theorem wp_loop (I : σ → S → Prop) (hb : ∀ l s, I l s → wp (body l) (Next I Q) F E s)
    (hE : ∀ l s, I l s → E s) (fuel : ℕ) (hs : I l s) :
    wp (loop body fuel l) Q F E s := by
  induction fuel generalizing l s with
  | zero => exact wp_cut (hE l s hs)
  | succ fuel ih =>
    refine wp_bind (wp_mono (hb l s hs) (fun r s' hr => ?_) (fun _ _ h => h) (fun _ h => h))
    cases r with
    | inl l' => exact ih hr
    | inr a => exact wp_pure hr

end Rules

/-! ## Cuts -/

/-- At most `len` entries are left, and `n` fewer where there is a result; none after a cut. -/
def Spent (n len : ℕ) : Except (Stop ε) α × World S H A → Prop
  | (.ok _, w) => w.script.length + n ≤ len
  | (.error (.failed _), w) => w.script.length ≤ len
  | (.error .cut, w) => w.script = []

/-- With fewer than `bound` entries the task takes at least `n` answers before it returns, gives
none back, and is cut only where the script has run out. -/
def Takes (bound : ℕ) (x : Task S H A ε α) (n : ℕ) : Prop :=
  ∀ w, w.script.length < bound → Spent n w.script.length (x w)

variable {bound : ℕ}

theorem takes_pure (a : α) : Takes bound (pure a : Task S H A ε α) 0 := fun _ _ => Nat.le_refl _

theorem takes_throw (e : ε) (n : ℕ) : Takes bound (throw e : Task S H A ε α) n :=
  fun _ _ => Nat.le_refl _

theorem takes_get : Takes bound (get : Task S H A ε S) 0 := fun _ _ => Nat.le_refl _

theorem takes_modify (f : S → S) : Takes bound (modify f : Task S H A ε Unit) 0 :=
  fun _ _ => Nat.le_refl _

theorem takes_ask (act : H → S → S) : Takes bound (ask act : Task S H A ε A) 1 := by
  rintro ⟨s, script⟩ -
  show Spent 1 script.length (turn act s script : Except (Stop ε) A × World S H A)
  induction script generalizing s with
  | nil => rfl
  | cons entry rest ih =>
    cases entry with
    | answer a => exact Nat.le_refl _
    | other h =>
      have hre := ih (act h s)
      rw [turn]
      rcases hr : (turn act (act h s) rest : Except (Stop ε) A × World S H A) with
        ⟨(e | e) | a, w⟩
      all_goals
        rw [hr] at hre
      · exact hre
      · exact Nat.le_succ_of_le hre
      · exact Nat.le_succ_of_le hre

variable {x : Task S H A ε α} {f : α → Task S H A ε β}

theorem Takes.weaken {b m n : ℕ} (h : Takes bound x m) (hb : b ≤ bound) (hn : n ≤ m) :
    Takes b x n := by
  intro w hw
  have hx := h w (Nat.lt_of_lt_of_le hw hb)
  rcases hr : x w with ⟨(e | e) | a, w'⟩
  all_goals
    rw [hr] at hx
    unfold Spent at hx ⊢
  · exact hx
  · exact hx
  · omega

theorem Takes.bind {m n : ℕ} (hx : Takes bound x m) (hf : ∀ a, Takes bound (f a) n) :
    Takes bound (x >>= f) (m + n) := by
  intro w hlt
  have hw := hx w hlt
  rcases hr : x w with ⟨r, w'⟩
  rw [hr] at hw
  cases r with
  | error e =>
    rw [Proc.bind_run_error hr]
    cases e with
    | cut | failed => exact hw
  | ok a =>
    rw [Proc.bind_run_ok hr]
    unfold Spent at hw
    have hw' := hf a w' (by omega)
    rcases hr' : f a w' with ⟨(e | e) | b, w''⟩
    all_goals
      rw [hr'] at hw'
      unfold Spent at *
    · exact hw'
    · omega
    · omega

theorem Takes.andThen {n : ℕ} (hx : Takes bound x 0) (hf : ∀ a, Takes bound (f a) n) :
    Takes bound (x >>= f) n :=
  (hx.bind hf).weaken (Nat.le_refl _) (Nat.le_of_eq (Nat.zero_add n).symm)

theorem Takes.attempt (h : Takes bound x 0) :
    Takes bound (attempt x : Task S H A ε' (Except ε α)) 0 := by
  intro w hlt
  have hx := h w hlt
  unfold Task.attempt
  rcases hr : x w with ⟨(e | e) | a, w'⟩
  all_goals rw [hr] at hx
  · exact hx
  · exact hx
  · exact hx

/-- Where every turn takes an answer, the script runs out before the fuel does. -/
theorem Takes.loop {body : σ → Task S H A ε (σ ⊕ α)} (hb : ∀ l, Takes bound (body l) 1)
    {fuel : ℕ} (hfu : bound ≤ fuel) (l : σ) : Takes bound (loop body fuel l) 0 := by
  induction fuel generalizing bound l with
  | zero =>
    intro w hlt
    omega
  | succ fuel ih =>
    intro w hlt
    have hw := hb l w hlt
    rcases hr : body l w with ⟨r, w₁⟩
    rw [hr] at hw
    rw [Task.loop]
    cases r with
    | error e =>
      rw [Proc.bind_run_error hr]
      cases e with
      | cut | failed => exact hw
    | ok r =>
      rw [Proc.bind_run_ok hr]
      unfold Spent at hw
      cases r with
      | inr a =>
        show w₁.script.length + 0 ≤ w.script.length
        omega
      | inl l' =>
        have htu : ∀ l, Takes (bound - 1) (body l) 1 :=
          fun l => (hb l).weaken (Nat.sub_le _ _) (Nat.le_refl _)
        have hre := ih htu (by omega) l' w₁ (by omega)
        show Spent 0 w.script.length (Task.loop body fuel l' w₁)
        rcases hr' : Task.loop body fuel l' w₁ with ⟨(e | e) | b, w''⟩
        all_goals
          rw [hr'] at hre
          unfold Spent at hre ⊢
        · exact hre
        · omega
        · omega

/-! ## A task that nobody else interrupts -/

/-- `wp`, and a count: a result costs at most `n` answers, and where `P` holds the task is cut
only with fewer than `n` answers left. -/
def Within (P : Prop) (n : ℕ) (x : Task S Empty A ε α) (Q : α → S → Prop) (F : ε → S → Prop)
    (E : S → Prop) (s : S) : Prop :=
  ∀ script, Post Q F E (x ⟨s, script⟩) ∧
    match x ⟨s, script⟩ with
    | (.ok _, w) => script.length ≤ w.script.length + n
    | (.error (.failed _), _) => True
    | (.error .cut, _) => P → script.length < n

section Within

variable {P : Prop} {m n : ℕ} {Q Q' : α → S → Prop} {F F' : ε → S → Prop} {E E' : S → Prop} {s : S}

theorem within_pure {a : α} (h : Q a s) : Within P n (pure a : Task S Empty A ε α) Q F E s :=
  fun script => ⟨h, Nat.le_add_right script.length n⟩

theorem within_throw {e : ε} (h : F e s) : Within P n (throw e : Task S Empty A ε α) Q F E s :=
  fun _ => ⟨h, trivial⟩

theorem within_get {Q : S → S → Prop} (h : Q s s) : Within P n (get : Task S Empty A ε S) Q F E s :=
  fun script => ⟨h, Nat.le_add_right script.length n⟩

theorem within_modify {Q : Unit → S → Prop} {f : S → S} (h : Q () (f s)) :
    Within P n (modify f : Task S Empty A ε Unit) Q F E s :=
  fun script => ⟨h, Nat.le_add_right script.length n⟩

theorem within_ask {act : Empty → S → S} {Q : A → S → Prop} (hE : E s) (hQ : ∀ a, Q a s) :
    Within P (n + 1) (ask act : Task S Empty A ε A) Q F E s := by
  intro script
  cases script with
  | nil => exact ⟨hE, fun _ => Nat.succ_pos n⟩
  | cons entry rest =>
    cases entry with
    | other h => exact h.elim
    | answer a => exact ⟨hQ a, Nat.succ_le_succ (Nat.le_add_right rest.length n)⟩

variable {x : Task S Empty A ε α} {f : α → Task S Empty A ε β} {R : α → S → Prop} {k : ℕ}

theorem within_bind {Q : β → S → Prop} (h : Within P m x (fun a => Within P n (f a) Q F E) F E s) :
    Within P (m + n) (x >>= f) Q F E s := by
  intro script
  obtain ⟨hp, hc⟩ := h script
  rcases hr : x ⟨s, script⟩ with ⟨(e | e) | a, w⟩
  all_goals rw [hr] at hp hc
  · rw [Proc.bind_run_error hr]
    exact ⟨hp, fun hP => Nat.lt_add_right n (hc hP)⟩
  · rw [Proc.bind_run_error hr]
    exact ⟨hp, trivial⟩
  · rw [Proc.bind_run_ok hr]
    obtain ⟨hp', hc'⟩ := hp w.script
    rcases hr' : f a ⟨w.state, w.script⟩ with ⟨(e | e) | b, w'⟩
    all_goals
      rw [hr'] at hp' hc'
      refine ⟨hp', ?_⟩
    · intro hP
      have := hc' hP
      omega
    · exact trivial
    · omega

theorem within_first {Q : β → S → Prop} (h : Within P 0 x (fun a => Within P n (f a) Q F E) F E s) :
    Within P n (x >>= f) Q F E s :=
  Nat.zero_add n ▸ within_bind h

theorem within_mono (h : Within P m x Q F E s) (hmn : m ≤ n) (hQ : ∀ a s, Q a s → Q' a s)
    (hF : ∀ e s, F e s → F' e s) (hE : ∀ s, E s → E' s) :
    Within P n x Q' F' E' s := by
  intro script
  obtain ⟨hp, hc⟩ := h script
  rcases hr : x ⟨s, script⟩ with ⟨(e | e) | a, w⟩
  all_goals rw [hr] at hp hc
  · exact ⟨hE _ hp, fun hP => Nat.lt_of_lt_of_le (hc hP) hmn⟩
  · exact ⟨hF _ _ hp, trivial⟩
  · exact ⟨hQ _ _ hp, Nat.le_trans hc (Nat.add_le_add_left hmn _)⟩

theorem within_call {Q : β → S → Prop} {G : ε → S → Prop} (h : Within P m x R G E s)
    (hf : ∀ a s, R a s → Within P n (f a) Q F E s) (hF : ∀ e s, G e s → F e s) (hk : m + n ≤ k) :
    Within P k (x >>= f) Q F E s :=
  within_mono (within_bind (within_mono h (Nat.le_refl m) hf hF (fun _ h => h))) hk
    (fun _ _ h => h) (fun _ _ h => h) (fun _ h => h)

theorem within_then {Q : β → S → Prop} (h : Within P m x R F E s)
    (hf : ∀ a s, R a s → Within P n (f a) Q F E s) (hk : m + n ≤ k) :
    Within P k (x >>= f) Q F E s :=
  within_call h hf (fun _ _ h => h) hk

theorem Within.wp (h : Within P n x Q F E s) : wp x Q F E s := fun script => (h script).1

/-- A loop whose every turn costs at most `k` answers and lowers its rank; `P` is enough fuel
for the rank it starts with. -/
theorem within_loop {body : σ → Task S Empty A ε (σ ⊕ α)} (I : ℕ → σ → S → Prop)
    (hb : ∀ r l s, I r l s → Within P k (body l) (Next (fun l' s' => ∃ r' < r, I r' l' s') Q) F E s)
    (hE : ∀ r l s, I r l s → E s) {fuel r : ℕ} (hfu : P → r < fuel) {l : σ} (hs : I r l s) :
    Within P (k * (r + 1)) (loop body fuel l) Q F E s := by
  induction fuel generalizing r l s with
  | zero => exact fun _ => ⟨hE r l s hs, fun hP => absurd (hfu hP) (Nat.not_lt_zero r)⟩
  | succ fuel ih =>
    have htu : Within P (k + k * r) (loop body (fuel + 1) l) Q F E s := by
      refine within_bind (within_mono (hb r l s hs) (Nat.le_refl _) (fun o s' ho => ?_)
        (fun _ _ h => h) (fun _ h => h))
      cases o with
      | inl l' =>
        obtain ⟨r', hlt, hI⟩ := ho
        have hr := ih (fun hP => Nat.lt_of_lt_of_le hlt (Nat.le_of_lt_succ (hfu hP))) hI
        exact within_mono hr (Nat.mul_le_mul_left k hlt) (fun _ _ h => h) (fun _ _ h => h)
          (fun _ h => h)
      | inr a =>
        exact within_mono (within_pure ho) (Nat.zero_le _) (fun _ _ h => h) (fun _ _ h => h)
          (fun _ h => h)
    have hc : k + k * r ≤ k * (r + 1) := Nat.le_of_eq (Nat.add_comm k (k * r))
    exact within_mono htu hc (fun _ _ h => h) (fun _ _ h => h) (fun _ h => h)

theorem Within.returns (h : Within P n x Q (fun _ _ => False) E s) (hP : P)
    {script : List (Entry Empty A)} (hn : n ≤ script.length) :
    ∃ a w, x ⟨s, script⟩ = (.ok a, w) ∧ Q a w.state := by
  obtain ⟨hp, hc⟩ := h script
  rcases hr : x ⟨s, script⟩ with ⟨(e | e) | a, w⟩
  all_goals rw [hr] at hp hc
  · exact absurd (hc hP) (Nat.not_lt.mpr hn)
  · exact hp.elim
  · exact ⟨a, w, rfl, hp⟩

end Within

end Task

end Keld
