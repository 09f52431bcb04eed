/-
# `Keld.Guardian.Interference` — what the other threads leave to the worker

`Shared m s` ties the state that the threads share to the phase of the log.
Every act of another thread keeps it and is a `Rely`: the worker's own
variables stay, what a held lock protects stays, and the phase keeps its stage
and attempt.  `Runs` is the weakest precondition of a worker's task whose log
is in order however it stops; at each question the worker may assume a `Rely`.
-/
import Keld.Guardian.Tells

namespace Keld.Guardian

open Keld.Runtime

/-- The shared state is what the phase remembers. -/
structure Shared (m : Phase) (s : HostState) : Prop where
  log : phase s.log = some m
  denied : s.recovery.denied = m.denied
  ready : s.recovery.initialReady = m.ready
  release : s.recovery.releaseAttempt.isSome = true → m.release = true
  acknowledged : s.recovery.shutdownAcknowledged = true → m.acknowledged = true
  current : s.current = m.group.map (Registered.mk m.attempt)
  stopping : s.stopping = true → m.denied = true
  pid : ∀ pid, m.group = some pid → pid ≠ 0

/-- From `m` and `s` the other threads can only get to such `m'` and `s'`. -/
structure Rely (m : Phase) (s : HostState) (m' : Phase) (s' : HostState) : Prop where
  worker : s'.worker = s.worker
  recoveryLocked : s'.recoveryLocked = s.recoveryLocked
  currentLocked : s'.currentLocked = s.currentLocked
  recovery : s.recoveryLocked = true → s'.recovery = s.recovery
  current : s.currentLocked = true → s'.current = s.current
  expected : s'.recovery.expectedAttempt = s.recovery.expectedAttempt
  stage : m'.stage = m.stage
  attempt : m'.attempt = m.attempt
  release : s.recoveryLocked = true → m'.release = m.release
  denied : m.denied = true → m'.denied = true
  acknowledged : m.acknowledged = true → m'.acknowledged = true
  /-- Only a shutdown takes the group. -/
  group : m'.group = m.group ∨ m'.group = none ∧ m'.denied = true ∧ m'.fault ≠ .claim
  fault : m'.fault = m.fault ∨ m.fault = .claim ∧ m'.fault = .clean ∧ m'.group = none
  closures : closuresOf s'.log = closuresOf s.log

theorem Rely.refl (m : Phase) (s : HostState) : Rely m s m s where
  worker := rfl
  recoveryLocked := rfl
  currentLocked := rfl
  recovery := fun _ => rfl
  current := fun _ => rfl
  expected := rfl
  stage := rfl
  attempt := rfl
  release := fun _ => rfl
  denied := id
  acknowledged := id
  group := .inl rfl
  fault := .inl rfl
  closures := rfl

theorem Rely.trans {m₁ m₂ m₃ : Phase} {s₁ s₂ s₃ : HostState} (h : Rely m₁ s₁ m₂ s₂)
    (h' : Rely m₂ s₂ m₃ s₃) : Rely m₁ s₁ m₃ s₃ where
  worker := h'.worker.trans h.worker
  recoveryLocked := h'.recoveryLocked.trans h.recoveryLocked
  currentLocked := h'.currentLocked.trans h.currentLocked
  recovery := fun hl => (h'.recovery (h.recoveryLocked.trans hl)).trans (h.recovery hl)
  current := fun hl => (h'.current (h.currentLocked.trans hl)).trans (h.current hl)
  expected := h'.expected.trans h.expected
  stage := h'.stage.trans h.stage
  attempt := h'.attempt.trans h.attempt
  release := fun hl => (h'.release (h.recoveryLocked.trans hl)).trans (h.release hl)
  denied := fun hd => h'.denied (h.denied hd)
  acknowledged := fun ha => h'.acknowledged (h.acknowledged ha)
  group := by
    rcases h'.group with hs | ht
    · rcases h.group with hs' | ⟨hn, hden, hcl⟩
      · exact .inl (hs.trans hs')
      · refine .inr ⟨hs.trans hn, h'.denied hden, ?_⟩
        rcases h'.fault with hf | ⟨hf, -, -⟩
        · rwa [hf]
        · exact absurd hf hcl
    · exact .inr ht
  fault := by
    rcases h'.fault with hs | ⟨hcl, hcn, hn⟩
    · rw [hs]
      rcases h.fault with hs' | ⟨hcl, hcn, hn⟩
      · exact .inl hs'
      · refine .inr ⟨hcl, hcn, ?_⟩
        rcases h'.group with hg | ⟨hg, -, -⟩
        · rw [hg, hn]
        · exact hg
    · rcases h.fault with hs | ⟨-, hcn', -⟩
      · exact .inr ⟨hs ▸ hcl, hcn, hn⟩
      · rw [hcl] at hcn'
        cases hcn'
  closures := h'.closures.trans h.closures

variable {m' : Phase} {e : HostEvent}

section

variable {m : Phase} {s : HostState} (h : Shared m s)
include h

/-- An event that concerns only the log. -/
theorem Shared.note (hs : m.step e = some m')
    (hg : m'.group = m.group) (hatt : m'.attempt = m.attempt)
    (hden : m'.denied = m.denied) (hr : m'.ready = m.ready)
    (hrel : m'.release = m.release) (hac : m'.acknowledged = m.acknowledged) :
    Shared m' (s.note e) where
  log := by
    show phase (s.log ++ [e]) = some m'
    rw [phase_snoc, h.log]
    exact hs
  denied := h.denied.trans hden.symm
  ready := h.ready.trans hr.symm
  release := hrel ▸ h.release
  acknowledged := hac ▸ h.acknowledged
  current := by
    rw [hg, hatt]
    exact h.current
  stopping := hden ▸ h.stopping
  pid := hg ▸ h.pid

theorem Shared.snoc (hs : m.step e = some m') : phase (s.log ++ [e]) = some m' := by
  rw [phase_snoc, h.log]
  exact hs

theorem Shared.group_none : m.group = none ↔ s.current = none := by
  rw [h.current]
  cases m.group <;> simp

end

theorem Shared.current_some {m : Phase} {s : HostState} {g : Registered} (h : Shared m s)
    (hg : s.current = some g) : m.group = some g.groupPid ∧ g.attempt = m.attempt := by
  have hc := h.current
  rw [hg] at hc
  cases hm : m.group with
  | none =>
    rw [hm] at hc
    cases hc
  | some pid =>
    rw [hm] at hc
    cases hc
    exact ⟨rfl, rfl⟩

section Acts

variable {m : Phase} {s : HostState}

/-- An act that got through: the phase and the state after it. -/
def Kept (m : Phase) (s s' : HostState) : Prop := ∃ m', Shared m' s' ∧ Rely m s m' s'

theorem Kept.refl (h : Shared m s) : Kept m s s := ⟨m, h, Rely.refl m s⟩

theorem Kept.trans {s' s'' : HostState} (h : Kept m s s')
    (h' : ∀ m', Shared m' s' → Rely m s m' s' → Kept m' s' s'') : Kept m s s'' := by
  obtain ⟨m', hs', hr⟩ := h
  obtain ⟨m'', hs'', hr'⟩ := h' m' hs' hr
  exact ⟨m'', hs'', hr.trans hr'⟩

/-- An act on the recovery decision, while nobody holds its lock. -/
theorem Shared.decide {e : HostEvent} {recovery : RecoveryState} {stopping : Bool} (m' : Phase)
    (h : Shared m s) (hlock : s.recoveryLocked = false) (hst : m.step e = some m')
    (hke : m' =
      { m with
        gone := false
        ready := m'.ready
        release := m'.release
        denied := m'.denied
        acknowledged := m'.acknowledged })
    (hmo : m.denied = true → m'.denied = true)
    (hmo' : m.acknowledged = true → m'.acknowledged = true)
    (hexp : recovery.expectedAttempt = s.recovery.expectedAttempt)
    (hden : recovery.denied = m'.denied) (hr : recovery.initialReady = m'.ready)
    (hrel : recovery.releaseAttempt.isSome = true → m'.release = true)
    (hack : recovery.shutdownAcknowledged = true → m'.acknowledged = true)
    (hcl : closureOf e = none)
    (hs : stopping = true → m'.denied = true) :
    Kept m s ({ s with recovery := recovery, stopping := stopping }.note e) := by
  have hg : m'.group = m.group := by rw [hke]
  have hatt : m'.attempt = m.attempt := by rw [hke]
  have hstg : m'.stage = m.stage := by rw [hke]
  have hfa : m'.fault = m.fault := by rw [hke]
  refine ⟨m', ⟨h.snoc hst, hden, hr, hrel, hack, ?_, hs, ?_⟩, ?_⟩
  · rw [hg, hatt]
    exact h.current
  · rw [hg]
    exact h.pid
  · exact
      { worker := rfl
        recoveryLocked := rfl
        currentLocked := rfl
        recovery := fun hl => by
          rw [hlock] at hl
          cases hl
        current := fun _ => rfl
        expected := hexp
        stage := hstg
        attempt := hatt
        release := fun hl => by
          rw [hlock] at hl
          cases hl
        denied := hmo
        acknowledged := hmo'
        group := .inl hg
        fault := .inl hfa
        closures := by
          show closuresOf (s.log ++ [e]) = closuresOf s.log
          rw [closuresOf_snoc, hcl]
          exact List.append_nil _ }

section

variable (h : Shared m s) (hlock : s.recoveryLocked = false)
include h hlock

theorem Shared.arm : Kept m s ({ s with recovery := s.recovery.arm }.note .armed) := by
  by_cases hden : m.denied = true
  · have harm : s.recovery.arm = s.recovery := if_pos (h.denied.trans hden)
    rw [harm]
    refine Shared.decide { m with gone := false } h hlock ?_ rfl id id rfl h.denied h.ready h.release
      h.acknowledged rfl h.stopping
    exact if_pos hden
  · have hrd : s.recovery.denied ≠ true := fun hd => hden (h.denied.symm.trans hd)
    by_cases hr : m.ready = false
    · have harm : s.recovery.arm = { s.recovery with initialReady := true } := by
        rw [RecoveryState.arm, if_neg hrd, if_pos]
        rw [h.ready, hr, Bool.not_false]
      rw [harm]
      refine Shared.decide { m with gone := false, ready := true } h hlock ?_ rfl id id rfl
        h.denied rfl h.release h.acknowledged rfl
        h.stopping
      exact (if_neg hden).trans (if_pos hr)
    · have harm : s.recovery.arm =
          { s.recovery with releaseAttempt := s.recovery.retiredAttempt.bind checkedSucc } := by
        rw [RecoveryState.arm, if_neg hrd, if_neg]
        rw [h.ready, eq_true_of_ne_false hr]
        exact nofun
      rw [harm]
      refine Shared.decide { m with gone := false, release := true } h hlock ?_ rfl id id rfl
        h.denied h.ready (fun _ => rfl) h.acknowledged rfl
        h.stopping
      exact (if_neg hden).trans (if_neg hr)

theorem Shared.deny (stopping : Bool) :
    Kept m s ({ s with recovery := s.recovery.deny, stopping := stopping }.note .denied) :=
  Shared.decide { m with gone := false, denied := true } h hlock rfl rfl (fun _ => rfl) id rfl rfl
    h.ready nofun h.acknowledged rfl (fun _ => rfl)

theorem Shared.acknowledge :
    Kept m s ({ s with
      recovery := { s.recovery with shutdownAcknowledged := true } }.note .acknowledged) :=
  Shared.decide { m with gone := false, acknowledged := true } h hlock rfl rfl id (fun _ => rfl) rfl
    h.denied h.ready h.release (fun _ => rfl) rfl h.stopping

end

theorem Shared.terminate (h : Shared m s) (ok : Bool) :
    Kept m s (s.note (.terminated m.attempt ok)) := by
  have hs : m.step (.terminated m.attempt ok) = some { m with gone := ok } := if_pos rfl
  refine ⟨_, h.note hs rfl rfl rfl rfl rfl rfl, ?_⟩
  exact
    { Rely.refl m s with
      closures := by
        show closuresOf (s.log ++ [_]) = closuresOf s.log
        rw [closuresOf_snoc]
        exact List.append_nil _ }

/-- A shutdown takes the group out of the worker's hands. -/
theorem Shared.take {g : Registered} (h : Shared m s) (hlock : s.currentLocked = false)
    (hs : s.stopping = true) (hg : s.current = some g) :
    Kept m s ({ s with current := none }.note (.taken g.attempt)) := by
  obtain ⟨hgr, hatt⟩ := h.current_some hg
  have hst : m.step (.taken g.attempt) = some { m with
      gone := false, group := none, fault := if m.fault = .claim then .clean else m.fault } :=
    if_pos ⟨hatt, by simp [hgr], h.stopping hs⟩
  refine ⟨_, ⟨h.snoc hst, h.denied, h.ready, h.release, h.acknowledged, rfl, h.stopping, nofun⟩, ?_⟩
  exact
    { worker := rfl
      recoveryLocked := rfl
      currentLocked := rfl
      recovery := fun _ => rfl
      current := fun hl => by
        rw [hlock] at hl
        cases hl
      expected := rfl
      stage := rfl
      attempt := rfl
      release := fun _ => rfl
      denied := id
      acknowledged := id
      group := by
        refine .inr ⟨rfl, h.stopping hs, ?_⟩
        split_ifs with hcl
        · exact nofun
        · exact hcl
      fault := by
        by_cases hcl : m.fault = .claim
        · exact .inr ⟨hcl, if_pos hcl, rfl⟩
        · exact .inl (if_neg hcl)
      closures := by
        show closuresOf (s.log ++ [_]) = closuresOf s.log
        rw [closuresOf_snoc]
        exact List.append_nil _ }

/-- An act of another thread. -/
theorem Shared.act (h : Shared m s) (a : HostAct) : Kept m s (s.act a) := by
  cases a <;> rw [HostState.act]
  case arm =>
    split_ifs with hlock
    · exact Kept.refl h
    · exact h.arm (eq_false_of_ne_true hlock)
  case deny =>
    split_ifs with hlock
    · exact Kept.refl h
    · exact h.deny (eq_false_of_ne_true hlock) s.stopping
  case stop =>
    split_ifs with hlock
    · exact Kept.refl h
    · exact h.deny (eq_false_of_ne_true hlock) true
  case acknowledge =>
    split_ifs with hlock
    · exact Kept.refl h
    · exact h.acknowledge (by simp_all)
  case failCurrent attempt ok =>
    split_ifs with hlock
    · exact Kept.refl h
    · cases hg : s.current with
      | none => exact Kept.refl h
      | some g =>
        dsimp only
        split_ifs with hatt
        · rw [← hatt, (h.current_some hg).2]
          exact h.terminate ok
        · exact Kept.refl h
  case failSafe ok =>
    split_ifs with hlock
    · exact Kept.refl h
    · obtain ⟨hf, hs⟩ : s.currentLocked = false ∧ s.stopping = true := by
        simpa using hlock
      cases hg : s.current with
      | none => exact Kept.refl h
      | some g =>
        refine (h.take hf hs hg).trans (fun m' h' hr => ?_)
        have he := h'.terminate ok
        rw [hr.attempt, ← (h.current_some hg).2] at he
        exact he

end Acts

/-! ## Running the worker -/

/-- The log is in order, and the shared state is what its phase remembers. -/
def Lawful (s : HostState) : Prop := ∃ m, Shared m s

/-- Whatever the script, the task returns with `Q`, and the state is lawful however it stops. -/
def Runs {α : Type} (x : HostTask α) (Q : α → HostState → Prop) (s : HostState) : Prop :=
  Task.wp x Q (fun _ => Lawful) Lawful s

section Runs

variable {α β : Type} {m : Phase} {s : HostState} {Q : α → HostState → Prop}

theorem Shared.lawful (h : Shared m s) : Lawful s := ⟨m, h⟩

variable {x : HostTask α} {F : RuntimeError → HostState → Prop}

theorem runs_bind {f : α → HostTask β} {Q : β → HostState → Prop}
    (h : Runs x (fun a => Runs (f a) Q) s) : Runs (x >>= f) Q s := Task.wp_bind h

theorem Runs.mono {Q' : α → HostState → Prop} (h : Runs x Q s) (hQ : ∀ a s, Q a s → Q' a s) :
    Runs x Q' s :=
  Task.wp_mono h hQ (fun _ _ h => h) (fun _ h => h)

theorem runs_pure {a : α} (h : Q a s) : Runs (pure a) Q s := Task.wp_pure h

theorem runs_throw (h : Shared m s) (e : RuntimeError) : Runs (throw e) Q s :=
  Task.wp_throw h.lawful

theorem runs_get {Q : HostState → HostState → Prop} (h : Q s s) : Runs get Q s := Task.wp_get h

theorem runs_modify {Q : Unit → HostState → Prop} {f : HostState → HostState} (h : Q () (f s)) :
    Runs (modify f) Q s := Task.wp_modify h

theorem runs_attempt {Q : Except RuntimeError α → HostState → Prop}
    (h : Task.wp x (fun a => Q (.ok a)) (fun e => Q (.error e)) Lawful s) :
    Runs (Task.attempt x) Q s := Task.wp_attempt h

theorem Runs.attempt {Q' : Except RuntimeError α → HostState → Prop} (h : Runs x Q s)
    (hok : ∀ a s, Q a s → Q' (.ok a) s) (heo : ∀ e s, Lawful s → Q' (.error e) s) :
    Runs (Task.attempt x) Q' s :=
  runs_attempt (Task.wp_mono h hok heo (fun _ h => h))

section

variable {Q : Answer → HostState → Prop} (h : Shared m s)
  (hQ : ∀ a m' s', Shared m' s' → Rely m s m' s' → Q a s')
include h hQ

theorem wp_ask_rely : Task.wp ask Q F Lawful s := by
  refine Task.wp_ask (Kept m s) (fun a t ht => ?_) (fun t ht => ?_) (fun a t ht => ?_) (Kept.refl h)
  · exact ht.trans (fun m' h' _ => h'.act a)
  · obtain ⟨m', h', -⟩ := ht
    exact h'.lawful
  · obtain ⟨m', h', hr⟩ := ht
    exact hQ a m' t h' hr

theorem runs_ask : Runs ask Q s := wp_ask_rely h hQ

end

theorem runs_goOn {Q : Unit → HostState → Prop} (h : Shared m s)
    (hQ : ∀ m' s', Shared m' s' → Rely m s m' s' → Q () s') : Runs goOn Q s :=
  runs_bind (runs_ask h (fun _ m' s' h' hr => runs_pure (hQ m' s' h' hr)))

theorem wp_call {Q : Option RuntimeError → HostState → Prop} (h : Shared m s)
    (hQ : ∀ a m' s', Shared m' s' → Rely m s m' s' → Q a s') :
    Task.wp call Q F Lawful s :=
  Task.wp_bind (wp_ask_rely h (fun a m' s' h' hr => Task.wp_pure (hQ a.result m' s' h' hr)))

theorem wp_callOrFail {Q : Unit → HostState → Prop} (h : Shared m s)
    (hQ : ∀ m' s', Shared m' s' → Rely m s m' s' → Q () s')
    (hF : ∀ e m' s', Shared m' s' → Rely m s m' s' → F e s') :
    Task.wp callOrFail Q F Lawful s := by
  refine Task.wp_bind (wp_call h (fun result m' s' h' hr => ?_))
  cases result with
  | none => exact Task.wp_pure (hQ m' s' h' hr)
  | some e => exact Task.wp_throw (hF e m' s' h' hr)

theorem runs_call {Q : Option RuntimeError → HostState → Prop} (h : Shared m s)
    (hQ : ∀ a m' s', Shared m' s' → Rely m s m' s' → Q a s') : Runs call Q s := wp_call h hQ

theorem runs_expired {Q : Bool → HostState → Prop} (h : Shared m s)
    (hQ : ∀ late m' s', Shared m' s' → Rely m s m' s' → Q late s') : Runs expired Q s :=
  runs_bind (runs_ask h (fun a m' s' h' hr => runs_pure (hQ a.late m' s' h' hr)))

theorem runs_pollControl {Q : ControlRead → HostState → Prop} (h : Shared m s)
    (hQ : ∀ read m' s', Shared m' s' → Rely m s m' s' → Q read s') : Runs pollControl Q s :=
  runs_bind (runs_ask h (fun a m' s' h' hr => runs_pure (hQ a.read m' s' h' hr)))

theorem runs_callOrFail {Q : Unit → HostState → Prop} (h : Shared m s)
    (hQ : ∀ m' s', Shared m' s' → Rely m s m' s' → Q () s') : Runs callOrFail Q s :=
  wp_callOrFail h hQ (fun _ _ _ h' _ => h'.lawful)

end Runs

end Keld.Guardian
