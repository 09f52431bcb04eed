/-
# `Keld.Guardian.HostLaw` — the worker keeps the order

Between records the worker's own variables are what the stage of its phase says
(`WorkerAt`).  A record that the phase expects takes the worker from one such
state to another (`on*_runs`); any other record makes it fail (`on*_refuses`).
-/
import Keld.Guardian.Interference

namespace Keld.Guardian

open Keld.Runtime GenerationControlRecord

/-! ## The worker's own variables -/

/-- The lease that is held in a stage. -/
def Stage.lease (stage : Stage) (n : ℕ) : Option Lease :=
  match stage with
  | .minted => some ⟨n, true⟩
  | .running => some ⟨n, false⟩
  | _ => none

/-- There is an attempt between its PREPARED and its CLEARED. -/
def Stage.current (stage : Stage) (n : ℕ) : Option ℕ :=
  match stage with
  | .minted | .running | .acked => some n
  | _ => none

/-- The worker's variables, and the attempt that recovery expects, at a stage. -/
structure WorkerAt (stage : Stage) (n : ℕ) (w : Worker) (expected : ℕ) : Prop where
  rest : stage = .idle ∨ stage = .asked ∨ stage = .minted ∨ stage = .running ∨ stage = .acked
  lease : w.lease = stage.lease n
  currentAttempt : w.currentAttempt = stage.current n
  revokedAttempt : w.revokedAttempt = if stage = .acked then some n else none
  pending : w.pendingPrepare.map (·.attempt) = if stage = .asked then some (n + 1) else none
  expected : expected = if stage = .idle ∨ stage = .asked then n + 1 else n

/-- Between two records. -/
structure Resting (m : Phase) (s : HostState) : Prop where
  shared : Shared m s
  worker : WorkerAt m.stage m.attempt s.worker s.recovery.expectedAttempt
  clean : m.fault = .clean
  recoveryFree : s.recoveryLocked = false
  currentFree : s.currentLocked = false
  closures : closuresOf s.log = []

def Rests (s : HostState) : Prop := ∃ m, Resting m s

/-- The peer closed between two records, and everything is given up. -/
structure Closed (m : Phase) (s : HostState) : Prop where
  shared : Shared m s
  clean : m.fault = .clean
  leased : ¬ m.stage.leased
  group : m.group = none
  denied : m.denied = true
  acknowledged : m.acknowledged = true
  lease : s.worker.lease = none
  closures : closuresOf s.log = [0]

def Closes (s : HostState) : Prop := ∃ m, Closed m s

section

variable {m m' : Phase} {s s' : HostState}

theorem WorkerAt.rely (h : WorkerAt m.stage m.attempt s.worker s.recovery.expectedAttempt)
    (hr : Rely m s m' s') :
    WorkerAt m'.stage m'.attempt s'.worker s'.recovery.expectedAttempt := by
  rw [hr.stage, hr.attempt, hr.worker, hr.expected]
  exact h

theorem Rely.clean (hr : Rely m s m' s') (h : m.fault = .clean) : m'.fault = .clean := by
  rcases hr.fault with hf | ⟨-, hf, -⟩
  · rw [hf, h]
  · exact hf

theorem Rely.groupless (hr : Rely m s m' s') (h : m.group = none) : m'.group = none := by
  rcases hr.group with hg | ⟨hg, -, -⟩
  · rw [hg, h]
  · exact hg

theorem Resting.rely (h : Resting m s) (hs : Shared m' s') (hr : Rely m s m' s') :
    Resting m' s' where
  shared := hs
  worker := h.worker.rely hr
  clean := hr.clean h.clean
  recoveryFree := hr.recoveryLocked.trans h.recoveryFree
  currentFree := hr.currentLocked.trans h.currentFree
  closures := hr.closures.trans h.closures

/-- Where no group has been retained for the attempt, there is none. -/
theorem Shared.ungrouped (h : Shared m s)
    (hs : m.stage = .idle ∨ m.stage = .asked ∨ m.stage = .minted) : m.group = none := by
  have hte := tells_of_phase h.log
  cases hg : m.group with
  | none => rfl
  | some pid =>
    rcases hs with hi | hak | hmi
    · rw [hte.empty (.inl hi)] at hg
      cases hg
    · rw [hte.empty (.inr hak)] at hg
      cases hg
    · exact absurd (hte.group pid hg).mem (hte.minted_fresh hmi pid)

end

/-! ## PREPARE -/

section Handlers

variable {m : Phase} {s : HostState} {r : GenerationControlRecord} {e : ℕ}

/-- The phase has moved on to a record that was in order, and the worker has not. -/
structure Moving (m : Phase) (stage : Stage) (s : HostState) : Prop where
  shared : Shared m s
  worker : WorkerAt stage m.attempt s.worker s.recovery.expectedAttempt
  clean : m.fault = .clean
  recoveryFree : s.recoveryLocked = false
  currentFree : s.currentLocked = false
  closures : closuresOf s.log = []

variable {stage : Stage} {Q : Unit → HostState → Prop} {n expected pid : ℕ} {w : Worker}
  {event : HostEvent} {F : RuntimeError → HostState → Prop}

theorem Moving.rely {m' : Phase} {s' : HostState} (h : Moving m stage s) (hs : Shared m' s')
    (hr : Rely m s m' s') : Moving m' stage s' where
  shared := hs
  worker := by
    rw [hr.attempt, hr.worker, hr.expected]
    exact h.worker
  clean := hr.clean h.clean
  recoveryFree := hr.recoveryLocked.trans h.recoveryFree
  currentFree := hr.currentLocked.trans h.currentFree
  closures := hr.closures.trans h.closures

theorem runs_setWorker {f : Worker → Worker} (h : Q () { s with worker := f s.worker }) :
    Runs (setWorker f) Q s := runs_modify h

theorem onPrepare_runs (h : Moving m .idle s) (hak : m.stage = .asked)
    (hr : r.attempt = m.attempt + 1) : Runs (onPrepare r e) (fun _ => Rests) s := by
  refine runs_bind (runs_goOn h.shared (fun m₁ s₁ h₁ hr₁ => ?_))
  refine runs_bind (runs_get ?_)
  dsimp only
  split_ifs with hbad
  · exact runs_throw h₁ _
  refine runs_bind (runs_goOn h₁ (fun m₂ s₂ h₂ hr₂ => ?_))
  refine runs_bind (runs_get ?_)
  have hmov : Moving m₂ .idle s₂ := (h.rely h₁ hr₁).rely h₂ hr₂
  have hs : m₂.stage = .asked := (hr₁.trans hr₂).stage.trans hak
  have hatt : r.attempt = m₂.attempt + 1 := by rw [(hr₁.trans hr₂).attempt, hr]
  have he : ∀ deadline, Rests { s₂ with
      worker := { s₂.worker with pendingPrepare := some r, initialDecisionDeadline := deadline } } := by
    intro deadline
    refine ⟨m₂, { h₂ with }, ⟨?_, ?_, ?_, ?_, ?_, ?_⟩, hmov.clean, hmov.recoveryFree,
      hmov.currentFree, hmov.closures⟩
    all_goals rw [hs]
    · exact .inr (.inl rfl)
    · exact hmov.worker.lease
    · exact hmov.worker.currentAttempt
    · exact hmov.worker.revokedAttempt
    · exact congrArg some hatt
    · exact hmov.worker.expected
  split_ifs with hla
  · exact runs_bind (runs_setWorker (runs_setWorker (he true)))
  · exact runs_setWorker (he _)

/-- What is in a worker's variables says in which stage it is. -/
theorem WorkerAt.idle_of (h : WorkerAt stage n w expected) (hp : w.pendingPrepare = none)
    (hc : w.currentAttempt = none) : stage = .idle := by
  rcases h.rest with rfl | rfl | rfl | rfl | rfl
  · rfl
  · have := h.pending
    rw [hp] at this
    cases this
  all_goals
    have := h.currentAttempt
    rw [hc] at this
    cases this

theorem WorkerAt.of_current {k : ℕ} (h : WorkerAt stage n w expected)
    (hc : w.currentAttempt = some k) :
    k = n ∧ (stage = .minted ∨ stage = .running ∨ stage = .acked) := by
  have hs := h.currentAttempt
  rw [hc] at hs
  rcases h.rest with rfl | rfl | rfl | rfl | rfl
  all_goals cases hs
  · exact ⟨rfl, .inl rfl⟩
  · exact ⟨rfl, .inr (.inl rfl)⟩
  · exact ⟨rfl, .inr (.inr rfl)⟩

/-- A record that is neither in order nor only wrong about the group. -/
def Phase.Refuses (m : Phase) (r : GenerationControlRecord) : Prop := ¬ m.Expects r ∧ ¬ m.Claims r

theorem Phase.Refuses.rely {m' : Phase} {s' : HostState} (h : m.Refuses r) (hr : Rely m s m' s') :
    m'.Refuses r := by
  obtain ⟨hex, hcl⟩ := h
  have hcl' : ¬ m'.Claims r := by
    unfold Phase.Claims at hcl ⊢
    rwa [hr.stage, hr.attempt]
  refine ⟨fun hex' => ?_, hcl'⟩
  unfold Phase.Expects at hex'
  rw [hr.stage, hr.attempt] at hex'
  rcases hex' with hp | hp | hp | ⟨hst, hk, ha, hc, hpl, hpid⟩
  · exact hex (.inl hp)
  · exact hex (.inr (.inl hp))
  · exact hex (.inr (.inr (.inl hp)))
  · rcases hr.group with hg | ⟨hg, -, -⟩
    · rw [hg] at hpid
      exact hex (.inr (.inr (.inr ⟨hst, hk, ha, hc, hpl, hpid⟩)))
    · rw [hg] at hpid
      exact hcl ⟨hst, hk, ha, hc, hpl, hpid⟩

theorem onPrepare_refuses (h : Shared m s)
    (hw : WorkerAt m.stage m.attempt s.worker s.recovery.expectedAttempt)
    (hp : s.worker.pendingPrepare = none) (he : e = s.recovery.expectedAttempt)
    (hk : r.kind = controlPrepare) (hr : m.Refuses r) :
    Runs (onPrepare r e) (fun _ _ => False) s := by
  refine runs_bind (runs_goOn h (fun m₁ s₁ h₁ hr₁ => ?_))
  refine runs_bind (runs_get ?_)
  dsimp only
  split_ifs with hbad
  · exact runs_throw h₁ _
  push Not at hbad
  obtain ⟨hatt, hc, -, -, -, hpid, hca, hpay⟩ := hbad
  have hi : m.stage = .idle := by
    refine hw.idle_of hp ?_
    rw [← hr₁.worker]
    simpa using hc
  have hexp := hw.expected
  rw [hi] at hexp
  have hin : m.Expects r := .inl ⟨hi, hk, hatt.trans (he.trans hexp), hpid, hca, hpay⟩
  exact absurd hin hr.1

/-! ## Calls that leave an event -/

theorem closures_snoc (h : closureOf event = none) :
    closuresOf (s.note event).log = closuresOf s.log := by
  show closuresOf (s.log ++ [event]) = closuresOf s.log
  rw [closuresOf_snoc, h]
  exact List.append_nil _

theorem wp_note {E : HostState → Prop} (h : Q () (s.note event)) :
    Task.wp (note event) Q F E s := Task.wp_modify (f := fun t : HostState => t.note event) h

theorem runs_note (h : Q () (s.note event)) : Runs (note event) Q s := wp_note h

section

variable (h : Shared m s) (hQ : ∀ m' s', Shared m' s' → Rely m s m' s' → Q () (s'.note (.wrote r)))
include h hQ

theorem wp_writeGenerationControl (hF : ∀ e m' s', Shared m' s' → Rely m s m' s' → F e s') :
    Task.wp (writeGenerationControl r) Q F Lawful s :=
  Task.wp_bind (wp_callOrFail h (fun m' s' h' hr => wp_note (hQ m' s' h' hr)) hF)

theorem runs_writeGenerationControl : Runs (writeGenerationControl r) Q s :=
  wp_writeGenerationControl h hQ (fun _ _ _ h' _ => h'.lawful)

end

theorem runs_terminateAttestedGroup {Q : Option RuntimeError → HostState → Prop} (h : Shared m s)
    (hn : n = m.attempt)
    (hQ : ∀ result m' s', Shared m' s' → Rely m s m' s' → m'.gone = result.isNone → Q result s') :
    Runs (terminateAttestedGroup n) Q s := by
  refine runs_bind (runs_call h (fun result m₁ s₁ h₁ hr₁ => ?_))
  refine runs_bind (runs_note (runs_pure ?_))
  have hs : m₁.step (.terminated n result.isNone) =
      some { m₁ with gone := result.isNone } := if_pos (hn.trans hr₁.attempt.symm)
  refine hQ result _ _ (h₁.note hs rfl rfl rfl rfl rfl rfl)
    (hr₁.trans { Rely.refl m₁ s₁ with closures := closures_snoc rfl }) rfl

/-- However the revocation of a lease ends, the lease is revoked. -/
theorem wp_revokeLease {lease : Lease} {cause : RevocationCause} (stage : Stage) (h : Shared m s)
    (hs : ∀ m' : Phase, m'.stage = m.stage → m'.attempt = m.attempt →
      (m.denied = true → m'.denied = true) →
      m'.step (.revoked lease.attempt) = some { m' with gone := false, stage := stage })
    (hQ : ∀ (m' : Phase) (s' : HostState),
      Shared { m' with gone := false, stage := stage } (s'.note (.revoked lease.attempt)) →
      Rely m s m' s' → Q () (s'.note (.revoked lease.attempt)) ∧
        ∀ e, F e (s'.note (.revoked lease.attempt))) :
    Task.wp (revokeLease lease cause) Q F Lawful s := by
  refine Task.wp_bind (wp_call h (fun result m' s' h' hr => ?_))
  have hno : Shared { m' with gone := false, stage := stage } (s'.note (.revoked lease.attempt)) :=
    h'.note (hs m' hr.stage hr.attempt hr.denied) rfl rfl rfl rfl rfl rfl
  have hbo := hQ m' s' hno hr
  refine Task.wp_bind (wp_note ?_)
  cases result with
  | none => exact Task.wp_pure hbo.1
  | some e => exact Task.wp_throw (hbo.2 e)

/-- The attested group becomes the current one. -/
theorem Shared.retain (h : Shared m s) (ho : m.stage.open) (hn : n = m.attempt)
    (hg : m.group = none) (hpid : pid ≠ 0) :
    Shared { m with
        gone := false
        stage := if m.stage = .minted then .held else m.stage
        group := some pid }
      ({ s with current := some ⟨n, pid⟩ }.note (.retained n pid)) := { h with
  log := h.snoc (if_pos ⟨ho, hn, hg⟩)
  current := by
    rw [hn]
    rfl
  pid := by
    intro p hp
    cases hp
    exact hpid }

/-- The worker gives the group up, which was just proved gone. -/
theorem Shared.release_group (h : Shared m s) (hn : n = m.attempt) (hg : m.group.isSome = true)
    (hgo : m.gone = true) (hwh : m.stage = .acked ∨ m.denied = true) :
    Shared { m with gone := false, group := none }
      ({ s with current := none }.note (.released n)) := { h with
  log := h.snoc (if_pos ⟨hn, hg, hgo, hwh⟩)
  current := rfl
  pid := nofun }

/-! ## SPAWNED -/

theorem Stage.open.held (h : stage.open) :
    (if stage = .minted then Stage.held else stage).open := by
  split_ifs
  · exact .inr (.inl rfl)
  · exact h

/-- A refused child is in custody while it is signalled, and given up only when it is gone. -/
theorem takeCustody_runs (h : Shared m s) (ho : m.stage.open) (hg : m.group = none)
    (hden : m.denied = true) (hpid : pid ≠ 0) :
    Runs (takeCustody m.attempt pid)
      (fun _ s' => ∃ m', Shared m' s' ∧ m'.stage.open ∧ m'.attempt = m.attempt ∧
        m'.denied = true ∧ s'.worker = s.worker) s := by
  refine runs_bind (runs_goOn h (fun m₁ s₁ h₁ hr₁ => ?_))
  refine runs_bind (runs_modify ?_)
  have ho₁ : m₁.stage.open := by
    rw [hr₁.stage]
    exact ho
  have h₂ := h₁.retain ho₁ hr₁.attempt.symm (hr₁.groupless hg) hpid
  have h₂' : Shared _ ({ s₁ with current := some ⟨m.attempt, pid⟩, currentLocked := true }.note
      (.retained m.attempt pid)) := { h₂ with }
  refine runs_bind (runs_terminateAttestedGroup h₂' hr₁.attempt.symm
    (fun native m₃ s₃ h₃ hr₃ hgo => ?_))
  have ho₃ : m₃.stage.open := by
    rw [hr₃.stage]
    exact ho₁.held
  have hatt₃ : m₃.attempt = m.attempt := hr₃.attempt.trans hr₁.attempt
  have hden₃ : m₃.denied = true := hr₃.denied (hr₁.denied hden)
  have hwo₃ : s₃.worker = s.worker := hr₃.worker.trans hr₁.worker
  have hc₃ : s₃.current = some ⟨m.attempt, pid⟩ := hr₃.current rfl
  cases native with
  | none =>
    refine runs_bind (runs_modify (runs_bind (runs_modify (runs_pure ?_))))
    have hg₃ : m₃.group.isSome = true := by rw [(h₃.current_some hc₃).1]; rfl
    have h₄ := h₃.release_group hatt₃.symm hg₃ hgo (.inr hden₃)
    exact ⟨_, { h₄ with }, ho₃, hatt₃, hden₃, hwo₃⟩
  | some e =>
    refine runs_bind (runs_modify (runs_pure ?_))
    exact ⟨m₃, { h₃ with }, ho₃, hatt₃, hden₃, hwo₃⟩

theorem refuseSpawn_runs {lease : Lease} (h : Shared m s) (ho : m.stage.open)
    (hle : s.worker.lease = some lease) (hn : lease.attempt = m.attempt)
    (hg : m.group = none) (hde : m.denied = true) (hpid : pid ≠ 0) :
    Runs (refuseSpawn m.attempt pid) (fun _ _ => False) s := by
  refine runs_bind ((takeCustody_runs h ho hg hde hpid).mono ?_)
  rintro native s₁ ⟨m₁, h₁, ho₁, hatt₁, hde₁, hwo₁⟩
  refine runs_bind (runs_get (runs_bind (runs_setWorker ?_)))
  have h₂ : Shared m₁ { s₁ with worker := { s₁.worker with lease := none } } := { h₁ with }
  have hle₁ : s₁.worker.lease = some lease := by rw [hwo₁, hle]
  rw [hle₁]
  have hre : m₁.stage ≠ .retired := by
    rcases ho₁ with hst | hst | hst
    all_goals
      rw [hst]
      exact nofun
  refine runs_bind (runs_attempt (wp_revokeLease .refused h₂ ?_ ?_))
  · intro m' hst hat hden
    have hgu : m'.stage.open ∧ lease.attempt = m'.attempt ∧ m'.denied = true := by
      rw [hst, hat, hn, hatt₁]
      exact ⟨ho₁, rfl, hden hde₁⟩
    rw [Phase.step, if_neg (hst ▸ hre)]
    exact if_pos hgu
  · intro m' s' h' _
    constructor
    · cases native with
      | none | some => exact runs_throw h' _
    · intro e
      cases native with
      | none | some => exact runs_throw h' _

/-- While a child is registered nobody can deny recovery, so nobody takes its group either. -/
structure Registering (m : Phase) (s : HostState) (stage : Stage) (group : Option ℕ) : Prop where
  shared : Shared m s
  worker : WorkerAt stage m.attempt s.worker s.recovery.expectedAttempt
  clean : m.fault = .clean
  locked : s.recoveryLocked = true
  currentFree : s.currentLocked = false
  denied : s.recovery.denied = false
  group : m.group = group
  closures : closuresOf s.log = []

theorem Registering.rely {m' : Phase} {s' : HostState} {group : Option ℕ}
    (h : Registering m s stage group) (hs : Shared m' s') (hr : Rely m s m' s') :
    Registering m' s' stage group where
  shared := hs
  worker := by
    rw [hr.attempt, hr.worker, hr.expected]
    exact h.worker
  clean := hr.clean h.clean
  locked := hr.recoveryLocked.trans h.locked
  currentFree := hr.currentLocked.trans h.currentFree
  denied := by
    rw [hr.recovery h.locked]
    exact h.denied
  group := by
    rcases hr.group with hsa | ⟨-, hden, -⟩
    · exact hsa.trans h.group
    · rw [← hs.denied, hr.recovery h.locked, h.denied] at hden
      cases hden
  closures := hr.closures.trans h.closures

/-- The lease's listener is taken for a child. -/
theorem childSpawned_runs (h : Registering m s .minted none) (hn : n = m.attempt)
    (hQ : ∀ m' s', Registering m' s' .running none → m'.stage = m.stage → m'.attempt = m.attempt →
      Q () s')
    : Runs (childSpawned ⟨n, true⟩) Q s := by
  have hw := h.worker
  refine runs_bind (runs_setWorker ?_)
  have h' : Registering m { s with worker := { s.worker with lease := some ⟨n, false⟩ } }
      .running none :=
    { h with
      shared := { h.shared with }
      worker :=
        { hw with
          rest := .inr (.inr (.inr (.inl rfl)))
          lease := by rw [hn]; rfl } }
  exact runs_callOrFail h'.shared (fun m₁ s₁ h₁ hr₁ => hQ m₁ s₁ (h'.rely h₁ hr₁) hr₁.stage hr₁.attempt)

theorem Registering.registered (h : Registering m s .running (some pid)) (hst : m.stage = .held)
    (hn : n = m.attempt) :
    Rests { s.note (.wrote ((new controlRegistered n).withPid pid)) with
      recoveryLocked := false } := by
  have hs : m.step (.wrote ((new controlRegistered n).withPid pid)) =
      some { m with gone := false, stage := .running } :=
    if_pos ⟨hst, h.clean, h.shared.denied.symm.trans h.denied, hn, h.group⟩
  have hno := h.shared.note hs rfl rfl rfl rfl rfl rfl
  refine ⟨_, { hno with }, h.worker, h.clean, rfl, h.currentFree, ?_⟩
  exact (closures_snoc rfl).trans h.closures

theorem onSpawned_runs (h : Moving m .minted s) (hmi : m.stage = .minted) :
    Runs (onSpawned r e) (fun _ => Rests) s := by
  refine runs_bind (runs_goOn h.shared (fun m₁ s₁ h₁ hr₁ => ?_))
  refine runs_bind (runs_get ?_)
  split_ifs with hbad
  · exact runs_throw h₁ _
  have hmov₁ := h.rely h₁ hr₁
  push Not at hbad
  obtain ⟨hc, hpid, -, -, hf⟩ := hbad
  have hr : r.attempt = m₁.attempt := (hmov₁.worker.of_current hc).1
  refine runs_bind (runs_goOn h₁ (fun m₂ s₂ h₂ hr₂ => ?_))
  have hmov₂ := hmov₁.rely h₂ hr₂
  have hs₂ : m₂.stage = .minted := hr₂.stage.trans (hr₁.stage.trans hmi)
  have hg₂ : m₂.group = none := h₂.ungrouped (.inr (.inr hs₂))
  have hr₂' : r.attempt = m₂.attempt := hr.trans hr₂.attempt.symm
  refine runs_bind (runs_modify (runs_bind (runs_get ?_)))
  have hle : s₂.worker.lease = some ⟨m₂.attempt, true⟩ := hmov₂.worker.lease
  have h₂' : Shared m₂ { s₂ with recoveryLocked := true } := { h₂ with }
  rw [hle, if_neg (by simp)]
  refine runs_bind (runs_callOrFail h₂' (fun m₃ s₃ h₃ hr₃ => ?_))
  have hs₃ : m₃.stage = .minted := hr₃.stage.trans hs₂
  have hr₃' : r.attempt = m₃.attempt := hr₂'.trans hr₃.attempt.symm
  split_ifs with hden
  · have hden₃ : m₃.denied = true := hr₃.denied (h₂.denied.symm.trans hden)
    have hle₃ : s₃.worker.lease = some ⟨m₂.attempt, true⟩ := by
      rw [hr₃.worker]
      exact hle
    rw [hr₃']
    exact (refuseSpawn_runs h₃ (hs₃ ▸ .inl rfl) hle₃ hr₃.attempt.symm
      (hr₃.groupless hg₂) hden₃ hpid).mono (fun _ _ => False.elim)
  · have hreg₂ : Registering m₂ { s₂ with recoveryLocked := true } .minted none :=
      { hmov₂ with
        shared := h₂'
        locked := rfl
        denied := eq_false_of_ne_true hden
        group := hg₂ }
    have hreg₃ := hreg₂.rely h₃ hr₃
    refine runs_bind (childSpawned_runs hreg₃ hr₃.attempt.symm (fun m₄ s₄ hreg₄ hs₄ hatt₄ => ?_))
    refine runs_bind (runs_goOn hreg₄.shared (fun m₅ s₅ h₅ hr₅ => ?_))
    have hreg₅ := hreg₄.rely h₅ hr₅
    have hr₅' : r.attempt = m₅.attempt := hr₃'.trans (hatt₄.symm.trans hr₅.attempt.symm)
    have hs₅ : m₅.stage = .minted := hr₅.stage.trans (hs₄.trans hs₃)
    refine runs_bind (runs_modify ?_)
    have h₆ := h₅.retain (hs₅ ▸ .inl rfl) hr₅' hreg₅.group hpid
    rw [if_pos hs₅] at h₆
    have hreg₆ : Registering _ ({ s₅ with current := some ⟨r.attempt, r.pid⟩ }.note
        (.retained r.attempt r.pid)) .running (some r.pid) :=
      { hreg₅ with
        shared := h₆
        group := rfl
        closures := (closures_snoc rfl).trans hreg₅.closures }
    refine runs_bind (runs_callOrFail h₆ (fun m₇ s₇ h₇ hr₇ => ?_))
    have hreg₇ := hreg₆.rely h₇ hr₇
    refine runs_bind (runs_writeGenerationControl h₇ (fun m₈ s₈ h₈ hr₈ => ?_))
    have hatt₈ : r.attempt = m₈.attempt := hr₅'.trans (hr₇.attempt.symm.trans hr₈.attempt.symm)
    exact runs_modify ((hreg₇.rely h₈ hr₈).registered (hr₈.stage.trans hr₇.stage) hatt₈)

/-- Only a shutdown's taking the group lets a second SPAWNED get as far as a refusal. -/
theorem onSpawned_refuses (h : Shared m s)
    (hw : WorkerAt m.stage m.attempt s.worker s.recovery.expectedAttempt)
    (hk : r.kind = controlSpawned) (hr : m.Refuses r) :
    Runs (onSpawned r e) (fun _ _ => False) s := by
  refine runs_bind (runs_goOn h (fun m₁ s₁ h₁ hr₁ => ?_))
  refine runs_bind (runs_get ?_)
  split_ifs with hbad
  · exact runs_throw h₁ _
  have hw₁ := hw.rely hr₁
  push Not at hbad
  obtain ⟨hc, hpid, hca, hpay, hf⟩ := hbad
  obtain ⟨hatt, hs⟩ := hw₁.of_current hc
  have hg₁ : m₁.group = none := h₁.group_none.mpr (by simpa using hf)
  refine runs_bind (runs_goOn h₁ (fun m₂ s₂ h₂ hr₂ => ?_))
  have hw₂ := hw₁.rely hr₂
  refine runs_bind (runs_modify (runs_bind (runs_get ?_)))
  have h₂' : Shared m₂ { s₂ with recoveryLocked := true } := { h₂ with }
  by_cases hle : s₂.worker.lease.isNone = true
  · rw [if_pos hle]
    exact runs_throw h₂' _
  rw [if_neg hle]
  -- the stage is running: the child is there already
  have hru : m₂.stage = .running := by
    rw [hr₂.stage]
    rcases hs with hst | hst | hst
    · have hin : m₁.Expects r := .inr (.inl ⟨hst, hk, hatt, hpid, hca, hpay⟩)
      exact absurd hin (hr.rely hr₁).1
    · exact hst
    · rw [hw₂.lease, hr₂.stage, hst] at hle
      exact absurd rfl hle
  have hle₂ : s₂.worker.lease = some ⟨m₂.attempt, false⟩ := by
    rw [hw₂.lease, hru]
    rfl
  refine runs_bind (runs_callOrFail h₂' (fun m₃ s₃ h₃ hr₃ => ?_))
  split_ifs with hden
  · have hle₃ : s₃.worker.lease = some ⟨m₂.attempt, false⟩ := by
      rw [hr₃.worker]
      exact hle₂
    have ho₃ : m₃.stage.open := .inr (.inr (hr₃.stage.trans hru))
    rw [hatt.trans (hr₂.attempt.symm.trans hr₃.attempt.symm)]
    exact refuseSpawn_runs h₃ ho₃ hle₃ hr₃.attempt.symm
      (hr₃.groupless (hr₂.groupless hg₁)) (hr₃.denied (h₂.denied.symm.trans hden)) hpid
  · rw [hle₂]
    exact runs_bind (runs_throw h₃ _)

/-! ## REVOKE -/

theorem decodeRevocationCause_ok {cause : ℕ} {c : RevocationCause}
    (h : decodeRevocationCause cause = .ok c) : 1 ≤ cause ∧ cause ≤ 6 := by
  unfold decodeRevocationCause at h
  split at h
  all_goals
    cases h
  all_goals decide

theorem Shared.retire (h : Shared m s) (ho : m.stage.open) (hn : n = m.attempt) :
    Shared { m with gone := false, stage := .retired, release := false }
      ({ s with recovery := s.recovery.retire n }.note (.retired n)) := { h with
  log := h.snoc (if_pos ⟨ho, hn⟩)
  release := nofun }

theorem step_revoked {m' : Phase} (hs : m'.stage = .retired) (hn : n = m'.attempt) :
    m'.step (.revoked n) = some { m' with gone := false, stage := .revoked } := by
  rw [Phase.step, if_pos hs]
  exact if_pos hn

theorem Moving.revoked (h : Moving m .acked s) (hst : m.stage = .revoked) (hn : n = m.attempt) :
    Rests (s.note (.wrote (.new controlRevoked n))) := by
  have hs : m.step (.wrote (.new controlRevoked n)) =
      some { m with gone := false, stage := .acked } := if_pos ⟨hst, h.clean, hn⟩
  refine ⟨_, h.shared.note hs rfl rfl rfl rfl rfl rfl, h.worker, h.clean, h.recoveryFree,
    h.currentFree, ?_⟩
  exact (closures_snoc rfl).trans h.closures

/-- Retires the current attempt and revokes its lease. -/
theorem onRevoke_runs (h : Resting m s)
    (hs : m.stage = .minted ∨ m.stage = .running) : Runs (onRevoke r e) (fun _ => Rests) s := by
  refine runs_bind (runs_get ?_)
  split_ifs with hbad
  · exact runs_throw h.shared _
  push Not at hbad
  obtain ⟨hcu, hre, -, -⟩ := hbad
  have hw := h.worker
  have hr : r.attempt = m.attempt := (hw.of_current hcu).1
  have hak : m.stage ≠ .asked := by
    rcases hs with hst | hst
    all_goals
      rw [hst]
      exact nofun
  cases decodeRevocationCause r.cause with
  | error err => exact runs_throw h.shared _
  | ok cause =>
    obtain ⟨lease, hle, hn⟩ : ∃ lease, s.worker.lease = some lease ∧ lease.attempt = m.attempt := by
      rw [hw.lease]
      rcases hs with hst | hst
      all_goals
        rw [hst]
        exact ⟨_, rfl, rfl⟩
    rw [hle]
    refine runs_bind (runs_setWorker ?_)
    have h' : Shared m { s with worker := { s.worker with lease := none } } := { h.shared with }
    refine runs_bind (runs_goOn h' (fun m₁ s₁ h₁ hr₁ => ?_))
    have ho₁ : m₁.stage.open := by
      rw [hr₁.stage]
      rcases hs with hst | hst
      · exact .inl hst
      · exact .inr (.inr hst)
    have h₂ := h₁.retire ho₁ (hr.trans hr₁.attempt.symm)
    refine runs_bind (runs_modify ?_)
    refine runs_bind (wp_revokeLease .revoked h₂ ?_ ?_)
    · intro m' hst hat _
      refine step_revoked hst ?_
      rw [hat, hn]
      exact hr₁.attempt.symm
    · intro m₃ s₃ h₃ hr₃
      refine ⟨?_, fun _ => h₃.lawful⟩
      have hatt₃ : m₃.attempt = m.attempt := hr₃.attempt.trans hr₁.attempt
      have hwo₃ : s₃.worker = { s.worker with lease := none } := hr₃.worker.trans hr₁.worker
      have hex₃ : s₃.recovery.expectedAttempt = m.attempt := by
        have hexp : s₃.recovery.expectedAttempt = s.recovery.expectedAttempt :=
          hr₃.expected.trans hr₁.expected
        rw [hexp, hw.expected, if_neg]
        rcases hs with hst | hst
        all_goals
          rw [hst]
          exact nofun
      have hmov : Moving { m₃ with gone := false, stage := .revoked } .acked
          { s₃.note (.revoked lease.attempt) with
            worker := { s₃.worker with revokedAttempt := some r.attempt } } :=
        { shared := { h₃ with }
          worker :=
            { rest := .inr (.inr (.inr (.inr rfl)))
              lease := by rw [hwo₃]; rfl
              currentAttempt := by
                rw [hwo₃]
                exact hcu.trans (congrArg some (hr.trans hatt₃.symm))
              revokedAttempt := congrArg some (hr.trans hatt₃.symm)
              pending := by
                rw [hwo₃]
                exact hw.pending.trans (if_neg hak)
              expected := hex₃.trans hatt₃.symm }
          clean := hr₃.clean (hr₁.clean h.clean)
          recoveryFree := hr₃.recoveryLocked.trans (hr₁.recoveryLocked.trans h.recoveryFree)
          currentFree := hr₃.currentLocked.trans (hr₁.currentLocked.trans h.currentFree)
          closures := by
            have hc₃ : closuresOf s₃.log = [] := by
              rw [hr₃.closures]
              exact (closures_snoc rfl).trans (hr₁.closures.trans h.closures)
            exact (closures_snoc rfl).trans hc₃ }
      refine runs_bind (runs_setWorker (runs_bind (runs_callOrFail hmov.shared
        (fun m₅ s₅ h₅ hr₅ => ?_))))
      refine runs_writeGenerationControl h₅ (fun m₆ s₆ h₆ hr₆ => ?_)
      have hatt₆ : r.attempt = m₆.attempt := by
        rw [hr₆.attempt, hr₅.attempt, hr, ← hatt₃]
      exact ((hmov.rely h₅ hr₅).rely h₆ hr₆).revoked (hr₆.stage.trans hr₅.stage) hatt₆

theorem onRevoke_refuses (h : Shared m s)
    (hw : WorkerAt m.stage m.attempt s.worker s.recovery.expectedAttempt)
    (hk : r.kind = controlRevoke) (hr : m.Refuses r) :
    Runs (onRevoke r e) (fun _ _ => False) s := by
  refine runs_bind (runs_get ?_)
  split_ifs with hbad
  · exact runs_throw h _
  push Not at hbad
  obtain ⟨hc, hre, hpid, hpay⟩ := hbad
  obtain ⟨hatt, hs⟩ := hw.of_current hc
  cases hca : decodeRevocationCause r.cause with
  | error err => exact runs_throw h _
  | ok cause =>
    obtain ⟨hlow, hhi⟩ := decodeRevocationCause_ok hca
    have ho : m.stage = .minted ∨ m.stage = .running := by
      rcases hs with hst | hst | hst
      · exact .inl hst
      · exact .inr hst
      · rw [hw.revokedAttempt, if_pos hst] at hre
        exact absurd rfl hre
    have hin : m.Expects r := .inr (.inr (.inl ⟨ho, hk, hatt, hpid, hpay, hlow, hhi⟩))
    exact absurd hin hr.1

/-! ## CLEAR -/

/-- The group that the worker has locked is proved gone before it is given up. -/
theorem releaseGroup_runs {current : Option Registered}
    (h : Moving m .acked { s with currentLocked := false }) (hac : m.stage = .acked)
    (hc : s.current = current) :
    Runs (releaseGroup current)
      (fun _ s' => ∃ m', Moving m' .acked { s' with currentLocked := false } ∧
        m'.stage = .acked ∧ m'.attempt = m.attempt ∧ m'.group = none)
      { s with currentLocked := true } := by
  have h' : Shared m { s with currentLocked := true } := { h.shared with }
  cases current with
  | none => exact runs_pure ⟨m, h, hac, rfl, h.shared.group_none.mpr hc⟩
  | some g =>
    obtain ⟨hg, hatt⟩ := h'.current_some hc
    refine runs_bind (runs_terminateAttestedGroup h' hatt (fun native m₁ s₁ h₁ hr₁ hgo => ?_))
    cases native with
    | some e => exact runs_throw h₁ e
    | none =>
      refine runs_modify ?_
      have hg₁ : m₁.group.isSome = true := by
        have hc₁ : s₁.current = some g := (hr₁.current rfl).trans hc
        rw [(h₁.current_some hc₁).1]
        rfl
      have h₂ := h₁.release_group (hatt.trans hr₁.attempt.symm) hg₁ hgo (.inl (hr₁.stage.trans hac))
      refine ⟨_, ⟨{ h₂ with }, ?_, hr₁.clean h.clean, hr₁.recoveryLocked.trans h.recoveryFree,
        rfl, (closures_snoc rfl).trans (hr₁.closures.trans h.closures)⟩,
        hr₁.stage.trans hac, hr₁.attempt, rfl⟩
      have hw := h.worker
      show WorkerAt .acked m₁.attempt s₁.worker s₁.recovery.expectedAttempt
      rw [hr₁.attempt, hr₁.worker, hr₁.expected]
      exact hw

/-- A CLEAR is judged by the group that is there when the worker looks. -/
theorem onClear_runs (h : Shared m s)
    (hw : WorkerAt .acked m.attempt s.worker s.recovery.expectedAttempt) (hac : m.stage = .acked)
    (hf : s.recoveryLocked = false) (hcs : closuresOf s.log = [])
    (hfa : m.fault = .clean ∨ m.fault = .claim ∧ m.group.isSome = true ∧ r.pid = 0) :
    Runs (onClear r e) (fun _ => Rests) s := by
  refine runs_bind (runs_goOn h (fun m₁ s₁ h₁ hr₁ => ?_))
  refine runs_bind (runs_modify (runs_bind (runs_get ?_)))
  have h₁' : Shared m₁ { s₁ with currentLocked := true } := { h₁ with }
  dsimp only
  split_ifs with hbad
  · exact runs_throw h₁' _
  push Not at hbad
  obtain ⟨hc, hre, hca, hpay, hpid⟩ := hbad
  -- no group is claimed only where there is none
  have hcl₁ : m₁.fault = .clean := by
    rcases hfa with hcl | ⟨hcm, hgr, hz⟩
    · exact hr₁.clean hcl
    · rcases hr₁.fault with hsa | ⟨-, hcl, -⟩
      · exfalso
        rcases hr₁.group with hg | ⟨-, -, hne⟩
        · obtain ⟨p, hp⟩ := Option.isSome_iff_exists.mp hgr
          have hcur : s₁.current = some ⟨m₁.attempt, p⟩ := by
            rw [h₁.current, hg, hp]
            rfl
          rw [hcur, hz] at hpid
          exact h₁.pid p (hg.trans hp) hpid.symm
        · exact hne (hsa.trans hcm)
      · exact hcl
  have hmov₁ : Moving m₁ .acked { s₁ with currentLocked := false } :=
    { shared := { h₁ with }
      worker := by
        rw [hr₁.attempt]
        rw [hr₁.worker, hr₁.expected]
        exact hw
      clean := hcl₁
      recoveryFree := hr₁.recoveryLocked.trans hf
      currentFree := rfl
      closures := hr₁.closures.trans hcs }
  refine runs_bind ((releaseGroup_runs hmov₁ (hr₁.stage.trans hac) rfl).mono ?_)
  rintro - s₂ ⟨m₂, hmov₂, hac₂, hatt₂, hgr₂⟩
  refine runs_bind (runs_modify (runs_bind (runs_writeGenerationControl hmov₂.shared
    (fun m₃ s₃ h₃ hr₃ => ?_))))
  have hmov₃ := hmov₂.rely h₃ hr₃
  have hatt₁ : r.attempt = m₁.attempt := (hmov₁.worker.of_current hc).1
  have hatt₃ : r.attempt = m₃.attempt := hatt₁.trans (hatt₂.symm.trans hr₃.attempt.symm)
  have hs : m₃.step (.wrote ((new controlCleared r.attempt).withPid
      r.pid)) = some { m₃ with gone := false, stage := .idle } :=
    if_pos ⟨hr₃.stage.trans hac₂, hmov₃.clean, hatt₃, hr₃.groupless hgr₂⟩
  have hno := h₃.note hs rfl rfl rfl rfl rfl rfl
  have h₄ : Shared { m₃ with gone := false, stage := .idle }
      { s₃.note (.wrote ((new controlCleared r.attempt).withPid r.pid)) with
        worker := { s₃.worker with currentAttempt := none, revokedAttempt := none } } :=
    { hno with }
  refine runs_bind (runs_setWorker (runs_bind (runs_goOn h₄ (fun m₅ s₅ h₅ hr₅ => ?_))))
  refine runs_bind (runs_get ?_)
  cases hclr : s₅.recovery.cleared r.attempt with
  | none => exact runs_throw h₅ _
  | some recovery =>
    obtain ⟨next, hn, rfl⟩ := Option.map_eq_some_iff.mp hclr
    have hw₃ := hmov₃.worker
    refine runs_modify ⟨m₅, { h₅ with }, ⟨?_, ?_, ?_, ?_, ?_, ?_⟩, hr₅.clean hmov₃.clean,
      hr₅.recoveryLocked.trans hmov₃.recoveryFree,
      hr₅.currentLocked.trans hmov₃.currentFree,
      hr₅.closures.trans ((closures_snoc rfl).trans hmov₃.closures)⟩
    all_goals rw [hr₅.stage]
    · exact .inl rfl
    · exact (congrArg Worker.lease hr₅.worker).trans hw₃.lease
    · exact congrArg Worker.currentAttempt hr₅.worker
    · exact congrArg Worker.revokedAttempt hr₅.worker
    · rw [hr₅.worker]
      exact hw₃.pending
    · rw [hr₅.attempt]
      exact (checkedSucc_eq_some hn).trans (congrArg (· + 1) hatt₃)

theorem onClear_refuses (h : Shared m s)
    (hw : WorkerAt m.stage m.attempt s.worker s.recovery.expectedAttempt)
    (hk : r.kind = controlClear) (hr : m.Refuses r) :
    Runs (onClear r e) (fun _ _ => False) s := by
  refine runs_bind (runs_goOn h (fun m₁ s₁ h₁ hr₁ => ?_))
  refine runs_bind (runs_modify (runs_bind (runs_get ?_)))
  have h₁' : Shared m₁ { s₁ with currentLocked := true } := { h₁ with }
  dsimp only
  split_ifs with hbad
  · exact runs_throw h₁' _
  exfalso
  push Not at hbad
  obtain ⟨hc, hre, hca, hpay, hpid⟩ := hbad
  have hw₁ := hw.rely hr₁
  obtain ⟨hex, hcl⟩ := hr.rely hr₁
  have hatt : r.attempt = m₁.attempt := (hw₁.of_current hc).1
  have hac : m₁.stage = .acked := by
    by_contra hne
    rw [hw₁.revokedAttempt, if_neg hne] at hre
    cases hre
  cases hcur : s₁.current with
  | none =>
    rw [hcur] at hpid
    exact hcl ⟨hac, hk, hatt, hca, hpay, hpid⟩
  | some g =>
    rw [hcur] at hpid
    have hg : m₁.group.getD 0 = g.groupPid := by rw [(h₁.current_some hcur).1]; rfl
    exact hex (.inr (.inr (.inr ⟨hac, hk, hatt, hca, hpay, hpid.trans hg.symm⟩)))

end Handlers

end Keld.Guardian
