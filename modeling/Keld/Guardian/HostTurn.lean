/-
# `Keld.Guardian.HostTurn` — the worker's loop keeps the order

A turn starts and ends between two records (`Rests`), whatever it reads, and
ends the session only when everything is given up (`Closes`).  A record is
judged by the phase when it is read (`Verdict`) and by the worker when it gets
to it; in between the other threads may still take the group away.
-/
import Keld.Guardian.HostLaw

namespace Keld.Guardian

open Keld.Runtime

section Turns

variable {m : Phase} {s : HostState} {r : GenerationControlRecord} {e : ℕ}

/-! ## The end of the stream -/

/-- The peer closed, nothing of it is left, and only the acknowledgment may be missing. -/
structure Left (m : Phase) (s : HostState) : Prop where
  shared : Shared m s
  clean : m.fault = .clean
  leased : s.worker.currentAttempt = none → ¬ m.stage.leased
  group : m.group = none
  lease : s.worker.lease = none
  closures : closuresOf s.log = [0]

variable {m' : Phase} {s' : HostState} {primary : RuntimeError} {fuel partialBytes n : ℕ}
  {Q : Unit → HostState → Prop} {appLink : ℕ → List UInt8} {stage : Stage}

theorem Left.rely (h : Left m s) (hs : Shared m' s') (hr : Rely m s m' s') : Left m' s' where
  shared := hs
  clean := hr.clean h.clean
  leased := by
    rw [hr.worker, hr.stage]
    exact h.leased
  group := hr.groupless h.group
  lease := by
    rw [hr.worker]
    exact h.lease
  closures := hr.closures.trans h.closures

theorem Closed.rely (h : Closed m s) (hs : Shared m' s') (hr : Rely m s m' s') : Closed m' s' where
  shared := hs
  clean := hr.clean h.clean
  leased := by
    rw [hr.stage]
    exact h.leased
  group := hr.groupless h.group
  denied := hr.denied h.denied
  acknowledged := hr.acknowledged h.acknowledged
  lease := by
    rw [hr.worker]
    exact h.lease
  closures := hr.closures.trans h.closures

theorem awaitAcknowledgment_runs (h : Left m s) (hc : s.worker.currentAttempt = none) :
    Runs (awaitAcknowledgment primary ())
      (Task.Next (fun _ s => ∃ m, Left m s ∧
        s.worker.currentAttempt = none) fun _ => Closes) s := by
  refine runs_bind (runs_goOn h.shared (fun m₁ s₁ h₁ hr₁ => ?_))
  have hl := h.rely h₁ hr₁
  have hc₁ : s₁.worker.currentAttempt = none := by
    rw [hr₁.worker]
    exact hc
  refine runs_bind (runs_get ?_)
  split_ifs with hden hack
  · exact runs_throw h₁ _
  · refine runs_pure ⟨m₁, h₁, hl.clean, hl.leased hc₁, hl.group, ?_,
      h₁.acknowledged hack, hl.lease, hl.closures⟩
    rw [← h₁.denied]
    simpa using hden
  · refine runs_bind (runs_expired h₁ (fun late m₂ s₂ h₂ hr₂ => ?_))
    cases late with
    | true => exact runs_throw h₂ _
    | false =>
      refine runs_pure ⟨m₂, hl.rely h₂ hr₂, ?_⟩
      rw [hr₂.worker]
      exact hc₁

/-- The abandoned lease is retired before it is revoked, whatever its revocation says. -/
theorem revokeAbandoned_runs {w : Worker} (h : Shared m s)
    (hw : WorkerAt m.stage m.attempt s.worker s.recovery.expectedAttempt) (hse : w = s.worker)
    (hcn : m.fault = .clean) (hg : m.group = none) (hcl : closuresOf s.log = [0]) :
    Runs (revokeAbandoned primary w) (fun _ s => ∃ m, Left m s) s := by
  subst hse
  unfold revokeAbandoned
  cases hle : s.worker.lease with
  | none =>
    refine runs_pure ⟨m, h, hcn, fun _ => ?_, hg, hle, hcl⟩
    have hno := hw.lease
    rw [hle] at hno
    rcases hw.rest with hst | hst | hst | hst | hst
    all_goals
      rw [hst] at hno ⊢
    · decide
    · decide
    · cases hno
    · cases hno
    · decide
  | some lease =>
    have ho : m.stage = .minted ∨ m.stage = .running := by
      have hs := hw.lease
      rw [hle] at hs
      rcases hw.rest with hst | hst | hst | hst | hst
      all_goals rw [hst] at hs
      · cases hs
      · cases hs
      · exact .inl hst
      · exact .inr hst
      · cases hs
    have hn : lease.attempt = m.attempt := by
      have hs := hw.lease
      rw [hle] at hs
      rcases ho with hst | hst
      all_goals
        rw [hst] at hs
        cases hs
        rfl
    have hc : s.worker.currentAttempt = some m.attempt := by
      rw [hw.currentAttempt]
      rcases ho with hst | hst
      all_goals
        rw [hst]
        rfl
    refine runs_bind (runs_setWorker ?_)
    rw [hc]
    refine runs_bind (runs_setWorker ?_)
    have h' : Shared m { s with
        worker := { s.worker with lease := none, currentAttempt := none } } := { h with }
    split_ifs with hre
    · exact runs_throw h' _
    refine runs_bind (runs_goOn h' (fun m₁ s₁ h₁ hr₁ => ?_))
    have ho₁ : m₁.stage.open := by
      rw [hr₁.stage]
      rcases ho with hst | hst
      · exact .inl hst
      · exact .inr (.inr hst)
    have h₂ := h₁.retire ho₁ hr₁.attempt.symm
    refine runs_bind (runs_modify (runs_bind (runs_attempt (wp_revokeLease .revoked h₂ ?_ ?_))))
    · intro m' hst hat _
      refine step_revoked hst ?_
      rw [hat, hn]
      exact hr₁.attempt.symm
    · intro m₃ s₃ h₃ hr₃
      refine ⟨runs_pure ⟨_, h₃, hr₃.clean (hr₁.clean hcn), fun _ => (by decide : ¬ Stage.revoked.leased),
        hr₃.groupless (hr₁.groupless hg), ?_, ?_⟩, fun e => runs_throw h₃ _⟩
      · exact (congrArg Worker.lease hr₃.worker).trans (congrArg Worker.lease hr₁.worker)
      · exact (closures_snoc rfl).trans
          (hr₃.closures.trans ((closures_snoc rfl).trans (hr₁.closures.trans hcl)))

theorem finishGenerationControlEof_runs (h : Resting m s) :
    Runs (finishGenerationControlEof fuel primary partialBytes) (fun _ => Closes) s := by
  have hs : m.step (.closed partialBytes) = some { m with gone := false } := rfl
  have h₀ := h.shared.note hs rfl rfl rfl rfl rfl rfl
  refine runs_bind (runs_note (runs_bind (runs_goOn h₀ (fun m₁ s₁ h₁ hr₁ => ?_))))
  refine runs_bind (runs_get ?_)
  by_cases ho : partialBytes ≠ 0 ∨ s₁.current.isSome = true
  · rw [if_pos ho]
    exact runs_throw h₁ _
  rw [if_neg ho]
  push Not at ho
  obtain ⟨hz, hn⟩ := ho
  have hw₁ : WorkerAt m₁.stage m₁.attempt s₁.worker s₁.recovery.expectedAttempt := by
    rw [hr₁.stage, hr₁.attempt, hr₁.worker, hr₁.expected]
    exact h.worker
  have hg₁ : m₁.group = none := h₁.group_none.mpr (by simpa using hn)
  have hcl₁ : closuresOf s₁.log = [0] := by
    rw [hr₁.closures]
    show closuresOf (s.log ++ [_]) = [0]
    rw [closuresOf_snoc, h.closures, hz]
    rfl
  refine runs_bind ((revokeAbandoned_runs h₁ hw₁ rfl (hr₁.clean h.clean) hg₁ hcl₁).mono ?_)
  rintro - s₂ ⟨m₂, hl⟩
  refine runs_bind (runs_get ?_)
  by_cases hc : s₂.worker.currentAttempt.isSome = true ∨ s₂.worker.revokedAttempt.isSome = true
  · rw [if_pos hc]
    exact runs_throw hl.shared _
  rw [if_neg hc]
  push Not at hc
  have hn₂ : s₂.worker.currentAttempt = none := by simpa using hc.1
  refine Task.wp_loop (fun _ s => ∃ m, Left m s ∧ s.worker.currentAttempt = none) ?_ ?_ fuel
    ⟨m₂, hl, hn₂⟩
  · rintro - t ⟨m', hl', hc'⟩
    exact awaitAcknowledgment_runs hl' hc'
  · rintro - t ⟨m', hl', -⟩
    exact hl'.shared.lawful

/-! ## The pending PREPARE -/

/-- Before initial Ready, recovery must still be able to come. -/
theorem checkInitialRecoveryDecision_runs {t : HostState} (h : Shared m s)
    (hQ : ∀ m' s', Shared m' s' → Rely m s m' s' → Q () s') :
    Runs (checkInitialRecoveryDecision t) Q s := by
  unfold checkInitialRecoveryDecision
  split_ifs with hdec hden
  · exact runs_pure (hQ m s h (Rely.refl m s))
  · exact runs_throw h _
  · refine runs_bind (runs_expired h (fun late m₁ s₁ h₁ hr₁ => ?_))
    cases late with
    | true => exact runs_throw h₁ _
    | false => exact runs_pure (hQ m₁ s₁ h₁ hr₁)

theorem permits_guard (h : Shared m s) (hpe : s.recovery.permits n = true) :
    m.denied = false ∧ (n = 1 ∨ m.ready = true ∧ m.release = true) := by
  simp only [RecoveryState.permits, Bool.and_eq_true, Bool.or_eq_true, beq_iff_eq,
    Bool.not_eq_true'] at hpe
  obtain ⟨⟨hden, -⟩, hf | ⟨⟨⟨hr, hrel⟩, -⟩, -⟩⟩ := hpe
  · exact ⟨h.denied.symm.trans hden, .inl hf⟩
  · refine ⟨h.denied.symm.trans hden, .inr ⟨h.ready.symm.trans hr, h.release ?_⟩⟩
    rw [hrel]
    rfl

/-- The stages after a provision: the lease is there, and its listener. -/
theorem Shared.provision (h : Shared m s) (hak : m.stage = .asked) (hn : n = m.attempt + 1)
    (hcl : m.fault = .clean) (hden : m.denied = false)
    (hf : n = 1 ∨ m.ready = true ∧ m.release = true)
    (hrel : s.recovery.releaseAttempt = none) :
    Shared { m with gone := false, stage := .minted, attempt := n, release := false }
      (s.note (.provisioned n)) := { h with
  log := h.snoc (if_pos ⟨hak, hn, hden, hcl, hf⟩)
  release := by
    intro hs
    have hs : s.recovery.releaseAttempt.isSome = true := hs
    rw [hrel] at hs
    cases hs
  current := by
    have hno := h.ungrouped (.inr (.inl hak))
    rw [hno]
    exact h.group_none.mp hno }

theorem endOfStream_runs (h : Resting m s) :
    Runs (endOfStream fuel primary partialBytes) (Task.Next (fun _ => Rests) fun _ => Closes) s := by
  refine runs_bind ((finishGenerationControlEof_runs h).attempt ?_ ?_)
  · rintro ⟨⟩ t ⟨m₁, hcl⟩
    exact runs_bind (runs_callOrFail hcl.shared
      (fun m₂ s₂ h₂ hr₂ => runs_pure ⟨m₂, hcl.rely h₂ hr₂⟩))
  · rintro e t ⟨m₁, h₁⟩
    exact runs_bind (runs_callOrFail h₁ (fun m₂ s₂ h₂ hr₂ => runs_throw h₂ e))

theorem Resting.prepared (h : Resting m s) {response : GenerationControlRecord}
    (hk : response.kind = controlPrepared) (hmi : m.stage = .minted)
    (hn : response.attempt = m.attempt) : Rests (s.note (.wrote response)) := by
  have hs : m.step (.wrote response) = some { m with gone := false } := by
    rw [Phase.step, Phase.wrote, if_pos hk]
    exact if_pos ⟨hmi, h.clean, hn⟩
  exact ⟨_, h.shared.note hs rfl rfl rfl rfl rfl rfl, h.worker, h.clean, h.recoveryFree,
    h.currentFree, (closures_snoc rfl).trans h.closures⟩

/-- A lease is minted where recovery permits it, and PREPARED tells the peer. -/
theorem provisionPending_runs {pending : GenerationControlRecord} (h : Resting m s)
    (hpe : s.worker.pendingPrepare = some pending) :
    Runs (provisionPending fuel pending appLink) (Task.Next (fun _ => Rests) fun _ => Closes) s := by
  have hak : m.stage = .asked ∧ pending.attempt = m.attempt + 1 := by
    have hp := h.worker.pending
    rw [hpe] at hp
    by_cases hst : m.stage = .asked
    · rw [if_pos hst] at hp
      exact ⟨hst, Option.some.inj hp⟩
    · rw [if_neg hst] at hp
      cases hp
  obtain ⟨hs, hn⟩ := hak
  refine runs_bind (runs_goOn h.shared (fun m₁ s₁ h₁ hr₁ => ?_))
  have hre₁ := h.rely h₁ hr₁
  refine runs_bind (runs_modify (runs_bind (runs_get ?_)))
  have h₁' : Shared m₁ { s₁ with recoveryLocked := true } := { h₁ with }
  refine runs_bind (checkInitialRecoveryDecision_runs h₁' (fun m₂ s₂ h₂ hr₂ => ?_))
  have hn₂ : pending.attempt = m₂.attempt + 1 := by rw [hr₂.attempt, hr₁.attempt, hn]
  have hs₂ : m₂.stage = .asked := hr₂.stage.trans (hr₁.stage.trans hs)
  have hrc₂ : s₂.recovery = s₁.recovery := hr₂.recovery rfl
  have hre₂ : Resting m₂ { s₂ with recoveryLocked := false } :=
    { shared := { h₂ with }
      worker := by
        rw [hr₂.stage, hr₂.attempt, hr₂.worker, hr₂.expected]
        exact hre₁.worker
      clean := hr₂.clean hre₁.clean
      recoveryFree := rfl
      currentFree := hr₂.currentLocked.trans hre₁.currentFree
      closures := hr₂.closures.trans hre₁.closures }
  split_ifs with hrj hpr
  · exact runs_throw h₂ _
  · -- not yet: the PREPARE stays pending
    exact runs_bind (runs_modify (runs_pure ⟨m₂, hre₂⟩))
  · have hpr₂ : s₂.recovery.permits pending.attempt = true := by
      rw [hrc₂]
      exact eq_true_of_ne_false hpr
    obtain ⟨hden₂, hfr₂⟩ := permits_guard h₂ hpr₂
    have h₂' : Shared m₂ { s₂ with recovery := { s₂.recovery with releaseAttempt := none } } :=
      { h₂ with release := nofun }
    refine runs_bind (runs_modify (runs_bind (runs_callOrFail h₂' (fun m₃ s₃ h₃ hr₃ => ?_))))
    have hlo₂ : s₂.recoveryLocked = true := hr₂.recoveryLocked
    have hrc₃ : s₃.recovery = { s₂.recovery with releaseAttempt := none } := hr₃.recovery hlo₂
    have hden₃ : m₃.denied = false := by
      rw [← h₃.denied, hrc₃]
      exact h₂.denied.trans hden₂
    have hfr₃ : pending.attempt = 1 ∨ m₃.ready = true ∧ m₃.release = true := by
      rw [← h₃.ready, hrc₃, hr₃.release hlo₂]
      exact hfr₂.imp_right (fun hf => ⟨h₂.ready.trans hf.1, hf.2⟩)
    have hcl₃ : m₃.fault = .clean := hr₃.clean hre₂.clean
    have h₄ := h₃.provision (hr₃.stage.trans hs₂) (hn₂.trans (congrArg (· + 1) hr₃.attempt.symm))
      hcl₃ hden₃ hfr₃ (congrArg RecoveryState.releaseAttempt hrc₃)
    have hw₃ : WorkerAt m₂.stage m₂.attempt s₃.worker s₃.recovery.expectedAttempt := by
      rw [hr₃.worker, hr₃.expected]
      exact hre₂.worker
    rw [hs₂] at hw₃
    refine runs_bind (runs_note (runs_bind (runs_modify (runs_bind (runs_setWorker ?_)))))
    have hre₄ : Resting { m₃ with
          gone := false
          stage := .minted
          attempt := pending.attempt
          release := false }
        { s₃.note (.provisioned pending.attempt) with
          recoveryLocked := false
          worker :=
            { s₃.worker with
              currentAttempt := some pending.attempt
              lease := some ⟨pending.attempt, true⟩
              pendingPrepare := none
              initialDecisionDeadline := false } } :=
      { shared := { h₄ with }
        worker :=
          { rest := .inr (.inr (.inl rfl))
            lease := rfl
            currentAttempt := rfl
            revokedAttempt := hw₃.revokedAttempt
            pending := rfl
            expected := hw₃.expected.trans hn₂.symm }
        clean := hcl₃
        recoveryFree := rfl
        currentFree := hr₃.currentLocked.trans hre₂.currentFree
        closures := (closures_snoc rfl).trans (hr₃.closures.trans hre₂.closures) }
    refine runs_bind (runs_callOrFail hre₄.shared (fun m₅ s₅ h₅ hr₅ => ?_))
    have hre₅ := hre₄.rely h₅ hr₅
    refine runs_bind (runs_attempt (wp_writeGenerationControl h₅ ?_ ?_))
    · intro m₆ s₆ h₆ hr₆
      exact runs_pure ((hre₅.rely h₆ hr₆).prepared rfl (hr₆.stage.trans hr₅.stage)
        (hr₆.attempt.trans hr₅.attempt).symm)
    · intro e m₆ s₆ h₆ hr₆
      dsimp only
      split_ifs
      · exact endOfStream_runs (hre₅.rely h₆ hr₆)
      · exact runs_throw h₆ e

/-! ## A record -/

/-- What the phase has made of a record, and the stage that the worker is still in. -/
inductive Verdict (m : Phase) (r : GenerationControlRecord) : Stage → Prop
  | prepare (hclean : m.fault = .clean) (hstage : m.stage = .asked)
      (hkind : r.kind = controlPrepare) (hn : r.attempt = m.attempt + 1) : Verdict m r .idle
  | spawned (hclean : m.fault = .clean) (hstage : m.stage = .minted)
      (hkind : r.kind = controlSpawned) : Verdict m r m.stage
  | revoke (hclean : m.fault = .clean) (hstage : m.stage = .minted ∨ m.stage = .running)
      (hkind : r.kind = controlRevoke) : Verdict m r m.stage
  | clear (hfault : m.fault = .clean ∨ m.fault = .claim ∧ m.group.isSome = true ∧ r.pid = 0)
      (hstage : m.stage = .acked) (hkind : r.kind = controlClear) : Verdict m r m.stage
  | refuse (hrefuses : m.Refuses r) : Verdict m r m.stage

/-- A record was read, and the worker has not got to it. -/
structure Judging (m : Phase) (s : HostState) (r : GenerationControlRecord) (stage : Stage) :
    Prop where
  shared : Shared m s
  worker : WorkerAt stage m.attempt s.worker s.recovery.expectedAttempt
  verdict : Verdict m r stage
  recoveryFree : s.recoveryLocked = false
  currentFree : s.currentLocked = false
  closures : closuresOf s.log = []

theorem Verdict.rely (h : Verdict m r stage) (hr : Rely m s m' s') : Verdict m' r stage := by
  cases h with
  | prepare hcl hs hk hn =>
    exact .prepare (hr.clean hcl) (hr.stage.trans hs) hk (by rw [hr.attempt, hn])
  | spawned hcl hs hk =>
    rw [← hr.stage] at hs ⊢
    exact .spawned (hr.clean hcl) hs hk
  | revoke hcl hs hk =>
    rw [← hr.stage] at hs ⊢
    exact .revoke (hr.clean hcl) hs hk
  | clear hfa hs hk =>
    rw [← hr.stage] at hs ⊢
    refine .clear ?_ hs hk
    rcases hfa with hcl | ⟨hcm, hgr, hz⟩
    · exact .inl (hr.clean hcl)
    · rcases hr.fault with hsa | ⟨-, hcl, -⟩
      · rcases hr.group with hg | ⟨-, -, hne⟩
        · exact .inr ⟨hsa.trans hcm, hg ▸ hgr, hz⟩
        · exact absurd (hsa.trans hcm) hne
      · exact .inl hcl
  | refuse hre =>
    rw [← hr.stage]
    exact .refuse (hre.rely hr)

theorem Judging.rely (h : Judging m s r stage) (hs : Shared m' s') (hr : Rely m s m' s') :
    Judging m' s' r stage where
  shared := hs
  worker := by
    rw [hr.attempt, hr.worker, hr.expected]
    exact h.worker
  verdict := h.verdict.rely hr
  recoveryFree := hr.recoveryLocked.trans h.recoveryFree
  currentFree := hr.currentLocked.trans h.currentFree
  closures := hr.closures.trans h.closures

theorem Judging.touch (h : Judging m s r stage) :
    Judging m { s with worker := { s.worker with firstRecordPending := false } } r stage :=
  { h with
    shared := { h.shared with }
    worker := { h.worker with } }

/-- The phase's verdict on a record that is read between two others. -/
theorem Resting.got (h : Resting m s) (r : GenerationControlRecord) :
    ∃ m', Judging m' (s.note (.got r)) r m.stage := by
  have hgot : ∀ m', m.step (.got r) = some m' → Verdict m' r m.stage → m'.group = m.group →
      m'.attempt = m.attempt → m'.denied = m.denied → m'.ready = m.ready →
      m'.release = m.release → m'.acknowledged = m.acknowledged →
      Judging m' (s.note (.got r)) r m.stage := by
    intro m' hs hvdt hg hatt hden hr hrel hack
    exact
      { shared := h.shared.note hs hg hatt hden hr hrel hack
        worker := by
          rw [hatt]
          exact h.worker
        verdict := hvdt
        recoveryFree := h.recoveryFree
        currentFree := h.currentFree
        closures := (closures_snoc rfl).trans h.closures }
  have hs : m.step (.got r) = some (if m.Expects r then
      (if r.kind = controlPrepare then { m with gone := false, stage := .asked }
        else { m with gone := false })
      else { m with gone := false, fault := if m.Claims r then .claim else .order }) :=
    if_pos h.clean
  by_cases hex : m.Expects r
  · rw [if_pos hex] at hs
    rcases hex with ⟨hst, hk, hn, -⟩ | ⟨hst, hk, -⟩ | ⟨hst, hk, -⟩ | ⟨hst, hk, -⟩
    · rw [if_pos hk] at hs
      refine ⟨_, hgot _ hs ?_ rfl rfl rfl rfl rfl rfl⟩
      rw [hst]
      exact .prepare h.clean rfl hk hn
    · rw [if_neg (by rw [hk]; decide)] at hs
      exact ⟨_, hgot _ hs (.spawned (m := { m with gone := false }) h.clean hst hk)
        rfl rfl rfl rfl rfl rfl⟩
    · rw [if_neg (by rw [hk]; decide)] at hs
      exact ⟨_, hgot _ hs (.revoke (m := { m with gone := false }) h.clean hst hk)
        rfl rfl rfl rfl rfl rfl⟩
    · rw [if_neg (by rw [hk]; decide)] at hs
      exact ⟨_, hgot _ hs (.clear (m := { m with gone := false }) (.inl h.clean) hst hk)
        rfl rfl rfl rfl rfl rfl⟩
  · rw [if_neg hex] at hs
    by_cases hcl : m.Claims r
    · rw [if_pos hcl] at hs
      obtain ⟨hst, hk, hn, hca, hpay, hpid⟩ := hcl
      refine ⟨_, hgot _ hs (.clear (m := { m with gone := false, fault := .claim })
        (.inr ⟨rfl, ?_, hpid⟩) hst hk) rfl rfl rfl rfl rfl rfl⟩
      -- the group is there, or the record would be in order
      cases hg : m.group with
      | some pid => rfl
      | none =>
        refine absurd (.inr (.inr (.inr ⟨hst, hk, hn, hca, hpay, ?_⟩))) hex
        rw [hg, hpid]
        rfl
    · rw [if_neg hcl] at hs
      exact ⟨_, hgot _ hs (.refuse (m := { m with gone := false, fault := .order })
        ⟨hex, hcl⟩) rfl rfl rfl rfl rfl rfl⟩

theorem onRecord_runs (h : Judging m s r stage) (he : e = s.recovery.expectedAttempt) :
    Runs (onRecord r e) (fun _ => Rests) s := by
  have hw := h.worker
  refine runs_bind (runs_get ?_)
  by_cases hp : s.worker.pendingPrepare.isSome = true
  · rw [if_pos hp]
    exact runs_throw h.shared _
  rw [if_neg hp]
  have hno : s.worker.pendingPrepare = none := by simpa using hp
  have hvdt := h.verdict
  cases hvdt with
  | prepare hcl hs hk hn =>
    rw [if_pos hk]
    exact onPrepare_runs ⟨h.shared, hw, hcl, h.recoveryFree, h.currentFree, h.closures⟩ hs hn
  | spawned hcl hs hk =>
    rw [if_neg (by rw [hk]; decide), if_pos hk]
    rw [hs] at hw
    exact onSpawned_runs ⟨h.shared, hw, hcl, h.recoveryFree, h.currentFree, h.closures⟩ hs
  | revoke hcl hs hk =>
    rw [if_neg (by rw [hk]; decide), if_neg (by rw [hk]; decide), if_pos hk]
    exact onRevoke_runs ⟨h.shared, hw, hcl, h.recoveryFree, h.currentFree, h.closures⟩ hs
  | clear hfa hs hk =>
    rw [if_neg (by rw [hk]; decide), if_neg (by rw [hk]; decide),
      if_neg (by rw [hk]; decide), if_pos hk]
    rw [hs] at hw
    exact onClear_runs h.shared hw hs h.recoveryFree h.closures hfa
  | refuse hre =>
    split_ifs with hpr hsp hrv hc
    · exact (onPrepare_refuses h.shared hw hno he hpr hre).mono (fun _ _ => False.elim)
    · exact (onSpawned_refuses h.shared hw hsp hre).mono (fun _ _ => False.elim)
    · exact (onRevoke_refuses h.shared hw hrv hre).mono (fun _ _ => False.elim)
    · exact (onClear_refuses h.shared hw hc hre).mono (fun _ _ => False.elim)
    · exact runs_throw h.shared _

/-! ## The loop -/

theorem checkFirstRecord_runs {first : Bool} (h : Shared m s)
    (hQ : ∀ m' s', Shared m' s' → Rely m s m' s' → Q () s') :
    Runs (checkFirstRecord first) Q s := by
  cases first with
  | false => exact runs_pure (hQ m s h (Rely.refl m s))
  | true =>
    refine runs_bind (runs_expired h (fun late m₁ s₁ h₁ hr₁ => ?_))
    cases late with
    | true => exact runs_throw h₁ _
    | false => exact runs_pure (hQ m₁ s₁ h₁ hr₁)

theorem pollLease_runs {lease : Option Lease} (h : Shared m s)
    (hQ : ∀ m' s', Shared m' s' → Rely m s m' s' → Q () s') : Runs (pollLease lease) Q s := by
  cases lease with
  | none => exact runs_pure (hQ m s h (Rely.refl m s))
  | some lease => exact runs_callOrFail h hQ

/-- A turn from rest ends at rest, or ends the session. -/
theorem hostTurn_runs (h : Resting m s) :
    Runs (hostTurn fuel appLink ()) (Task.Next (fun _ => Rests) fun _ => Closes) s := by
  refine runs_bind (runs_get ?_)
  refine runs_bind (pollLease_runs h.shared (fun m₁ s₁ h₁ hr₁ => ?_))
  refine runs_bind (runs_callOrFail h₁ (fun m₂ s₂ h₂ hr₂ => ?_))
  refine runs_bind (checkFirstRecord_runs h₂ (fun m₃ s₃ h₃ hr₃ => ?_))
  refine runs_bind (runs_pollControl h₃ (fun read m₄ s₄ h₄ hr₄ => ?_))
  have hr : Rely m s m₄ s₄ := ((hr₁.trans hr₂).trans hr₃).trans hr₄
  have hre := h.rely h₄ hr
  cases read with
  | closed filled => exact endOfStream_runs hre
  | failed err => exact runs_throw h₄ err
  | quiet filled =>
    refine runs_bind (checkFirstRecord_runs h₄ (fun m₅ s₅ h₅ hr₅ => ?_))
    have hre₅ := hre.rely h₅ hr₅
    split_ifs with hfi
    · exact runs_pure ⟨m₅, hre₅⟩
    · cases hp : s.worker.pendingPrepare with
      | none => exact runs_pure ⟨m₅, hre₅⟩
      | some pending =>
        refine provisionPending_runs hre₅ ?_
        rw [(hr.trans hr₅).worker]
        exact hp
  | record record =>
    obtain ⟨m₅, hju⟩ := hre.got record
    refine runs_bind (runs_note (runs_bind (checkFirstRecord_runs hju.shared
      (fun m₆ s₆ h₆ hr₆ => ?_))))
    have hju₆ := (hju.rely h₆ hr₆).touch
    refine runs_bind (runs_setWorker (runs_bind (runs_goOn hju₆.shared (fun m₇ s₇ h₇ hr₇ => ?_))))
    refine runs_bind (runs_get (runs_bind ?_))
    refine (onRecord_runs (hju₆.rely h₇ hr₇) rfl).mono ?_
    rintro - t ⟨m₈, hre₈⟩
    refine runs_bind (runs_get ?_)
    cases hp : t.worker.pendingPrepare with
    | none => exact runs_pure ⟨m₈, hre₈⟩
    | some pending => exact provisionPending_runs hre₈ hp

theorem resting_nil : Resting {} {} where
  shared := ⟨rfl, rfl, rfl, nofun, nofun, rfl, nofun, nofun⟩
  worker := ⟨.inl rfl, rfl, rfl, rfl, rfl, rfl⟩
  clean := rfl
  recoveryFree := rfl
  currentFree := rfl
  closures := rfl

theorem runGenerationHost_runs (appLink : ℕ → List UInt8) (fuel : ℕ) :
    Runs (runGenerationHost appLink fuel) (fun _ => Closes) {} := by
  refine Task.wp_loop (fun _ => Rests) ?_ ?_ fuel ⟨{}, resting_nil⟩
  · rintro - s ⟨m, h⟩
    exact hostTurn_runs h
  · rintro - s ⟨m, h⟩
    exact h.shared.lawful

end Turns

end Keld.Guardian
