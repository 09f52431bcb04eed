/-
# `Keld.Update.Planned` — what the planner answers at each position

A position fixes the phase of the journal and the protected slots, so it fixes the
answer of `nextActivationStep`, up to what the planner is told about the
directories: where the candidate is, and whether the version to retire is still
there.  `nextActivationStep_at` is that answer.  It rests on three separations
that every valid journal makes: the candidate's version is the name of no
known-good and not the prior floor, and the older known-good is not the newer.

Two journals with the same context make the same positions, so everything here
may be read off whichever journal is on disk.
-/
import Keld.Update.Attempt

namespace Keld.Update

open ActivationJournal ValidContext

open SemVer (Version)

/-! ## Journals of one attempt -/

section Context

variable {j c : ActivationJournal}

section

variable (h : j.context = c.context)
include h

theorem candidate_of_context : j.candidate = c.candidate := by
  show j.context.candidate = c.context.candidate
  rw [h]

theorem attemptId_of_context : j.attemptId = c.attemptId := by
  show j.context.attemptId = c.context.attemptId
  rw [h]

theorem helperImage_of_context : j.helperImageBlake3 = c.helperImageBlake3 := by
  show j.context.helperImageBlake3 = c.context.helperImageBlake3
  rw [h]

theorem priorFloor_of_context : j.priorFloor = c.priorFloor := by
  show j.context.priorFloor = c.context.priorFloor
  rw [h]

theorem rollbackTarget_of_context : j.rollbackTarget = c.rollbackTarget := by
  show j.context.rollbackTarget = c.context.rollbackTarget
  rw [h]

theorem lastKnownGood_of_context : j.priorLastKnownGood = c.priorLastKnownGood := by
  show j.context.priorLastKnownGood = c.context.priorLastKnownGood
  rw [h]

theorem slotsAt_of_context (p : Position) : slotsAt j p = slotsAt c p := by
  have hs : ∀ j : ActivationJournal, slotsAt j p = slotsAt j.context p := by
    intro j
    cases p with
    | resolved outcome => cases outcome <;> rfl
    | _ => rfl
  rw [hs j, hs c, h]

theorem knownGood_of_context : j.knownGood = c.knownGood := by
  show j.context.knownGood = c.context.knownGood
  rw [h]

theorem previous_of_context : j.priorPreviousKnownGood = c.priorPreviousKnownGood := by
  show j.context.priorPreviousKnownGood = c.context.priorPreviousKnownGood
  rw [h]

theorem validContext_of_context (hc : ValidContext c) : ValidContext j := by
  have hctx : ValidContext c.context := ⟨hc.floors, hc.wire, hc.scope, hc.previous, hc.rollback⟩
  rw [← h] at hctx
  exact ⟨hctx.floors, hctx.wire, hctx.scope, hctx.previous, hctx.rollback⟩

theorem boundedJournal_of_context (hc : BoundedJournal c) : BoundedJournal j := by
  have hctx : BoundedJournal c.context := ⟨hc.artifact, hc.floor⟩
  rw [← h] at hctx
  exact ⟨hctx.artifact, hctx.floor⟩

end

end Context

/-! ## The separations of a valid journal -/

namespace ValidContext

variable {c : ActivationJournal} (hc : ValidContext c)

include hc

variable {a : ArtifactIdentity}

theorem version_ne (ha : a ∈ c.knownGood) : a.version ≠ c.candidate.version := by
  intro he
  obtain ⟨floor, version, -, hver, hlt, hco⟩ := hc.floors
  obtain ⟨v, hv, hle⟩ := hco a ha
  rw [he, hver] at hv
  cases hv
  exact absurd hle (not_le_of_gt hlt)

theorem candidate_ne (ha : a ∈ c.knownGood) : a ≠ c.candidate :=
  fun he => hc.version_ne ha (congrArg ArtifactIdentity.version he)

theorem floor_ne : c.priorFloor ≠ c.candidate.version := by
  intro he
  obtain ⟨floor, version, hf, hver, hlt, -⟩ := hc.floors
  rw [he, hver] at hf
  cases hf
  exact absurd hlt (lt_irrefl _)

theorem previous_version_ne (ha : c.priorPreviousKnownGood = some a) :
    a.version ≠ c.priorLastKnownGood.version := by
  intro he
  obtain ⟨-, v, w, hv, hw, hlt⟩ := hc.previous a ha
  rw [he, hw] at hv
  cases hv
  exact absurd hlt (lt_irrefl _)

theorem previous_ne : c.priorPreviousKnownGood ≠ some c.priorLastKnownGood :=
  fun he => (hc.previous c.priorLastKnownGood he).1 rfl

omit hc in
theorem rollbackTarget_mem : c.rollbackTarget ∈ c.knownGood := by
  simp [knownGood]

omit hc in
theorem lastKnownGood_mem : c.priorLastKnownGood ∈ c.knownGood := by
  simp [knownGood]

omit hc in
theorem previous_mem (ha : c.priorPreviousKnownGood = some a) : a ∈ c.knownGood := by
  simp [knownGood, ha]

/-- The artifacts of a journal have no two with one version and different contents, but for the
rollback target, which is one of the known-goods. -/
theorem mem_knownGood (ha : a ∈ c.knownGood) :
    a = c.priorLastKnownGood ∨ c.priorPreviousKnownGood = some a := by
  simp only [knownGood, List.cons_append, List.nil_append, List.mem_cons, Option.mem_toList] at ha
  rcases ha with rfl | rfl | ha
  · exact hc.rollback
  · exact .inl rfl
  · exact .inr ha

end ValidContext

/-! ## The planner -/

section Planner

variable (blake3 : Digest → Digest → ArtifactIdentity → Digest)

/-- The answer at a position, given where the candidate is and whether a retiree is there. -/
def plannedAt (c : ActivationJournal) (location : CandidateLocation) (retireePresent : Bool) :
    Position → Except RecoveryRefusal ActivationStep
  | .begun _ | .publishing _ _ | .blocked =>
    match location with
    | .published => .ok .advanceFloor
    | .staged => .ok .publishCandidate
    | .absent => .ok .abandonAttempt
  | .floored =>
    match location with
    | .published => .ok .selectCandidate
    | .staged | .absent => .error .candidateUnpublished
  | .selected => .ok .enterAwaitingHealth
  | .awaiting => .ok .awaitHealth
  | .accepted => .ok .preservePriorKnownGood
  | .preserved => .ok .commitCandidate
  | .committed _ =>
    .ok (if c.priorPreviousKnownGood.isSome && retireePresent then .retireVersion
      else .removeJournal)
  | .failing => .ok .restoreRollbackTarget
  | .restored _ => .ok (if retireePresent then .retireVersion else .removeJournal)
  | .resolved _ => .error .invalidJournalContext

/-- The version that the planner would have retired at a position. -/
def retireeAt (c : ActivationJournal) : Position → Option ArtifactIdentity
  | .committed _ => c.priorPreviousKnownGood
  | .restored _ => some c.candidate
  | _ => none

theorem plannedAt_of_context {j c : ActivationJournal} (h : j.context = c.context)
    (location : CandidateLocation) (retireePresent : Bool) (p : Position) :
    plannedAt j location retireePresent p = plannedAt c location retireePresent p := by
  unfold plannedAt
  rw [previous_of_context h]

theorem retireeAt_of_context {j c : ActivationJournal} (h : j.context = c.context) (p : Position) :
    retireeAt j p = retireeAt c p := by
  unfold retireeAt
  rw [candidate_of_context h, previous_of_context h]

variable {blake3} {j : ActivationJournal}

variable {p : Position}

theorem classify_at (hc : ValidContext j) (ho : ValidOwner j) (hp : PhaseAt blake3 j p) :
    classifyProtectedRecoveryState blake3 j (slotsAt j p) =
      match p with
      | .begun _ | .publishing _ _ | .blocked => .resumePublishPending true
      | .floored => .resumePublishPending false
      | .selected => .resumeCandidateHealth
      | .awaiting => .rollback j.rollbackTarget
      | .accepted | .preserved | .committed _ => .finishCommit
      | .failing | .restored _ => .finishRollback j.rollbackTarget
      | .resolved _ => .refuse .invalidJournalContext := by
  have hv : validateActivationJournal j = .ok () := validateActivationJournal_ok.mpr ⟨hc, ho⟩
  have hf := hc.floor_ne
  have htgt := hc.candidate_ne rollbackTarget_mem
  unfold classifyProtectedRecoveryState
  rw [hv]
  cases p with
  | begun _ | publishing _ _ | blocked =>
    have hph : j.phase = .publishPending := hp
    simp [hph, slotsAt, priorSlots]
  | floored =>
    have hph : j.phase = .publishPending := hp
    simp [hph, slotsAt, priorSlots, hf.symm]
  | selected =>
    have hph : j.phase = .publishPending := hp
    simp [hph, slotsAt, candidateSlots, priorSlots, htgt.symm]
  | awaiting =>
    have hph : j.phase = .awaitingHealth := hp
    simp [hph, slotsAt, candidateSlots, priorSlots]
  | accepted | preserved | committed _ =>
    obtain ⟨digest, hph, hdig⟩ := hp
    simp [hph, hdig, slotsAt, committedSlots, candidateSlots, priorSlots]
  | failing | restored _ =>
    obtain ⟨failure, hph⟩ := hp
    simp [hph, slotsAt, candidateSlots, priorSlots]
  | resolved _ => exact hp.elim

theorem retirementDue_at (hc : ValidContext j) (hp : PhaseAt blake3 j p) :
    retirementDue j (slotsAt j p) = retireeAt j p := by
  have htgt := hc.candidate_ne rollbackTarget_mem
  have hgo := hc.candidate_ne lastKnownGood_mem
  unfold retirementDue
  cases p with
  | begun _ | publishing _ _ | blocked | floored | selected =>
    have hph : j.phase = .publishPending := hp
    rw [hph]
    rfl
  | awaiting =>
    have hph : j.phase = .awaitingHealth := hp
    rw [hph]
    rfl
  | accepted | preserved =>
    obtain ⟨digest, hph, -⟩ := hp
    simp [hph, slotsAt, candidateSlots, priorSlots, hgo, retireeAt]
  | committed _ =>
    obtain ⟨digest, hph, -⟩ := hp
    simp [hph, slotsAt, committedSlots, retireeAt]
  | failing =>
    obtain ⟨failure, hph⟩ := hp
    simp [hph, slotsAt, candidateSlots, htgt.symm, retireeAt]
  | restored _ =>
    obtain ⟨failure, hph⟩ := hp
    simp [hph, slotsAt, priorSlots, retireeAt]
  | resolved _ => exact hp.elim

/-- The planner's answer is the plan's next step, as far as the directories tell. -/
theorem nextActivationStep_at (hc : ValidContext j) (ho : ValidOwner j) (hp : PhaseAt blake3 j p)
    (location : CandidateLocation) (retireePresent : Bool) :
    nextActivationStep blake3 j (slotsAt j p) location retireePresent =
      plannedAt j location retireePresent p := by
  have htgt := hc.candidate_ne rollbackTarget_mem
  have hgo := hc.candidate_ne lastKnownGood_mem
  have hpr := hc.previous_ne
  unfold nextActivationStep retireOrRemove
  rw [classify_at hc ho hp, retirementDue_at hc hp]
  cases p with
  | begun _ | publishing _ _ | blocked | floored => cases location <;> rfl
  | selected | awaiting => rfl
  | accepted =>
    simp [slotsAt, candidateSlots, priorSlots, hgo, hpr, plannedAt]
  | preserved => simp [slotsAt, candidateSlots, priorSlots, hgo, plannedAt]
  | committed _ => simp [slotsAt, committedSlots, retireeAt, plannedAt]
  | failing => simp [slotsAt, candidateSlots, plannedAt]
  | restored _ => simp [slotsAt, priorSlots, htgt, retireeAt, plannedAt]
  | resolved _ => exact hp.elim

theorem validateProtectedRecoveryState_at (hc : ValidContext j) (ho : ValidOwner j)
    (hp : PhaseAt blake3 j p) :
    validateProtectedRecoveryState blake3 j (slotsAt j p) = .ok () := by
  unfold validateProtectedRecoveryState
  rw [classify_at hc ho hp]
  cases p with
  | resolved _ => exact hp.elim
  | _ => rfl

end Planner

end Keld.Update
