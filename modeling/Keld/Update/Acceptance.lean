/-
# `Keld.Update.Acceptance` — what the planner accepts

The planner looks at a phase, the protected slots, where the candidate is and
whether the version to retire is there.  A `Combination` is such a view, and
`Reached` are the views that its own steps lead to from the prior slots of a
journal.  An accepted view is one of a position (`plan_position`), each position
is led to with the candidate published (`reached_published`), and so the planner
accepts what its steps lead to and nothing else, as far as it looks: once the
candidate is selected it no longer asks where its directory is.
-/
import Keld.Update.Recovery

namespace Keld.Update

/-- Slots that are classified and not refused are those of a position. -/
theorem classify_position {blake3 : Digest → Digest → ArtifactIdentity → Digest}
    {j : ActivationJournal} {slots : ProtectedSlots}
    (hvalid : validateActivationJournal j = .ok ())
    (h : ∀ reason, classifyProtectedRecoveryState blake3 j slots ≠ .refuse reason) :
    ∃ p, PhaseAt blake3 j p ∧ slots = slotsAt j p := by
  obtain ⟨versionFloor, current, lastKnownGood, previousKnownGood⟩ := slots
  unfold classifyProtectedRecoveryState at h
  rw [hvalid] at h
  cases hph : j.phase with
  | publishPending =>
    rw [hph] at h
    dsimp only at h
    split_ifs at h with hpr hre hsel
    · obtain ⟨rfl, rfl⟩ := hpr
      obtain ⟨rfl, rfl | rfl⟩ := hre
      · exact ⟨.blocked, hph, rfl⟩
      · exact ⟨.floored, hph, rfl⟩
    · obtain ⟨rfl, rfl⟩ := hpr
      obtain ⟨rfl, rfl⟩ := hsel
      exact ⟨.selected, hph, rfl⟩
    · exact absurd rfl (h _)
    · exact absurd rfl (h _)
    · exact absurd rfl (h _)
  | awaitingHealth =>
    rw [hph] at h
    dsimp only at h
    split_ifs at h with hpr hf hc
    · exact absurd rfl (h _)
    · exact absurd rfl (h _)
    · obtain ⟨rfl, rfl⟩ := hpr
      obtain rfl := not_not.mp hf
      obtain rfl := not_not.mp hc
      exact ⟨.awaiting, hph, rfl⟩
    · exact absurd rfl (h _)
  | healthAccepted digest =>
    rw [hph] at h
    dsimp only at h
    split_ifs at h with hdig hf hc hs
    · exact absurd rfl (h _)
    · exact absurd rfl (h _)
    · exact absurd rfl (h _)
    · have hrc := not_not.mp hdig
      obtain rfl := not_not.mp hf
      obtain rfl := not_not.mp hc
      obtain ⟨rfl, rfl | rfl⟩ | ⟨rfl, rfl⟩ := hs
      · exact ⟨.accepted, ⟨digest, hph, hrc⟩, rfl⟩
      · exact ⟨.preserved, ⟨digest, hph, hrc⟩, rfl⟩
      · exact ⟨.committed false, ⟨digest, hph, hrc⟩, rfl⟩
    · exact absurd rfl (h _)
  | rollbackPending failure =>
    rw [hph] at h
    dsimp only at h
    split_ifs at h with hf hpr hc
    · exact absurd rfl (h _)
    · obtain ⟨rfl, rfl⟩ := hpr
      obtain rfl := not_not.mp hf
      obtain rfl | rfl := hc
      · exact ⟨.failing, ⟨failure, hph⟩, rfl⟩
      · exact ⟨.restored false, ⟨failure, hph⟩, rfl⟩
    · exact absurd rfl (h _)
    · exact absurd rfl (h _)

/-- What the planner is asked about. -/
structure Combination where
  phase : ActivationPhase
  slots : ProtectedSlots
  location : CandidateLocation
  retireePresent : Bool
deriving DecidableEq, Repr

section Acceptance

variable (blake3 : Digest → Digest → ArtifactIdentity → Digest) (j : ActivationJournal)

namespace Combination

/-- The journal of the attempt, in the phase of the combination. -/
def journal (c : Combination) : ActivationJournal := { j with phase := c.phase }

/-- The planner's answer. -/
def plan (c : Combination) : Except RecoveryRefusal ActivationStep :=
  nextActivationStep blake3 (c.journal j) c.slots c.location c.retireePresent

/-- What a step of the planner leaves. -/
inductive Performs : ActivationStep → Combination → Combination → Prop
  | publishCandidate (c : Combination) :
      Performs .publishCandidate c { c with location := .published }
  | advanceFloor (c : Combination) :
      Performs .advanceFloor c
        { c with slots := { c.slots with versionFloor := j.candidate.version } }
  | selectCandidate (c : Combination) :
      Performs .selectCandidate c { c with slots := { c.slots with current := j.candidate } }
  | enterAwaitingHealth (c : Combination) :
      Performs .enterAwaitingHealth c { c with phase := .awaitingHealth }
  | accept (c : Combination) {digest : Digest}
      (receipt : activationHealthReceiptDigest blake3 j.attemptId j.healthChannelId j.candidate =
        .ok digest) :
      Performs .awaitHealth c { c with phase := .healthAccepted digest }
  | reject (c : Combination) (failure : ActivationFailureClass) :
      Performs .awaitHealth c { c with phase := .rollbackPending failure }
  | preservePriorKnownGood (c : Combination) :
      Performs .preservePriorKnownGood c
        { c with slots := { c.slots with previousKnownGood := some j.priorLastKnownGood } }
  | commitCandidate (c : Combination) :
      Performs .commitCandidate c { c with slots := { c.slots with lastKnownGood := j.candidate } }
  | restoreRollbackTarget (c : Combination) :
      Performs .restoreRollbackTarget c
        { c with slots := { c.slots with current := j.rollbackTarget } }
  | retireSuperseded (c : Combination) {digest : Digest} (phase : c.phase = .healthAccepted digest) :
      Performs .retireVersion c { c with retireePresent := false }
  | retireCandidate (c : Combination) {failure : ActivationFailureClass}
      (phase : c.phase = .rollbackPending failure) :
      Performs .retireVersion c { c with retireePresent := false, location := .absent }

/-- Zero or more steps of the planner from the prior slots that the journal records. -/
inductive Reached : Combination → Prop
  | prior (location : CandidateLocation) (retireePresent : Bool) :
      Reached ⟨.publishPending, priorSlots j, location, retireePresent⟩
  | step {c c' : Combination} {step : ActivationStep} (reached : Reached c)
      (planned : c.plan blake3 j = .ok step) (performed : Performs blake3 j step c c') : Reached c'

/-- The planner still asks where the candidate is. -/
def Locates (c : Combination) : Prop :=
  c.phase = .publishPending ∧ c.slots.current = j.rollbackTarget

/-- The combination is one of a position of the attempt. -/
structure AtPosition (p : Position) (c : Combination) : Prop where
  phase : PhaseAt blake3 (c.journal j) p
  slots : c.slots = slotsAt j p

variable {blake3 j} {c : Combination} {p : Position}

theorem slotsAt_journal (c : Combination) (p : Position) : slotsAt (c.journal j) p = slotsAt j p :=
  slotsAt_of_context rfl p

theorem plan_at (hvalid : validateActivationJournal j = .ok ()) (h : AtPosition blake3 j p c) :
    c.plan blake3 j = plannedAt j c.location c.retireePresent p := by
  obtain ⟨hc, ho⟩ := validateActivationJournal_ok.mp hvalid
  have hcj : ValidContext (c.journal j) := validContext_of_context (c := j) rfl hc
  have hoj : ValidOwner (c.journal j) :=
    ⟨ho.lifecycle_ne_attempt, ho.lifecycle_ne_health, ho.ownership⟩
  unfold plan
  rw [h.slots, ← slotsAt_journal c p, nextActivationStep_at hcj hoj h.phase]
  exact plannedAt_of_context rfl _ _ p

theorem journal_valid (hvalid : validateActivationJournal j = .ok ()) (c : Combination) :
    validateActivationJournal (c.journal j) = .ok () := by
  obtain ⟨hc, ho⟩ := validateActivationJournal_ok.mp hvalid
  exact validateActivationJournal_ok.mpr ⟨validContext_of_context (c := j) rfl hc,
    ho.lifecycle_ne_attempt, ho.lifecycle_ne_health, ho.ownership⟩

variable {step : ActivationStep}

theorem plan_position (hvalid : validateActivationJournal j = .ok ())
    (h : c.plan blake3 j = .ok step) : ∃ p, AtPosition blake3 j p c := by
  have hacc : ∀ reason,
      classifyProtectedRecoveryState blake3 (c.journal j) c.slots ≠ .refuse reason := by
    intro reason hre
    unfold plan nextActivationStep at h
    rw [hre] at h
    cases h
  obtain ⟨p, hph, hs⟩ := classify_position (journal_valid hvalid c) hacc
  exact ⟨p, hph, hs.trans (slotsAt_journal c p)⟩

/-! ## Positions are reached -/

theorem Reached.follow (hvalid : validateActivationJournal j = .ok ()) {c' : Combination}
    (h : Reached blake3 j c) (hat : AtPosition blake3 j p c)
    (hp : plannedAt j c.location c.retireePresent p = .ok step)
    (hpe : Performs blake3 j step c c') : Reached blake3 j c' :=
  h.step ((plan_at hvalid hat).trans hp) hpe

section Steps

variable (hvalid : validateActivationJournal j = .ok ()) (present : Bool)
include hvalid

theorem reached_floored :
    Reached blake3 j ⟨.publishPending, slotsAt j .floored, .published, present⟩ :=
  (Reached.prior .published present).follow hvalid (p := .blocked) ⟨rfl, rfl⟩ rfl (.advanceFloor _)

theorem reached_selected :
    Reached blake3 j ⟨.publishPending, candidateSlots j, .published, present⟩ :=
  (reached_floored hvalid present).follow hvalid (p := .floored) ⟨rfl, rfl⟩ rfl (.selectCandidate _)

theorem reached_awaiting :
    Reached blake3 j ⟨.awaitingHealth, candidateSlots j, .published, present⟩ :=
  (reached_selected hvalid present).follow hvalid (p := .selected) ⟨rfl, rfl⟩ rfl
    (.enterAwaitingHealth _)

theorem reached_failing (failure : ActivationFailureClass) :
    Reached blake3 j ⟨.rollbackPending failure, candidateSlots j, .published, present⟩ :=
  (reached_awaiting hvalid present).follow hvalid (p := .awaiting) ⟨rfl, rfl⟩ rfl
    (.reject _ failure)

theorem reached_restored (failure : ActivationFailureClass) :
    Reached blake3 j ⟨.rollbackPending failure, slotsAt j (.restored false), .published, present⟩ :=
  (reached_failing hvalid present failure).follow hvalid (p := .failing) ⟨⟨failure, rfl⟩, rfl⟩ rfl
    (.restoreRollbackTarget _)

variable {digest : Digest} (receipt : activationHealthReceiptDigest blake3 j.attemptId
  j.healthChannelId j.candidate = .ok digest)
include receipt

theorem reached_accepted :
    Reached blake3 j ⟨.healthAccepted digest, candidateSlots j, .published, present⟩ :=
  (reached_awaiting hvalid present).follow hvalid (p := .awaiting) ⟨rfl, rfl⟩ rfl
    (.accept _ receipt)

theorem reached_preserved :
    Reached blake3 j ⟨.healthAccepted digest, slotsAt j .preserved, .published, present⟩ :=
  (reached_accepted hvalid present receipt).follow hvalid (p := .accepted)
    ⟨⟨digest, rfl, receipt⟩, rfl⟩ rfl (.preservePriorKnownGood _)

theorem reached_committed :
    Reached blake3 j ⟨.healthAccepted digest, committedSlots j, .published, present⟩ :=
  (reached_preserved hvalid present receipt).follow hvalid (p := .preserved)
    ⟨⟨digest, rfl, receipt⟩, rfl⟩ rfl (.commitCandidate _)

end Steps

/-- With the candidate published, every position is reached. -/
theorem AtPosition.reached (hvalid : validateActivationJournal j = .ok ())
    (h : AtPosition blake3 j p c) (hloc : c.location = .published) : Reached blake3 j c := by
  obtain ⟨phase, slots, location, present⟩ := c
  obtain ⟨hph, rfl⟩ := h
  obtain rfl : location = .published := hloc
  cases p with
  | begun _ | publishing _ _ | blocked =>
    obtain rfl : phase = .publishPending := hph
    exact .prior .published present
  | floored =>
    obtain rfl : phase = .publishPending := hph
    exact reached_floored hvalid present
  | selected =>
    obtain rfl : phase = .publishPending := hph
    exact reached_selected hvalid present
  | awaiting =>
    obtain rfl : phase = .awaitingHealth := hph
    exact reached_awaiting hvalid present
  | accepted =>
    obtain ⟨digest, rfl, receipt⟩ : ∃ digest, phase = .healthAccepted digest ∧ _ := hph
    exact reached_accepted hvalid present receipt
  | preserved =>
    obtain ⟨digest, rfl, receipt⟩ : ∃ digest, phase = .healthAccepted digest ∧ _ := hph
    exact reached_preserved hvalid present receipt
  | committed _ =>
    obtain ⟨digest, rfl, receipt⟩ : ∃ digest, phase = .healthAccepted digest ∧ _ := hph
    exact reached_committed hvalid present receipt
  | failing =>
    obtain ⟨failure, rfl⟩ : ∃ failure, phase = .rollbackPending failure := hph
    exact reached_failing hvalid present failure
  | restored _ =>
    obtain ⟨failure, rfl⟩ : ∃ failure, phase = .rollbackPending failure := hph
    exact reached_restored hvalid present failure
  | resolved _ => exact hph.elim

/-! ## Where the planner looks for the candidate -/

/-- Positions at which the location of the candidate decides. -/
def asks : Position → Bool
  | .begun _ | .publishing _ _ | .blocked | .floored => true
  | _ => false

theorem plannedAt_location (hp : asks p = false) (location location' : CandidateLocation)
    (present : Bool) : plannedAt j location present p = plannedAt j location' present p := by
  cases p <;> first | rfl | cases hp

theorem AtPosition.locates_iff (hvalid : validateActivationJournal j = .ok ())
    (h : AtPosition blake3 j p c) : Locates j c ↔ asks p = true := by
  obtain ⟨hc, -⟩ := validateActivationJournal_ok.mp hvalid
  have htgt : j.rollbackTarget ≠ j.candidate := hc.candidate_ne ValidContext.rollbackTarget_mem
  have hph := h.phase
  unfold Locates
  rw [h.slots]
  cases p with
  | begun _ | publishing _ _ | blocked | floored => exact iff_of_true ⟨hph, rfl⟩ rfl
  | selected => exact iff_of_false (fun hl => htgt hl.2.symm) nofun
  | awaiting =>
    have haw : c.phase = .awaitingHealth := hph
    exact iff_of_false (fun hl => nomatch haw.symm.trans hl.1) nofun
  | accepted | preserved | committed _ =>
    obtain ⟨digest, hacc, -⟩ : ∃ digest, c.phase = .healthAccepted digest ∧ _ := hph
    exact iff_of_false (fun hl => nomatch hacc.symm.trans hl.1) nofun
  | failing | restored _ =>
    obtain ⟨failure, hre⟩ : ∃ failure, c.phase = .rollbackPending failure := hph
    exact iff_of_false (fun hl => nomatch hre.symm.trans hl.1) nofun
  | resolved _ => exact hph.elim

/-- Where the location decides, only a published candidate has its floor advanced or is selected.
-/
theorem plannedAt_published {location : CandidateLocation} {present : Bool}
    (h : plannedAt j location present p = .ok step)
    (hs : step = .advanceFloor ∨ step = .selectCandidate) : location = .published := by
  cases p with
  | begun _ | publishing _ _ | blocked | floored =>
    cases location with
    | published => rfl
    | staged | absent => cases h <;> rcases hs with hs | hs <;> cases hs
  | committed _ | restored _ =>
    unfold plannedAt at h
    split_ifs at h <;> cases h <;> rcases hs with hs | hs <;> cases hs
  | resolved _ => cases h
  | selected | awaiting | accepted | preserved | failing =>
    cases h
    rcases hs with hs | hs <;> cases hs

/-- Where the planner asks, what it accepts is reached as it stands. -/
theorem AtPosition.reached_asking (hvalid : validateActivationJournal j = .ok ())
    (h : AtPosition blake3 j p c) (hasks : asks p = true) (hp : c.plan blake3 j = .ok step) :
    Reached blake3 j c := by
  have hpl := (plan_at hvalid h).symm.trans hp
  cases p with
  | begun _ | publishing _ _ | blocked =>
    obtain ⟨phase, slots, location, present⟩ := c
    obtain ⟨hph, rfl⟩ := h
    obtain rfl : phase = .publishPending := hph
    exact .prior location present
  | floored =>
    refine h.reached hvalid ?_
    generalize c.location = location at hpl ⊢
    cases location with
    | published => rfl
    | staged | absent => cases hpl
  | selected | awaiting | accepted | preserved | committed _ | failing | restored _ =>
    cases hasks
  | resolved _ => exact h.phase.elim

/-- The phase, and for a candidate just selected the floor, in which a step is planned. -/
def Fits (j : ActivationJournal) (c : Combination) : ActivationStep → Prop
  | .enterAwaitingHealth =>
    c.phase = .publishPending ∧ c.slots.versionFloor = j.candidate.version
  | .awaitHealth => c.phase = .awaitingHealth
  | .preservePriorKnownGood | .commitCandidate => ∃ digest, c.phase = .healthAccepted digest
  | .restoreRollbackTarget => ∃ failure, c.phase = .rollbackPending failure
  | _ => True

theorem AtPosition.fits {location : CandidateLocation} {present : Bool}
    (h : AtPosition blake3 j p c) (planned : plannedAt j location present p = .ok step) :
    Fits j c step := by
  have hph := h.phase
  cases p with
  | begun _ | publishing _ _ | blocked | floored => cases location <;> cases planned <;> trivial
  | selected =>
    cases planned
    exact ⟨hph, congrArg ProtectedSlots.versionFloor h.slots⟩
  | awaiting | failing =>
    cases planned
    exact hph
  | accepted | preserved =>
    obtain ⟨digest, hacc, -⟩ : ∃ digest, c.phase = .healthAccepted digest ∧ _ := hph
    cases planned
    exact ⟨digest, hacc⟩
  | committed _ | restored _ =>
    unfold plannedAt at planned
    split_ifs at planned <;> cases planned <;> trivial
  | resolved _ => exact hph.elim

theorem published_of_accepted {P Q : Prop} (h : ∃ digest, c.phase = .healthAccepted digest)
    (hlo : c.phase = .publishPending ∧ P ∨
      (∃ failure, c.phase = .rollbackPending failure) ∨ c.location = .published) :
    Q ∨ (∃ failure, c.phase = .rollbackPending failure) ∨ c.location = .published := by
  obtain ⟨digest, hph⟩ := h
  rcases hlo with ⟨hp, -⟩ | hr
  · cases hp.symm.trans hph
  · exact .inr hr

/-- A published candidate stays published until a rollback retires it. -/
theorem Reached.located (hvalid : validateActivationJournal j = .ok ()) (h : Reached blake3 j c) :
    c.phase = .publishPending ∧ c.slots.versionFloor = j.priorFloor ∨
      (∃ failure, c.phase = .rollbackPending failure) ∨ c.location = .published := by
  obtain ⟨hc, -⟩ := validateActivationJournal_ok.mp hvalid
  induction h with
  | prior location present => exact .inl ⟨rfl, rfl⟩
  | step reached planned performed ih =>
    obtain ⟨p, hat⟩ := plan_position hvalid planned
    rw [plan_at hvalid hat] at planned
    have hf := hat.fits planned
    cases performed with
    | publishCandidate c => exact .inr (.inr rfl)
    | advanceFloor c => exact .inr (.inr (plannedAt_published planned (.inl rfl)))
    | selectCandidate c => exact .inr (.inr (plannedAt_published planned (.inr rfl)))
    | enterAwaitingHealth c =>
      obtain ⟨hph, hfl⟩ := hf
      rcases ih with ⟨-, hpr⟩ | ⟨failure, hre⟩ | hpub
      · exact absurd (hpr.symm.trans hfl) hc.floor_ne
      · cases hph.symm.trans hre
      · exact .inr (.inr hpub)
    | accept c receipt =>
      rcases ih with ⟨hp, -⟩ | ⟨failure, hre⟩ | hpub
      · cases hp.symm.trans hf
      · cases hre.symm.trans hf
      · exact .inr (.inr hpub)
    | reject c failure => exact .inr (.inl ⟨failure, rfl⟩)
    | preservePriorKnownGood | commitCandidate => exact published_of_accepted hf ih
    | restoreRollbackTarget c => exact .inr (.inl hf)
    | retireSuperseded c phase => exact published_of_accepted ⟨_, phase⟩ ih
    | retireCandidate c phase => exact .inr (.inl ⟨_, phase⟩)

/-- The planner accepts exactly what its own steps lead to from the prior slots, and takes the step
they take next.  The candidate's directory is a part of that as long as the journal is pending and
the candidate not selected; afterwards the planner does not ask where it is.  The accepted
combinations are the positions of the attempt, each with its planned step, and without proof that
the old process family is gone recovery refuses whatever it is shown. -/
theorem exact_acceptance (hvalid : validateActivationJournal j = .ok ()) :
    (∀ (c : Combination) (step : ActivationStep), c.plan blake3 j = .ok step ↔
      ∃ location, Reached blake3 j { c with location := location } ∧
        ({ c with location := location } : Combination).plan blake3 j = .ok step ∧
        (Locates j c → location = c.location)) ∧
    (∀ (c : Combination) (step : ActivationStep), c.plan blake3 j = .ok step ↔
      ∃ p, AtPosition blake3 j p c ∧ plannedAt j c.location c.retireePresent p = .ok step) ∧
    ∀ (slots : ProtectedSlots) (family : ProcessFamilyObservation), family ≠ .exited →
      recoveryDecision blake3 j slots family = .refuse .processFamilyNotProven := by
  refine ⟨fun c step => ⟨fun h => ?_, ?_⟩, fun c step => ⟨fun h => ?_, ?_⟩,
    fun slots family hfa => if_pos hfa⟩
  · obtain ⟨p, hat⟩ := plan_position hvalid h
    cases hasks : asks p with
    | false =>
      have hat' : AtPosition blake3 j p { c with location := .published } :=
        ⟨hat.phase, hat.slots⟩
      refine ⟨.published, hat'.reached hvalid rfl, ?_, fun hlo => ?_⟩
      · rw [plan_at hvalid hat', plannedAt_location hasks _ c.location]
        exact (plan_at hvalid hat).symm.trans h
      · rw [(hat.locates_iff hvalid).mp hlo] at hasks
        cases hasks
    | true => exact ⟨c.location, hat.reached_asking hvalid hasks h, h, fun _ => rfl⟩
  · rintro ⟨location, hrch, hp, hlo⟩
    obtain ⟨p, hat'⟩ := plan_position hvalid hp
    have hat : AtPosition blake3 j p c := ⟨hat'.phase, hat'.slots⟩
    cases hasks : asks p with
    | false =>
      rw [plan_at hvalid hat, plannedAt_location hasks _ location]
      exact (plan_at hvalid hat').symm.trans hp
    | true => rwa [hlo ((hat.locates_iff hvalid).mpr hasks)] at hp
  · obtain ⟨p, hat⟩ := plan_position hvalid h
    exact ⟨p, hat, (plan_at hvalid hat).symm.trans h⟩
  · rintro ⟨p, hat, hpl⟩
    exact (plan_at hvalid hat).trans hpl

/-- The candidate of the example update is selected, and its directory is not there. -/
def absentCandidate : Combination := ⟨.publishPending, candidateSlots updateRecord, .absent, false⟩

theorem exact_acceptance_absent :
    absentCandidate.plan exampleHash updateRecord = .ok .enterAwaitingHealth ∧
      ∃ location, Reached exampleHash updateRecord { absentCandidate with location := location } :=
  have hp : absentCandidate.plan exampleHash updateRecord = .ok .enterAwaitingHealth := by
    decide +kernel
  have hacc := ((@exact_acceptance exampleHash _ updateRecord_valid).1
    absentCandidate .enterAwaitingHealth).mp hp
  ⟨hp, hacc.imp fun _ h => h.1⟩

/-- No trace of the planner leaves a selected candidate without its directory, and yet the
combination is accepted. -/
theorem absent_candidate_accepted :
    ¬ ∀ (j : ActivationJournal) (c : Combination), validateActivationJournal j = .ok () →
      ((∃ step, c.plan exampleHash j = .ok step) ↔ Reached exampleHash j c) := by
  intro hcl
  have hp : absentCandidate.plan exampleHash updateRecord = .ok .enterAwaitingHealth := by
    decide +kernel
  have hrch := (hcl updateRecord absentCandidate updateRecord_valid).mp ⟨_, hp⟩
  rcases hrch.located updateRecord_valid with ⟨-, hf⟩ | ⟨failure, hph⟩ | hloc
  · exact absurd hf (by decide +kernel)
  · cases hph
  · cases hloc

end Combination

end Acceptance

end Keld.Update
