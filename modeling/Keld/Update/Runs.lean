/-
# `Keld.Update.Runs` — an owner's whole run follows the plan

From the single steps to the loops: the loop that publishes one copy of the candidate
after another, the loop of `advance`, and around them the owner's first record, the
health decision and recovery, phase by phase.

`recoverTransaction_leads`: a recovery started where the attempt stands follows the
plan from there, under decisions that are the owner's own, but for an attempt that was
waiting for health, which is rolled back.  `continueAttempt_leads`: so does the owner
of a fresh attempt.  That the loop of `advance` is never cut short by its bound is part
of both: `loops` counts the passes a position still needs, and there are at most five.
-/
import Keld.Lib.Trace
import Keld.Update.Loaders

namespace Keld.Update

open List

section Runs

variable {blake3 : Digest → Digest → ArtifactIdentity → Digest} {c : ActivationJournal}
  {d : Choice} {fit : Prop} {α : Type} {p p' : Position} {t t' : Transaction}
  {post : α → Position → Transaction → Prop}

variable {r : Result α} {w : Write} {referenced : List ArtifactIdentity} {i : ℕ}
  {staged : List Bool} {copy : Bool} {outcome : WindowsActivationOutcome}

theorem Leads.cons {l : Fact} (hat : At blake3 c p t.disk) (hd : t'.disk = t.disk.apply w)
    (hw : t'.written = t.written ++ [w]) (hf : w.fact = some l)
    (hs : attemptStep c d p = some (l, p')) (h : Leads blake3 c d fit p' t' r post) :
    Leads blake3 c d fit p t r post := by
  obtain ⟨ws, q, hw', hd', hfol, hres⟩ := h
  rw [hd] at hd' hfol
  refine ⟨w :: ws, q, ?_, hd', .step (d := ()) hat hf hs hfol, hres⟩
  rw [hw', hw, append_assoc]
  rfl

theorem Leads.silent (hat : At blake3 c p t.disk) (hd : t'.disk = t.disk.apply w)
    (hw : t'.written = t.written ++ [w]) (hf : w.fact = none)
    (h : Leads blake3 c d fit p t' r post) :
    Leads blake3 c d fit p t r post := by
  obtain ⟨ws, q, hw', hd', hfol, hres⟩ := h
  rw [hd] at hd' hfol
  refine ⟨w :: ws, q, ?_, hd', .silent hat hf hfol, hres⟩
  rw [hw', hw, append_assoc]
  rfl

/-! ## Publishing until a copy verifies -/

theorem censusAt_subset {a : ArtifactIdentity} (ha : a ∈ censusAt c p) :
    a ∈ c.candidate :: c.knownGood := by
  have hk : ∀ {l : List ArtifactIdentity}, a ∈ l → l = c.knownGood →
      a ∈ c.candidate :: c.knownGood := fun h he => mem_cons_of_mem _ (he ▸ h)
  have hco : a ∈ [c.candidate, c.priorLastKnownGood] → a ∈ c.candidate :: c.knownGood := by
    intro h
    rcases mem_cons.mp h with rfl | h
    · exact mem_cons_self
    · rw [mem_singleton.mp h]
      exact mem_cons_of_mem _ ValidContext.lastKnownGood_mem
  cases p with
  | begun _ | blocked => exact hk ha rfl
  | publishing published _ =>
    cases published with
    | none => exact hk ha rfl
    | some _ => exact ha
  | committed left =>
    cases left with
    | true => exact ha
    | false => exact hco ha
  | restored left =>
    cases left with
    | true => exact ha
    | false => exact hk ha rfl
  | resolved outcome =>
    cases outcome with
    | committed => exact hco ha
    | rolledBack | abandoned => exact hk ha rfl
  | floored | selected | awaiting | accepted | preserved | failing => exact ha

theorem Holds.publicationCensus (h : Holds blake3 c d p t)
    (hre : ∀ a ∈ c.knownGood, a ∈ referenced) :
    t.disk.validatePublicationCensus referenced c.candidate = .ok () := by
  refine Store.validateActivationVersionCensus_ok.mpr fun k dir hk => ?_
  obtain ⟨-, a, ha, hn⟩ := h.at'.census k dir hk
  refine ⟨a, ?_, hn⟩
  rcases mem_cons.mp (censusAt_subset ha) with rfl | ha
  · simp
  · simp [hre a ha]

theorem Holds.pick_isSome (h : Holds blake3 c d p t) (hlo : p.looking d = some (i, staged)) :
    (pick i staged).isSome = t.stage.isSome := by
  obtain ⟨-, -, -, -, -, hca, -⟩ := Position.looking_facts blake3 c hlo
  have hst := (hca t.disk h.at'.candidate).2
  have hs := h.stage i staged hlo
  rw [← hst] at hs ⊢
  rw [hs, Store.pick_staged, Option.isSome_map, Option.isSome_map]

/-- A published copy that does not verify is retired. -/
theorem Holds.retireUnverified (hc : ValidContext c)
    (h : Holds blake3 c d (.publishing (some false) staged) t) :
    ∃ t₁, t.retire c.candidate = (t₁, .ok ()) ∧
      t₁.disk = t.disk.apply (.retire c.candidate.version) ∧
      t₁.written = t.written ++ [.retire c.candidate.version] ∧
      Holds blake3 c d (.publishing none staged)
        { t₁ with stage := t₁.disk.findCandidateStage c.candidate } := by
  obtain ⟨hfi, hst⟩ := h.at'.candidate
  have hpi : ∀ v ∈ t.pins, ∃ tree, t.disk.find? v = some ⟨v, tree⟩ := by
    intro v hv
    obtain ⟨a, ha, rfl⟩ := h.pins v hv
    exact ⟨_, h.at'.published a ha⟩
  have hs : ∀ b ∈ t.slotArtifacts, b.version ≠ c.candidate.version := by
    intro b hb
    rw [h.slotArtifacts_eq] at hb
    exact hc.version_ne hb
  refine ⟨_, Transaction.retire_eq hs hfi hpi, rfl, rfl, ⟨?_, h.journal, h.slots, ?_, by simp, ?_⟩⟩
  · refine h.at'.retire rfl ?_ ?_ ?_ ⟨?_, hst⟩
    · rw [h.journal]
      exact h.journalAt
    · intro a ha
      exact ⟨h.at'.published a ha, Store.fold_ne (h.at'.published a ha) hfi (hc.version_ne ha)⟩
    · intro a ha
      rcases mem_cons.mp ha with rfl | ha
      · exact .inl rfl
      · exact .inr ha
    · rw [Store.find?_retire, if_pos rfl]
  · intro v hv
    exact h.pins v (mem_filter.mp hv).1
  · intro i staged' hlo
    cases hlo
    rw [Store.findCandidateStage_eq]
    unfold pickIndex
    split_ifs <;> rfl

/-- Every pass publishes a stage and uses it up, so the passes suffice. -/
theorem Holds.pinPublished (hc : ValidContext c) (hrefd : ∀ a ∈ c.knownGood, a ∈ referenced) :
    ∀ (n : ℕ) {t : Transaction} {copy : Bool} {staged : List Bool},
      Holds blake3 c d (.publishing (some copy) staged) t → staged.length < n →
      Leads blake3 c d fit (.publishing (some copy) staged) t
        (Transaction.pinPublished c.candidate referenced n t)
        (fun _ q t' => ∃ staged', q = .publishing (some true) staged' ∧ Holds blake3 c d q t')
  | 0, _, _, _, _, hlt => absurd hlt (Nat.not_lt_zero _)
  | n + 1, t, copy, staged, h, hlt => by
    obtain ⟨hfi, -⟩ := h.at'.candidate
    unfold Transaction.pinPublished
    rw [h.publicationCensus hrefd]
    cases copy with
    | true =>
      have hvfy : t.disk.verifyPublishedVersion c.candidate = .ok () :=
        Store.verifyPublishedVersion_ok.mpr ⟨_, hfi, rfl⟩
      simp only [hvfy]
      refine .done h.at' rfl rfl ⟨staged, rfl, h.at', h.journal, h.slots, ?_, by simp, ?_⟩
      · intro v hv
        rcases mem_snoc.mp hv with hv | hv
        · exact h.pins v hv
        · exact ⟨c.candidate, mem_cons_self, hv.symm⟩
      · intro i staged' hlo
        cases hlo
    | false =>
      obtain ⟨t₁, hre, hd, hw, hh⟩ := h.retireUnverified hc
      cases hvfy : t.disk.verifyPublishedVersion c.candidate with
      | ok _ =>
        obtain ⟨dir, hdi, htr⟩ := Store.verifyPublishedVersion_ok.mp hvfy
        rw [hfi] at hdi
        cases hdi
        cases htr
      | error cause =>
        simp only [hre]
        have hd' : ({ t₁ with stage := t₁.disk.findCandidateStage c.candidate } :
            Transaction).disk = t.disk.apply (.retire c.candidate.version) := hd
        refine Leads.cons h.at' hd' hw rfl rfl ?_
        have hs := hh.pick_isSome rfl
        cases hst : t₁.disk.findCandidateStage c.candidate with
        | some stage =>
          rw [hst] at hh
          refine (hh.publishCandidate rfl rfl).andThen ?_
          rintro _ q t' - ⟨copy, rest, hpi, rfl, hh'⟩
          have hl := length_of_pick hpi
          exact Holds.pinPublished hc hrefd n hh' (by omega)
        | none =>
          rw [hst] at hh hs
          have hpi : pick 0 staged = none := Option.isNone_iff_eq_none.mp (by simpa using hs)
          have hstep : attemptStep c d (.publishing none staged) =
              some (.removeJournal, .resolved .abandoned) := by
            show some (publishNext c (pick 0 staged)) = _
            rw [hpi]
            rfl
          obtain ⟨ws, hws, hd', hfol⟩ :=
            removeJournalAs_follows (t := { t₁ with stage := none }) hh.at' hstep
          exact ⟨ws, _, hws, hd', hfol, .inr (.inr rfl)⟩

/-- A version that another directory answers to is not verified, not retired and not written. -/
theorem Holds.pinPublished_blocked (hc : ValidContext c)
    (hrefd : ∀ a ∈ c.knownGood, a ∈ referenced) (n : ℕ) (h : Holds blake3 c d .blocked t)
    {post : Unit → Position → Transaction → Prop} :
    Leads blake3 c d fit .blocked t (Transaction.pinPublished c.candidate referenced (n + 1) t)
      post := by
  obtain ⟨a, ha, hfo⟩ := h.at'.candidate
  have hfi : t.disk.find? c.candidate.version = some ⟨a.version, ⟨some a, true⟩⟩ :=
    (congrArg t.disk.versions.get? hfo.symm).trans (h.at'.published a ha)
  have hany : t.slotArtifacts.any (fun b => b.version == c.candidate.version) = false := by
    rw [any_eq_false, h.slotArtifacts_eq]
    intro b hb
    simpa using hc.version_ne hb
  have ho : (t.pins.filter (fun pin => pin != c.candidate.version)).any
      (fun pin => foldName pin == foldName c.candidate.version) = true := by
    refine any_eq_true.mpr ⟨a.version, mem_filter.mpr ⟨h.held rfl a ha, ?_⟩, ?_⟩
    · simpa using hc.version_ne ha
    · simpa using hfo
  have hre : ∃ t₁ err, t.retire c.candidate = (t₁, .error err) ∧ t₁.disk = t.disk ∧
      t₁.written = t.written := by
    unfold Transaction.retire Store.versionPresent
    simp only [hany, hfi, ho, Option.isSome_some, Bool.not_true, Bool.false_eq_true, if_false,
      if_true]
    exact ⟨_, _, rfl, rfl, rfl⟩
  obtain ⟨t₁, err, hre, hd, hw⟩ := hre
  unfold Transaction.pinPublished
  rw [h.publicationCensus hrefd]
  cases hvfy : t.disk.verifyPublishedVersion c.candidate with
  | ok _ =>
    obtain ⟨dir, hdi, htr⟩ := Store.verifyPublishedVersion_ok.mp hvfy
    rw [hfi] at hdi
    cases hdi
    exact absurd (Option.some.inj (congrArg Tree.complete htr)) (hc.candidate_ne ha)
  | error cause =>
    simp only [hre]
    exact .refuse h.at' hd hw (.inr (.inl rfl))

theorem Holds.pins_not_candidate (hc : ValidContext c) (h : Holds blake3 c d p t)
    (hpin : pinnedAt c p = c.knownGood) : t.pins.contains t.journal.candidate.version = false := by
  rw [h.candidate]
  refine eq_false_of_ne_true fun hco => ?_
  obtain ⟨a, ha, he⟩ := h.pins _ (contains_iff_mem.mp hco)
  rw [hpin] at ha
  exact hc.version_ne ha he

theorem Holds.knownGood_referenced (h : Holds blake3 c d p t) (hs : slotsAt c p = priorSlots c) :
    ∀ a ∈ c.knownGood, a ∈ t.slotArtifacts := by
  intro a ha
  rw [h.slotArtifacts_eq, hs]
  exact ha

/-- A published candidate is verified and held open before the floor may name it. -/
theorem Holds.ensureCandidatePinned (hc : ValidContext c)
    (h : Holds blake3 c d (.publishing (some copy) staged) t) :
    Leads blake3 c d fit (.publishing (some copy) staged) t t.ensureCandidatePinned
      (fun _ q t' => ∃ staged', q = .publishing (some true) staged' ∧ Holds blake3 c d q t') := by
  unfold Transaction.ensureCandidatePinned
  cases hco : t.pins.contains t.journal.candidate.version with
  | true =>
    cases copy with
    | true => exact .done h.at' rfl rfl ⟨staged, rfl, h⟩
    | false =>
      rw [h.pins_not_candidate hc rfl] at hco
      cases hco
  | false =>
    have hl : staged.length ≤ t.disk.stages.length := by
      rw [← h.at'.candidate.2]
      unfold Store.staged Store.candidateStages OrdMap.length
      rw [length_map]
      exact length_filter_le _ _
    rw [h.candidate]
    exact h.pinPublished hc (h.knownGood_referenced rfl) _ (Nat.lt_succ_of_le hl)

theorem Holds.advanceFloor (hc : ValidContext c) (hfit : fit → BoundedJournal c)
    (h : Holds blake3 c d (.publishing (some copy) staged) t) :
    Leads blake3 c d fit (.publishing (some copy) staged) t t.advanceFloor
      (fun _ q t' => q = .floored ∧ Holds blake3 c d .floored t') := by
  refine (h.ensureCandidatePinned hc).andThen ?_
  rintro _ q t' - ⟨staged', rfl, h'⟩
  rw [h'.candidate]
  cases henc : encodeFloor c.candidate.version with
  | error err => exact .refuse h'.at' rfl rfl (.inl (unfit_of_encodeFloor hc hfit henc))
  | ok _ =>
    have hs : t'.slots = priorSlots c := h'.slots_eq
    have hh : Holds blake3 c d .floored
        { t'.put (.floor c.candidate.version) with versionFloor := c.candidate.version } := by
      refine h'.replace rfl rfl rfl ?_ ?_ id ?_ (fun a ha => ⟨a, ha, rfl⟩) trivial rfl
        (fun a ha => ha) (by simp) rfl
      · exact congrArg (fun slots => { slots with versionFloor := c.candidate.version })
          h'.at'.slots
      · exact congrArg (fun slots => { slots with versionFloor := c.candidate.version }) hs
      · intro a ha
        rcases mem_cons.mp ha with rfl | ha
        · exact h'.at'.candidate.1
        · exact h'.at'.published a ha
    exact .write (w := .floor c.candidate.version) h'.at' rfl rfl rfl rfl hh.at' ⟨rfl, hh⟩

theorem Holds.advanceFloor_blocked (hc : ValidContext c) (h : Holds blake3 c d .blocked t)
    {post : Unit → Position → Transaction → Prop} :
    Leads blake3 c d fit .blocked t t.advanceFloor post := by
  unfold Transaction.advanceFloor Transaction.ensureCandidatePinned
  rw [h.pins_not_candidate hc rfl, h.candidate]
  exact (h.pinPublished_blocked hc (h.knownGood_referenced rfl) _).andThen
    (fun _ _ _ _ hfa => (hfa : False).elim)

/-! ## The loop of `advance` -/

/-- How many passes `advance` still needs. -/
def Position.loops : Position → ℕ
  | .begun _ | .publishing none _ => 5
  | .publishing (some _) _ | .blocked | .accepted => 4
  | .floored | .preserved | .failing => 3
  | .selected | .committed true | .restored true => 2
  | .awaiting | .committed false | .restored false => 1
  | .resolved _ => 0

/-- Whether the health decision is still to come. -/
def Position.undecided : Position → Bool
  | .begun _ | .publishing _ _ | .blocked | .floored | .selected | .awaiting => true
  | _ => false

/-- What one pass of `advance` does: wait, resolve the attempt, or take one step. -/
inductive Turn (blake3 : Digest → Digest → ArtifactIdentity → Digest) (c : ActivationJournal)
    (d : Choice) (fit : Prop) (p : Position) (t : Transaction) : Prop
  | wait : p = .awaiting → t.plannedStep blake3 = .ok .awaitHealth → Turn blake3 c d fit p t
  | abandon : p.undecided = true → t.plannedStep blake3 = .ok .abandonAttempt →
      attemptStep c d p = some (.removeJournal, .resolved .abandoned) → Turn blake3 c d fit p t
  | remove (outcome : WindowsActivationOutcome) : p.undecided = false →
      t.plannedStep blake3 = .ok .removeJournal →
      t.removeJournal = (t.removeJournalAs outcome).map id .ok →
      attemptStep c d p = some (.removeJournal, .resolved outcome) → Turn blake3 c d fit p t
  | step (step : ActivationStep) : t.plannedStep blake3 = .ok step →
      step ≠ .awaitHealth → step ≠ .removeJournal → step ≠ .abandonAttempt →
      Leads blake3 c d fit p t (t.perform (retirementDue t.journal t.slots) step)
        (fun _ q t' => Holds blake3 c d q t' ∧ q.loops < p.loops ∧ q.undecided = p.undecided) →
      Turn blake3 c d fit p t

theorem Turn.of_step {step : ActivationStep} (q : Position)
    (hp : t.plannedStep blake3 = .ok step) (hwa : step ≠ .awaitHealth)
    (hre : step ≠ .removeJournal) (hab : step ≠ .abandonAttempt)
    (hlo : q.loops < p.loops) (hun : q.undecided = p.undecided)
    (h : Leads blake3 c d fit p t (t.perform (retirementDue t.journal t.slots) step)
      (fun _ q' t' => q' = q ∧ Holds blake3 c d q t')) : Turn blake3 c d fit p t := by
  refine .step step hp hwa hre hab (h.weaken ?_)
  rintro _ _ t' ⟨rfl, hh⟩
  exact ⟨hh, hlo, hun⟩

/-- While no copy is published, a stage is published or the attempt is abandoned. -/
theorem Holds.turn_looking (hc : ValidContext c) (h : Holds blake3 c d p t)
    (hlo : p.looking d = some (i, staged)) (hlp : p.loops = 5)
    (hun : p.undecided = true)
    (hp : ∀ location present,
      plannedAt c location present p = match location with
        | .published => .ok .advanceFloor
        | .staged => .ok .publishCandidate
        | .absent => .ok .abandonAttempt) :
    Turn blake3 c d fit p t := by
  obtain ⟨hst, -, -, -, -, hca, -⟩ := Position.looking_facts blake3 c hlo
  have hf := (hca t.disk h.at'.candidate).1
  have hpi := h.pick_isSome hlo
  have han := h.plannedStep_eq hc
  have hloc : t.candidateLocation = if t.stage.isSome then .staged else .absent := by
    unfold Transaction.candidateLocation Store.versionPresent
    rw [h.candidate, hf]
    rfl
  rw [hp, hloc] at han
  cases hs : t.stage with
  | some stage =>
    rw [hs] at han
    refine .step .publishCandidate han (by simp) (by simp) (by simp)
      ((h.publishCandidate hlo hs).weaken ?_)
    rintro _ q t' ⟨copy, rest, -, rfl, hh⟩
    refine ⟨hh, ?_, hun.symm⟩
    rw [hlp]
    exact Nat.lt_succ_self 4
  | none =>
    rw [hs] at han hpi
    refine .abandon hun han ?_
    have hn : pick i staged = none := Option.isNone_iff_eq_none.mp (by simpa using hpi)
    rw [hst, hn]
    rfl

theorem Holds.turn (hc : ValidContext c) (hfit : fit → BoundedJournal c)
    (h : Holds blake3 c d p t) : Turn blake3 c d fit p t := by
  have hp := h.plannedStep_eq hc
  have hre := h.retirementDue_eq hc
  have hph := h.journalAt.2.2
  have hpr : ∀ a ∈ publishedAt c p, t.disk.versionPresent a.version = true :=
    fun a ha => (h.at'.published a ha).present
  cases p with
  | begun staged => exact h.turn_looking hc rfl rfl rfl (fun location _ => by cases location <;> rfl)
  | publishing published staged =>
    cases published with
    | none => exact h.turn_looking hc rfl rfl rfl (fun location _ => by cases location <;> rfl)
    | some copy =>
      have hloc : t.candidateLocation = .published := by
        unfold Transaction.candidateLocation Store.versionPresent
        rw [h.candidate, h.at'.candidate.1]
        rfl
      rw [hloc] at hp
      exact .of_step .floored hp (by simp) (by simp) (by simp) (by simp [Position.loops]) rfl
        (h.advanceFloor hc hfit)
  | blocked =>
    have hloc : t.candidateLocation = .published := by
      obtain ⟨a, ha, hfo⟩ := h.at'.candidate
      have hf : t.disk.versionPresent c.candidate.version = true := by
        unfold Store.versionPresent Store.find?
        rw [← hfo]
        exact hpr a ha
      unfold Transaction.candidateLocation
      rw [h.candidate, hf]
      rfl
    rw [hloc] at hp
    exact .step .advanceFloor hp (by simp) (by simp) (by simp) (h.advanceFloor_blocked hc)
  | floored =>
    have hloc : t.candidateLocation = .published := by
      unfold Transaction.candidateLocation
      rw [h.candidate, hpr c.candidate mem_cons_self]
      rfl
    rw [hloc] at hp
    exact .of_step .selected hp (by simp) (by simp) (by simp) (by decide) rfl
      (h.selectCandidate hc hfit)
  | selected =>
    exact .of_step .awaiting hp (by simp) (by simp) (by simp) (by decide) rfl
      (h.enterAwaitingHealth hc hfit)
  | awaiting => exact .wait rfl hp
  | accepted =>
    exact .of_step .preserved hp (by simp) (by simp) (by simp) (by decide) rfl
      (h.preservePriorKnownGood hc hfit)
  | preserved =>
    refine .of_step _ hp (by simp) (by simp) (by simp) ?_ ?_ (h.commitCandidate hc hfit)
    · cases c.priorPreviousKnownGood.isSome <;> decide
    · rfl
  | committed left =>
    obtain ⟨digest, hph, -⟩ := hph
    cases left with
    | true =>
      obtain ⟨previous, hprev⟩ := Option.isSome_iff_exists.mp h.at'.candidate
      have ht := hpr previous (mem_cons_of_mem _ (ValidContext.previous_mem hprev))
      have hrt : retireeAt c (.committed true) = some previous := hprev
      rw [hrt] at hre hp
      simp only [ht, plannedAt, hprev, Option.isSome_some, Bool.and_self, if_true]
        at hp
      refine .of_step (.committed false) hp (by simp) (by simp) (by simp) (by decide) rfl ?_
      rw [hre]
      exact h.retireSuperseded hc hprev
    | false =>
      refine .remove .committed rfl ?_ ?_ rfl
      · rw [hp]
        unfold plannedAt retireeAt
        cases hprev : c.priorPreviousKnownGood with
        | none => rfl
        | some previous =>
          have hg := h.at'.candidate previous hprev
          simp [Store.versionPresent, hg]
      · unfold Transaction.removeJournal
        rw [hph]
  | failing =>
    exact .of_step (.restored true) hp (by simp) (by simp) (by simp) (by decide) rfl
      (h.restoreRollbackTarget hc hfit)
  | restored left =>
    obtain ⟨failure, hph⟩ := hph
    cases left with
    | true =>
      have ht := hpr c.candidate mem_cons_self
      simp only [ht, plannedAt, retireeAt, if_true] at hp
      refine .of_step (.restored false) hp (by simp) (by simp) (by simp) (by decide) rfl ?_
      rw [hre]
      exact h.retireCandidate hc
    | false =>
      refine .remove .rolledBack rfl ?_ ?_ rfl
      · rw [hp]
        have hg : t.disk.find? c.candidate.version = none := h.at'.candidate
        simp [plannedAt, retireeAt, Store.versionPresent, hg]
      · unfold Transaction.removeJournal
        rw [hph]
  | resolved _ => exact hph.elim

/-- What `advance` reports. -/
def Advanced (blake3 : Digest → Digest → ArtifactIdentity → Digest) (c : ActivationJournal)
    (d : Choice) (p : Position) : Progress → Position → Transaction → Prop
  | .awaitingHealth, q, t => p.undecided = true ∧ q = .awaiting ∧ Holds blake3 c d .awaiting t
  | .resolved resolution, q, _ => q = .resolved resolution.outcome ∧
      resolution.current = (slotsAt c q).current ∧
      (p.undecided = true → resolution.outcome = .abandoned)

theorem slotsAt_resolved (hs : attemptStep c d p = some (.removeJournal, .resolved outcome))
    {s : Store} (hat : At blake3 c p s) : slotsAt c (.resolved outcome) = slotsAt c p := by
  rw [← (hat.removeJournal hs).slots, ← hat.slots]
  rfl

theorem Holds.removeJournalAs (h : Holds blake3 c d p t)
    (hs : attemptStep c d p = some (.removeJournal, .resolved outcome))
    (hun : p.undecided = true → outcome = .abandoned) :
    Leads blake3 c d fit p t
      ((t.removeJournalAs outcome).map id (fun resolution => .ok (.resolved resolution)))
      (Advanced blake3 c d p) := by
  obtain ⟨ws, hw, hd, hfol⟩ := removeJournalAs_follows h.at' hs
  refine ⟨ws, _, hw, hd, hfol, rfl, ?_, hun⟩
  rw [slotsAt_resolved hs h.at', ← h.slots_eq]
  rfl

/-- With as many passes as a position needs, `advance` reaches the health decision or the removal
of the journal. -/
theorem Holds.advanceWithin (hc : ValidContext c) (hfit : fit → BoundedJournal c) :
    ∀ (n : ℕ) {p : Position} {t : Transaction}, Holds blake3 c d p t → p.loops ≤ n →
      Leads blake3 c d fit p t (t.advanceWithin blake3 n) (Advanced blake3 c d p)
  | 0, p, t, h, hle => by
    exfalso
    have hph := h.journalAt.2.2
    cases p with
    | resolved _ => exact hph
    | publishing published _ => cases published <;> cases hle
    | committed left | restored left => cases left <;> cases hle
    | begun _ | blocked | floored | selected | awaiting | accepted | preserved | failing =>
      cases hle
  | n + 1, p, t, h, hle => by
    unfold Transaction.advanceWithin
    cases h.turn hc hfit with
    | wait hp hpl =>
      subst hp
      rw [hpl]
      exact .done h.at' rfl rfl ⟨rfl, rfl, h⟩
    | abandon hun hpl hs =>
      rw [hpl]
      exact h.removeJournalAs hs (fun _ => rfl)
    | remove outcome hdec hpl hre hs =>
      rw [hpl]
      simp only [hre]
      refine h.removeJournalAs hs (fun hun => ?_)
      rw [hdec] at hun
      cases hun
    | step step hpl hwa hre hab hld =>
      rw [hpl]
      have hn : Leads blake3 c d fit p t
          (Result.andThen (t.perform (retirementDue t.journal t.slots) step)
            fun t _ => t.advanceWithin blake3 n) (Advanced blake3 c d p) := by
        refine hld.andThen ?_
        rintro _ q t' - ⟨hh, hlo, hun⟩
        have ih := Holds.advanceWithin hc hfit n hh (by omega)
        unfold Advanced at ih ⊢
        rw [hun] at ih
        exact ih
      cases step with
      | awaitHealth => exact absurd rfl hwa
      | removeJournal => exact absurd rfl hre
      | abandonAttempt => exact absurd rfl hab
      | _ => exact hn

theorem Position.loops_le (p : Position) : p.loops ≤ maxStepsPerRun := by
  unfold Position.loops maxStepsPerRun
  split <;> decide

theorem Holds.advance (hc : ValidContext c) (hfit : fit → BoundedJournal c)
    (h : Holds blake3 c d p t) :
    Leads blake3 c d fit p t (t.advance blake3) (Advanced blake3 c d p) :=
  h.advanceWithin hc hfit maxStepsPerRun p.loops_le

/-! ## Owners -/

/-- What a resolved attempt reports. -/
def Resolved (c : ActivationJournal) (resolution : WindowsActivationResolution) (q : Position)
    (_ : Transaction) : Prop :=
  q = .resolved resolution.outcome ∧ resolution.current = (slotsAt c q).current

/-- What recovery requires of its owner: the coordinator's image, fresh identities that collide
with nothing, and a process and logon that may be recorded. -/
structure Owner.Fit (o : Owner) (c : ActivationJournal) : Prop where
  image : o.imageBlake3 = c.helperImageBlake3
  distinct : o.minted.distinct = true
  health_ne : o.minted.health ≠ c.attemptId
  lifecycle_ne : o.minted.lifecycle ≠ c.attemptId
  ownership : validateAttemptOwnership o.ownership = .ok ()

theorem Holds.runToResolution (hc : ValidContext c) (hfit : fit → BoundedJournal c)
    (h : Holds blake3 c d p t) (hdec : p.undecided = false) :
    Leads blake3 c d fit p t (t.runToResolution blake3) (Resolved c) := by
  refine (h.advance hc hfit).andThen ?_
  intro progress q t' hat hadv
  cases progress with
  | awaitingHealth =>
    obtain ⟨hun, -⟩ := hadv
    rw [hdec] at hun
    cases hun
  | resolved resolution => exact .done hat rfl rfl ⟨hadv.1, hadv.2.1⟩

section Owner

variable {o : Owner} (hc : ValidContext c) (hfit : fit → BoundedJournal c)

include hc hfit

/-- The owner at the health decision carries out its verdict. -/
theorem Holds.resolveHealth (h : Holds blake3 c d .awaiting t) (hvdt : d.verdict = o.verdict) :
    Leads blake3 c d fit .awaiting t (o.resolveHealth blake3 t) (Resolved c) := by
  have hs : attemptStep c d .awaiting = some o.verdict.resolve := by
    rw [← hvdt]
    rfl
  unfold Owner.resolveHealth Transaction.healthReceiptDigest
  cases hdig : activationHealthReceiptDigest blake3 t.journal.attemptId
      t.journal.healthChannelId t.journal.candidate with
  | error cause =>
    refine .refuse h.at' rfl rfl (.inl fun hf => ?_)
    rw [h.candidate, receiptDigest_ok blake3 _ _ ((hfit hf).artifact _ mem_cons_self)
      (hc.wire _ mem_cons_self)] at hdig
    cases hdig
  | ok digest =>
    cases hv : o.verdict with
    | accept =>
      rw [hv] at hs
      simp only
      have hac : t.acceptHealth digest (Owner.exactReceipt t) =
          t.writePhase (.healthAccepted digest) := by
        unfold Transaction.acceptHealth Owner.exactReceipt
        simp
      rw [hac]
      refine (h.writePhase hc hfit (.healthAccepted digest) ⟨rfl, rfl, rfl, rfl⟩
        (.inr (.inl rfl)) hs rfl ⟨digest, rfl, hdig⟩).andThen ?_
      rintro _ q t' - ⟨rfl, hh⟩
      exact hh.runToResolution hc hfit rfl
    | rollBack failure =>
      rw [hv] at hs
      have hbi : t.requireRetirementBinding (o.exactRetirement t) o.installationId = .ok () := by
        unfold Transaction.requireRetirementBinding Owner.exactRetirement
        simp
      simp only [Transaction.rollBack, hbi]
      refine (h.writePhase hc hfit (.rollbackPending failure) ⟨rfl, rfl, rfl, rfl⟩
        (.inr (.inr rfl)) hs rfl ⟨failure, rfl⟩).andThen ?_
      rintro _ q t' - ⟨rfl, hh⟩
      exact hh.runToResolution hc hfit rfl

/-- From its first record on, an owner drives the attempt to the end. -/
theorem Holds.proceed (h : Holds blake3 c d p t) (hun : p.undecided = true)
    (hvdt : d.verdict = o.verdict) (reminted : Option MintedIdentities) :
    Leads blake3 c d fit p t (o.proceed blake3 t reminted) (Resolved c) := by
  have had : Leads blake3 c d fit p t (t.settleStart blake3 reminted) (Advanced blake3 c d p) := by
    refine (h.advance hc hfit).andThen ?_
    intro progress q t' hat hadv
    cases progress with
    | awaitingHealth => exact .done hat rfl rfl hadv
    | resolved resolution =>
      cases reminted with
      | none =>
        refine .refuse hat rfl rfl (.inr (.inr ?_))
        rw [hadv.1, hadv.2.2 hun]
      | some _ => exact .done hat rfl rfl hadv
  refine had.andThen ?_
  intro progress q t' hat hadv
  cases progress with
  | awaitingHealth =>
    obtain ⟨-, rfl, hh⟩ := hadv
    exact hh.resolveHealth hc hfit hvdt
  | resolved resolution => exact .done hat rfl rfl ⟨hadv.1, hadv.2.1⟩

variable (blake3) in
omit hc hfit in
theorem phaseAt_pending (hun : p.undecided = true) (haw : p ≠ .awaiting)
    (j : ActivationJournal) : PhaseAt blake3 j p ↔ j.phase = .publishPending := by
  cases p with
  | awaiting => exact absurd rfl haw
  | begun _ | publishing _ _ | blocked | floored | selected => exact Iff.rfl
  | accepted | preserved | committed _ | failing | restored _ | resolved _ => cases hun

omit hc hfit in
/-- The transaction after a record that only names a new owner. -/
theorem Holds.owned {j : ActivationJournal} (h : Holds blake3 c d p t)
    (hun : p.undecided = true) (haw : p ≠ .awaiting)
    (hctx : j.context = t.journal.context) (hph : j.phase = t.journal.phase)
    (ho : ValidOwner j) :
    Holds blake3 c d p { t.put (.journal j) with journal := j, journaled := true } := by
  have hp := phaseAt_pending blake3 hun haw
  refine ⟨h.at'.replace rfl h.at'.slots ?_ h.at'.published (fun a ha => ⟨a, ha, rfl⟩) ?_, rfl,
    h.slots, h.pins, h.held, h.stage⟩
  · refine ⟨hctx.trans h.journalAt.1, ho, (hp j).mpr ?_⟩
    rw [hph]
    exact (hp t.journal).mp h.journalAt.2.2
  · cases p with
    | publishing published _ => rcases published with _ | _ <;> exact h.at'.candidate
    | committed | restored | resolved => cases hun
    | _ => exact h.at'.candidate

variable {reminted : Option MintedIdentities}

omit hc hfit in
theorem Owner.continueAttempt_refused {cause : UpdateError}
    (h : encodeActivationJournal (t.ownedJournal o.ownership reminted) = .error cause) :
    o.continueAttempt blake3 t reminted = (t, .error (t.beforeRecord cause)) := by
  unfold Owner.continueAttempt Transaction.recordOwner
  simp only [h]
  rfl

omit hc hfit in
theorem Owner.continueAttempt_recorded
    (h : encodeActivationJournal (t.ownedJournal o.ownership reminted) = .ok ()) :
    o.continueAttempt blake3 t reminted =
      o.proceed blake3 { t.put (.journal (t.ownedJournal o.ownership reminted)) with
        journal := t.ownedJournal o.ownership reminted
        journaled := true } reminted := by
  unfold Owner.continueAttempt Transaction.recordOwner
  simp only [h]
  rfl

omit hfit in
/-- A resumed attempt: a record with fresh channels, then on to the end. -/
theorem Holds.continueAttempt (hfit : fit → BoundedJournal c ∧ o.Fit c)
    (h : Holds blake3 c d p t) (hun : p.undecided = true) (haw : p ≠ .awaiting)
    (hvdt : d.verdict = o.verdict) :
    Leads blake3 c d fit p t (o.continueAttempt blake3 t (some o.minted)) (Resolved c) := by
  have hctx : (t.ownedJournal o.ownership (some o.minted)).context = c.context := h.journalAt.1
  cases henc : encodeActivationJournal (t.ownedJournal o.ownership (some o.minted)) with
  | error cause =>
    rw [Owner.continueAttempt_refused henc]
    refine .refuse h.at' rfl rfl (.inl fun hf => ?_)
    obtain ⟨hbd, ho⟩ := hfit hf
    have hatt : t.journal.attemptId = c.attemptId := attemptId_of_context h.journalAt.1
    have hdi := ho.distinct
    simp only [MintedIdentities.distinct, Bool.and_eq_true, bne_iff_ne] at hdi
    refine unfit_of_encodeJournal hc (fun _ => hbd) hctx ⟨?_, ?_, ?_⟩ henc trivial
    · show o.minted.lifecycle ≠ t.journal.attemptId
      rw [hatt]
      exact ho.lifecycle_ne
    · exact hdi.1.1.1.2.symm
    · intro ownership hon
      cases hon
      exact ho.ownership
  | ok _ =>
    have ho : ValidOwner (t.ownedJournal o.ownership (some o.minted)) :=
      (validateActivationJournal_ok.mp (bind_unit_ok.mp henc).1).2
    have hfa : Write.fact (.journal (t.ownedJournal o.ownership (some o.minted))) = none := by
      show t.journal.phase.fact = none
      rw [(phaseAt_pending blake3 hun haw _).mp h.journalAt.2.2]
      rfl
    have hh := h.owned hun haw (j := t.ownedJournal o.ownership (some o.minted))
      rfl rfl ho
    rw [Owner.continueAttempt_recorded henc]
    exact Leads.silent h.at' rfl rfl hfa
      (hh.proceed hc (fun hf => (hfit hf).1) hun hvdt (some o.minted))

/-- The decisions of an owner that takes over at a position. -/
def Owner.choice (o : Owner) (p : Position) : Choice where
  verdict := if p = .awaiting then .rollBack .processCrash else o.verdict
  first := 0

omit hfit in
/-- Recovery follows the plan from where the attempt stands. -/
theorem Holds.recoverTransaction (hfit : fit → BoundedJournal c ∧ o.Fit c)
    (h : Holds blake3 c (o.choice p) p t) :
    Leads blake3 c (o.choice p) fit p t (o.recoverTransaction blake3 t) (Resolved c) := by
  have hbd : fit → BoundedJournal c := fun hf => (hfit hf).1
  have hatt : t.journal.attemptId = c.attemptId := attemptId_of_context h.journalAt.1
  have hbi : t.requireRetirementBinding (o.exactRetirement t) o.installationId = .ok () := by
    unfold Transaction.requireRetirementBinding Owner.exactRetirement
    simp
  have href (cause : UpdateError) (hre : t.remint o.minted = .error cause) :
      Leads blake3 c (o.choice p) fit p t (t, .error cause) (Resolved c) := by
    unfold Transaction.remint mintIdentities at hre
    refine .refuse h.at' rfl rfl (.inl fun hf => ?_)
    have ho := (hfit hf).2
    rw [if_pos ho.distinct] at hre
    dsimp only at hre
    split_ifs at hre with hco
    rw [hatt] at hco
    exact hco.elim ho.health_ne ho.lifecycle_ne
  have hrs (channels : MintedIdentities) (hre : t.remint o.minted = .ok channels)
      (hun : p.undecided = true) (haw : p ≠ .awaiting) :
      Leads blake3 c (o.choice p) fit p t (o.continueAttempt blake3 t (some channels))
        (Resolved c) := by
    unfold Transaction.remint mintIdentities at hre
    split_ifs at hre with hdi
    dsimp only at hre
    split_ifs at hre
    cases hre
    exact h.continueAttempt hc hfit hun haw (if_neg haw)
  unfold Owner.recoverTransaction
  split_ifs with hig
  · refine .refuse h.at' rfl rfl (.inl fun hf => hig ?_)
    rw [(hfit hf).2.image, helperImage_of_context h.journalAt.1]
  · rw [hbi]
    have hph := h.journalAt.2.2
    cases p with
    | begun _ | publishing _ _ | blocked | floored | selected =>
      have hp : t.journal.phase = .publishPending := hph
      simp only [hp]
      cases hre : t.remint o.minted with
      | error cause => exact href cause hre
      | ok channels => exact hrs channels hre rfl (by simp)
    | awaiting =>
      have haw : t.journal.phase = .awaitingHealth := hph
      simp only [haw]
      refine (h.writePhase hc hbd (.rollbackPending .processCrash) ⟨rfl, rfl, rfl, rfl⟩
        (.inr (.inr rfl)) rfl rfl ⟨_, rfl⟩).andThen ?_
      rintro _ q t' - ⟨rfl, hh⟩
      exact hh.runToResolution hc hbd rfl
    | accepted | preserved | committed _ =>
      obtain ⟨digest, hacc, -⟩ := hph
      simp only [hacc]
      exact h.runToResolution hc hbd rfl
    | failing | restored _ =>
      obtain ⟨failure, hfa⟩ := hph
      simp only [hfa]
      exact h.runToResolution hc hbd rfl
    | resolved _ => exact hph.elim

end Owner

end Runs

end Keld.Update
