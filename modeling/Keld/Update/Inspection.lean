/-
# `Keld.Update.Inspection` — recovery sees where the attempt stands

Whoever recovers has only the store.  `At.inspect`: the transaction that the
inspection makes of it agrees with the disk at the very position the attempt was
left at, so that the run lemmas apply to it.  `At.load`: the loader admits every
such store, given that the artifacts of the attempt passed the baseline's checks
when it started.

The versions that recovery holds open are those of the slots and of the journal,
less the one due for retirement, or less a candidate that is not published for
sure; that one is admitted by its name alone.
-/
import Keld.Update.Runs

namespace Keld.Update

open List Store

open SemVer (Version)

/-! ## The versions held open -/

variable {a : ArtifactIdentity}

theorem mem_recoverySelection {j : ActivationJournal} {slots excluded : List ArtifactIdentity} :
    a ∈ recoverySelection j slots excluded ↔
      (a ∈ slots ∨ a ∈ j.candidate :: j.knownGood) ∧ a ∉ excluded := by
  have hfo : ∀ (l selected : List ArtifactIdentity), a ∈ l.foldl (fun selected artifact =>
        if selected.contains artifact || excluded.contains artifact then selected
        else selected ++ [artifact]) selected ↔ a ∈ selected ∨ (a ∈ l ∧ a ∉ excluded) := by
    intro l
    induction l with
    | nil => simp
    | cons b l ih =>
      intro selected
      rw [foldl_cons, ih]
      by_cases hb : b ∈ selected
      · simp only [contains_iff_mem.mpr hb, Bool.true_or, if_true, mem_cons]
        constructor
        · rintro (h | ⟨h, hx⟩)
          · exact .inl h
          · exact .inr ⟨.inr h, hx⟩
        · rintro (h | ⟨rfl | h, hx⟩)
          · exact .inl h
          · exact .inl hb
          · exact .inr ⟨h, hx⟩
      · by_cases hx : b ∈ excluded
        · simp only [contains_iff_mem.mpr hx, Bool.or_true, if_true, mem_cons]
          constructor
          · rintro (h | ⟨h, ha⟩)
            · exact .inl h
            · exact .inr ⟨.inr h, ha⟩
          · rintro (h | ⟨rfl | h, ha⟩)
            · exact .inl h
            · exact absurd hx ha
            · exact .inr ⟨h, ha⟩
        · have hco : (selected.contains b || excluded.contains b) = false := by
            simp [hb, hx]
          simp only [hco, Bool.false_eq_true, if_false, mem_append, mem_cons, not_mem_nil, or_false]
          constructor
          · rintro ((h | rfl) | ⟨h, ha⟩)
            · exact .inl h
            · exact .inr ⟨.inl rfl, hx⟩
            · exact .inr ⟨.inr h, ha⟩
          · rintro (h | ⟨rfl | h, ha⟩)
            · exact .inl (.inl h)
            · exact .inl (.inr rfl)
            · exact .inr ⟨h, ha⟩
  unfold recoverySelection
  rw [hfo]
  simp only [not_mem_nil, false_or, ActivationJournal.knownGood, mem_append, mem_cons, or_false]
  tauto

/-- The slots name artifacts of the attempt only. -/
theorem slotsAt_subset {c : ActivationJournal} {p : Position}
    (ha : a ∈ [(slotsAt c p).current,
      (slotsAt c p).lastKnownGood] ++ (slotsAt c p).previousKnownGood.toList)
    : a ∈ c.candidate :: c.knownGood := by
  cases p with
  | resolved outcome =>
    cases outcome <;>
      simp [slotsAt, committedSlots, candidateSlots, priorSlots, ActivationJournal.knownGood]
        at ha ⊢ <;> tauto
  | _ =>
    simp [slotsAt, committedSlots, candidateSlots, priorSlots, ActivationJournal.knownGood] at ha ⊢
    tauto

section Inspection

variable {blake3 : Digest → Digest → ArtifactIdentity → Digest} {c j : ActivationJournal}
  {p : Position} {s : Store}

/-- Whether the floor still has to advance. -/
def Position.unfloored : Position → Bool
  | .begun _ | .publishing _ _ | .blocked => true
  | _ => false

namespace At

variable (h : At blake3 c p s) (hj : s.journal = some j) (hc : ValidContext c)

include h hj

theorem journalAt : j.context = c.context ∧ ValidOwner j ∧ PhaseAt blake3 j p := by
  have := h.journal
  rwa [hj] at this

theorem artifacts_eq : j.candidate :: j.knownGood = c.candidate :: c.knownGood := by
  rw [candidate_of_context (h.journalAt hj).1, knownGood_of_context (h.journalAt hj).1]

include hc

theorem retirementDue_eq : retirementDue j s.slots = retireeAt c p := by
  obtain ⟨hctx, -, hph⟩ := h.journalAt hj
  rw [h.slots, ← slotsAt_of_context hctx,
    retirementDue_at (validContext_of_context hctx hc) hph, retireeAt_of_context hctx]

theorem unpublishedCandidate_eq : s.unpublishedCandidate j = p.unfloored := by
  obtain ⟨hctx, -, hph⟩ := h.journalAt hj
  have hpr : j.priorFloor = c.priorFloor := priorFloor_of_context hctx
  have hf : s.versionFloor = (slotsAt c p).versionFloor :=
    congrArg ProtectedSlots.versionFloor h.slots
  have hne := hc.floor_ne
  unfold unpublishedCandidate
  rw [hf, hpr]
  cases p with
  | begun _ | publishing _ _ | blocked =>
    have hp : j.phase = .publishPending := hph
    simp [hp, slotsAt, priorSlots, Position.unfloored]
  | floored | selected =>
    have hp : j.phase = .publishPending := hph
    simp [hp, slotsAt, candidateSlots, hne.symm, Position.unfloored]
  | awaiting =>
    have hp : j.phase = .awaitingHealth := hph
    simp [hp, Position.unfloored]
  | accepted | preserved | committed _ =>
    obtain ⟨digest, hacc, -⟩ := hph
    simp [hacc, Position.unfloored]
  | failing | restored _ =>
    obtain ⟨failure, hfa⟩ := hph
    simp [hfa, Position.unfloored]
  | resolved _ => exact hph.elim

/-- The artifacts held open: all of the attempt's, less the excluded one. -/
theorem mem_recoverySelected {a : ArtifactIdentity} :
    a ∈ s.recoverySelected j ↔ a ∈ c.candidate :: c.knownGood ∧ retireeAt c p ≠ some a ∧
      ¬ (p.unfloored = true ∧ a = c.candidate) := by
  have hs : s.slotArtifacts = [(slotsAt c p).current, (slotsAt c p).lastKnownGood] ++
      (slotsAt c p).previousKnownGood.toList := by
    rw [← h.slots]
    rfl
  unfold recoverySelected
  rw [mem_recoverySelection, h.artifacts_eq hj, hs, h.retirementDue_eq hj hc,
    h.unpublishedCandidate_eq hj hc, candidate_of_context (h.journalAt hj).1]
  have hsu : (a ∈ [(slotsAt c p).current, (slotsAt c p).lastKnownGood] ++
      (slotsAt c p).previousKnownGood.toList ∨ a ∈ c.candidate :: c.knownGood) ↔
      a ∈ c.candidate :: c.knownGood := ⟨fun h => h.elim slotsAt_subset id, .inr⟩
  rw [hsu]
  refine and_congr_right fun _ => ?_
  cases p.unfloored <;> simp [eq_comm]

/-- The inspected store as a transaction stands where the attempt was left. -/
theorem inspect (verdict : Verdict) :
    Holds blake3 c ⟨verdict, 0⟩ p (Owner.intoTransaction s (s.inspect j)) := by
  have hsel := fun a => h.mem_recoverySelected hj hc (a := a)
  refine ⟨h, hj, rfl, ?_, ?_, ?_⟩
  · intro v hv
    obtain ⟨a, ha, rfl⟩ := mem_map.mp hv
    obtain ⟨hm, -, hca⟩ := (hsel a).mp ha
    refine ⟨a, ?_, rfl⟩
    have hk : p.unfloored = true → a ∈ c.knownGood := fun hp =>
      (mem_cons.mp hm).resolve_left fun he => hca ⟨hp, he⟩
    cases p with
    | begun _ | blocked => exact hk rfl
    | publishing published _ =>
      rcases published with _ | _ | _
      · exact hk rfl
      · exact hk rfl
      · exact hm
    | _ => exact hm
  · rintro rfl a ha
    refine mem_map.mpr ⟨a, (hsel a).mpr ⟨mem_cons_of_mem _ ha, by simp [retireeAt],
      fun hfa => hc.candidate_ne ha hfa.2⟩, rfl⟩
  · intro i staged hlo
    obtain ⟨-, -, -, -, -, hca, -⟩ := Position.looking_facts blake3 c hlo
    have hun : p.unfloored = true ∧ i = 0 := by
      cases p with
      | begun _ =>
        cases hlo
        exact ⟨rfl, rfl⟩
      | publishing published _ =>
        cases published with
        | none =>
          cases hlo
          exact ⟨rfl, rfl⟩
        | some _ => cases hlo
      | _ => cases hlo
    have habs : s.versionPresent j.candidate.version = false := by
      unfold versionPresent
      rw [candidate_of_context (h.journalAt hj).1, (hca s h.candidate).1]
      rfl
    show (s.locateExcluded j).2 = _
    unfold locateExcluded locateUnpublishedCandidate
    rw [h.unpublishedCandidate_eq hj hc, hun.1, habs, hun.2,
      candidate_of_context (h.journalAt hj).1]
    simp only [if_true, Bool.false_eq_true, if_false]
    rw [findCandidateStage_eq]
    unfold pickIndex
    split_ifs <;> rfl

end At

/-! ## The loader admits every position -/

/-- The checks of the baseline that the artifacts of an attempt passed when it started. -/
structure AdmittedContext (baseline : ArtifactIdentity) (c : ActivationJournal) : Prop where
  floor : FloorAdmitted baseline c.priorFloor
  history : c.priorLastKnownGood = baseline ∨ c.priorPreviousKnownGood.isSome = true
  artifacts : ∀ a ∈ c.candidate :: c.knownGood, Admitted baseline a

variable {a : ArtifactIdentity}

theorem ValidContext.covered_prior (hc : ValidContext c) (ha : a ∈ c.knownGood) :
    Covered c.priorFloor a := by
  obtain ⟨floor, -, hf, -, -, hco⟩ := hc.floors
  obtain ⟨v, hv, hle⟩ := hco a ha
  exact ⟨floor, v, hf, hv, hle⟩

theorem ValidContext.covered_candidate (hc : ValidContext c) (ha : a ∈ c.candidate :: c.knownGood) :
    Covered c.candidate.version a := by
  obtain ⟨floor, version, -, hver, hlt, hco⟩ := hc.floors
  rcases mem_cons.mp ha with rfl | ha
  · exact ⟨version, version, hver, hver, le_refl _⟩
  · obtain ⟨v, hv, hle⟩ := hco a ha
    exact ⟨version, v, hver, hv, hle.trans hlt.le⟩

theorem slotsAt_floor (c : ActivationJournal) (p : Position) :
    slotsAt c p = priorSlots c ∨ (slotsAt c p).versionFloor = c.candidate.version := by
  cases p with
  | begun _ | publishing _ _ | blocked => exact .inl rfl
  | resolved outcome =>
    cases outcome with
    | abandoned => exact .inl rfl
    | committed | rolledBack => exact .inr rfl
  | floored | selected | awaiting | accepted | preserved | committed _ | failing | restored _ =>
    exact .inr rfl

theorem slotsAt_covered (hc : ValidContext c)
    (ha : a ∈ [(slotsAt c p).current,
      (slotsAt c p).lastKnownGood] ++ (slotsAt c p).previousKnownGood.toList)
    : Covered (slotsAt c p).versionFloor a := by
  rcases slotsAt_floor c p with hpr | hf
  · rw [hpr] at ha ⊢
    exact hc.covered_prior ha
  · rw [hf]
    exact hc.covered_candidate (slotsAt_subset ha)

theorem slotsAt_floorAdmitted {baseline : ArtifactIdentity} (ha : AdmittedContext baseline c)
    (p : Position) : FloorAdmitted baseline (slotsAt c p).versionFloor := by
  rcases slotsAt_floor c p with hpr | hf
  · rw [hpr]
    exact ha.floor
  · rw [hf]
    exact (ha.artifacts c.candidate mem_cons_self).floor

section Pins

variable (h : At blake3 c p s) (hj : s.journal = some j) (hc : ValidContext c)

include h hj hc

/-- What recovery holds open is published and verified. -/
theorem At.selected_published {a : ArtifactIdentity} (ha : a ∈ s.recoverySelected j) :
    s.Published a := by
  obtain ⟨hm, hre, hca⟩ := (h.mem_recoverySelected hj hc).mp ha
  refine h.published a ?_
  have hk : a ≠ c.candidate → a ∈ c.knownGood := (mem_cons.mp hm).resolve_left
  cases p with
  | begun _ | publishing _ _ | blocked => exact hk fun he => hca ⟨rfl, he⟩
  | floored | selected | awaiting | accepted | preserved | failing => exact hm
  | committed left =>
    cases left with
    | true => exact hm
    | false =>
      rcases mem_cons.mp hm with rfl | hm
      · exact mem_cons_self
      · rcases hc.mem_knownGood hm with rfl | hs
        · exact mem_cons_of_mem _ mem_cons_self
        · exact absurd hs hre
  | restored left =>
    have hne : a ≠ c.candidate := fun he => hre (congrArg some he.symm)
    cases left with
    | true => exact hm
    | false => exact hk hne
  | resolved _ => exact (h.journalAt hj).2.2.elim

/-- Every directory is held open, or is the one that is admitted by name. -/
theorem At.selected_census {k : String} {dir : VersionDir} (hk : s.versions.get? k = some dir) :
    ∃ a ∈ s.recoverySelected j ++ (s.locateExcluded j).1.toList, dir.name = a.version := by
  obtain ⟨-, a, ha, hn⟩ := h.census k dir hk
  refine ⟨a, ?_, hn⟩
  have hm := censusAt_subset ha
  by_cases hsel : a ∈ s.recoverySelected j
  · exact mem_append_left _ hsel
  · refine mem_append_right _ (Option.mem_toList.mpr ?_)
    rw [h.mem_recoverySelected hj hc] at hsel
    unfold locateExcluded
    rw [h.unpublishedCandidate_eq hj hc, h.retirementDue_eq hj hc,
      candidate_of_context (h.journalAt hj).1]
    cases hun : p.unfloored with
    | true =>
      -- only the candidate is left out, and it is there only if it is published
      have hre : retireeAt c p = none := by
        cases p with
        | begun _ | publishing _ _ | blocked => rfl
        | _ => cases hun
      have he : a = c.candidate := by
        by_contra hne
        exact hsel ⟨hm, by simp [hre], fun hfa => hne hfa.2⟩
      subst he
      have hpr : s.versionPresent c.candidate.version = true := by
        have hnot : c.candidate ∉ c.knownGood := fun hfa => hc.candidate_ne hfa rfl
        cases p with
        | begun _ | blocked => exact absurd ha hnot
        | publishing published _ =>
          cases published with
          | none => exact absurd ha hnot
          | some copy =>
            unfold versionPresent
            rw [h.candidate.1]
            rfl
        | _ => cases hun
      unfold locateUnpublishedCandidate
      rw [hpr]
      rfl
    | false =>
      by_contra hre
      refine hsel ⟨hm, hre, fun hfa => ?_⟩
      rw [hun] at hfa
      cases hfa.1

/-- Recovery is never refused where an attempt can have stopped. -/
theorem At.load {baseline : ArtifactIdentity} (had : AdmittedContext baseline c) :
    loadRecoveryInspection blake3 baseline s = .ok (s.inspect j) := by
  obtain ⟨hctx, ho, hph⟩ := h.journalAt hj
  have hcj := validContext_of_context hctx hc
  have hs : s.slots = slotsAt c p := h.slots
  have hfloorText : s.versionFloor = (slotsAt c p).versionFloor :=
    congrArg ProtectedSlots.versionFloor hs
  have ham := slotsAt_floorAdmitted had p
  obtain ⟨floor, -, hf, -⟩ := id ham
  obtain ⟨prior, -, hpr, -⟩ := id had.floor
  have har : ∀ a ∈ s.slotArtifacts, Admitted baseline a ∧ Covered s.versionFloor a := by
    intro a ha
    have ha' : a ∈ [(slotsAt c p).current, (slotsAt c p).lastKnownGood] ++
        (slotsAt c p).previousKnownGood.toList := by
      rw [← hs]
      exact ha
    rw [hfloorText]
    exact ⟨had.artifacts a (slotsAt_subset ha'), slotsAt_covered hc ha'⟩
  have hre : validateProtectedRecoveryState blake3 j s.slots = .ok () := by
    rw [hs, ← slotsAt_of_context hctx]
    exact validateProtectedRecoveryState_at hcj ho hph
  rw [← hfloorText] at ham hf
  refine orElseError_bind_ok.mpr ⟨j, hj, bind_ok.mpr ⟨floor,
    validateVersionFloor_ok.mpr ⟨ham, hf⟩, ?_⟩⟩
  rw [hre]
  refine bind_unit_ok.mpr ⟨?_, bind_ok.mpr ⟨⟨⟩, forM_ok.mpr fun a ha => ?_,
    orElseError_bind_ok.mpr ⟨prior, ?_, bind_ok.mpr ⟨⟨⟩, forM_ok.mpr fun a ha => ?_, ?_⟩⟩⟩⟩
  · refine require_ok.mpr ?_
    rw [lastKnownGood_of_context hctx, previous_of_context hctx]
    simpa using had.history
  · exact (validateSelectedArtifact_ok hf).mpr (har a ha)
  · rw [priorFloor_of_context hctx]
    exact hpr
  · rw [knownGood_of_context hctx] at ha
    exact (validateSelectedArtifact_ok hpr).mpr
      ⟨had.artifacts a (mem_cons_of_mem _ ha), hc.covered_prior ha⟩
  · have hca := had.artifacts c.candidate mem_cons_self
    obtain ⟨v, -, hv, -⟩ := hca.above
    have hsc : validateArtifactScopeAndBaseline baseline j.candidate = .ok v := by
      rw [candidate_of_context hctx]
      exact validateArtifactScopeAndBaseline_ok.mpr ⟨hca, hv⟩
    have hpi := pinSelectedVersions_ok.mpr ⟨fun k dir hk => h.selected_census hj hc hk,
        fun a ha => ⟨_, h.selected_published hj hc ha, rfl⟩, rfl⟩
    rw [hsc, hpi]
    rfl

end Pins

end Inspection

end Keld.Update
