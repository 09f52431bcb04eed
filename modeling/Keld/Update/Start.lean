/-
# `Keld.Update.Start` — how an attempt begins

An attempt is *begun* (`Begun`) when its first record is on disk and nothing else
has happened, and its owner is *live* (`Live`) when its transaction agrees with
that.  Every choice of a first stage is that of some live owner.

What the writer's snapshot and the checks of `begin_activation` establish is that a
first record begins an attempt: `begun_of_free`.  The one exception is a candidate
whose version name differs from that of a known-good version in letter case only,
since the texts are compared exactly and the directories are not.  Such an attempt is
at `blocked` (`holds_of_taken`), and stays there.
-/
import Keld.Update.Inspection

namespace Keld.Update

open List Store Owner

open SemVer (Version)

/-! ## An attempt that is begun, and its live owner -/

/-- The store after the first record of an attempt: the slots are the prior ones and nothing but
the known-good versions is published. -/
structure Begun (baseline : ArtifactIdentity) (j : ActivationJournal) (s : Store) : Prop where
  valid : validateActivationJournal j = .ok ()
  phase : j.phase = .publishPending
  admitted : AdmittedContext baseline j
  journal : s.journal = some j
  slots : s.slots = priorSlots j
  published : ∀ a ∈ j.knownGood, s.Published a
  census : ∀ k dir, s.versions.get? k = some dir →
    k = foldName dir.name ∧ ∃ a ∈ j.knownGood, dir.name = a.version
  free : s.find? j.candidate.version = none

/-- The transaction of the owner that wrote that record. -/
structure Live (j : ActivationJournal) (s : Store) (t : Transaction) : Prop where
  disk : t.disk = s
  journal : t.journal = j
  slots : t.slots = s.slots
  pins : ∀ v ∈ t.pins, ∃ a ∈ j.knownGood, a.version = v
  stage : ∃ stage, t.stage = some stage ∧ s.completedStageIdentity stage = some j.candidate
  written : t.written = [.journal j]

section Live

variable {blake3 : Digest → Digest → ArtifactIdentity → Digest} {baseline : ArtifactIdentity}
  {j : ActivationJournal} {s : Store} {t : Transaction}

theorem Begun.validContext (h : Begun baseline j s) : ValidContext j :=
  (validateActivationJournal_ok.mp h.valid).1

theorem Begun.at' (h : Begun baseline j s) :
    At blake3 j (.begun (s.staged j.candidate)) s := { h with
  journal := by
    rw [h.journal]
    exact ⟨rfl, (validateActivationJournal_ok.mp h.valid).2, h.phase⟩
  candidate := ⟨h.free, rfl⟩ }

/-- A complete stage of the candidate is one of those that the plan chooses from. -/
theorem Store.stage_index {stage : String} {candidate : ArtifactIdentity}
    (h : s.completedStageIdentity stage = some candidate) :
    ∃ i, i < (s.staged candidate).length ∧
      ((s.candidateStages candidate)[i]?).map Prod.fst = some stage := by
  obtain ⟨tree, htr, hco⟩ := Option.bind_eq_some_iff.mp h
  have hm : (stage, tree) ∈ s.candidateStages candidate :=
    mem_filter.mpr ⟨OrdMap.mem_toList_iff.mpr htr, by simp [hco]⟩
  obtain ⟨i, hi, hg⟩ := mem_iff_getElem.mp hm
  refine ⟨i, ?_, ?_⟩
  · rw [staged, length_map]
    exact hi
  · rw [getElem?_eq_getElem hi, hg]
    rfl

section

variable (blake3) (hbegun : Begun baseline j s) (h : Live j s t)
include hbegun h

theorem Live.holds (verdict : Verdict) :
    ∃ i, Holds blake3 j ⟨verdict, i⟩ (.begun (s.staged j.candidate)) t := by
  obtain ⟨rfl, rfl, hs, hpi, ⟨stage, hst, hid⟩, -⟩ := h
  obtain ⟨i, hi, hg⟩ := stage_index hid
  refine ⟨i, hbegun.at', hbegun.journal, hs, hpi, by simp, ?_⟩
  intro i' staged hlo
  cases hlo
  rw [hst, ← hg]
  unfold pickIndex
  rw [if_pos hi]

/-- Every choice of a first stage is that of some live owner. -/
theorem Live.choose (d : Choice) :
    ∃ t₁, Live j s t₁ ∧ Holds blake3 j d (.begun (s.staged j.candidate)) t₁ := by
  obtain ⟨rfl, rfl, hs, hpi, ⟨stage, hst, hid⟩, hw⟩ := h
  obtain ⟨i₀, hi₀, -⟩ := stage_index hid
  have hlt : pickIndex d.first (t.disk.staged t.journal.candidate).length <
      (t.disk.candidateStages t.journal.candidate).length := by
    rw [staged, length_map] at hi₀ ⊢
    unfold pickIndex
    split_ifs <;> omega
  have hch := getElem?_eq_getElem hlt
  refine ⟨{ t with stage := ((t.disk.candidateStages t.journal.candidate)[pickIndex d.first
    (t.disk.staged t.journal.candidate).length]?).map Prod.fst },
    ⟨rfl, rfl, hs, hpi, ⟨_, by rw [hch]; rfl, ?_⟩, hw⟩,
    hbegun.at', hbegun.journal, hs, hpi, by simp, ?_⟩
  · obtain ⟨hg, htr⟩ := mem_candidateStages hch
    unfold completedStageIdentity
    rw [hg]
    show Tree.complete _ = _
    rw [htr]
  · intro i' staged hlo
    cases hlo
    rfl

end

end Live

/-! ## What the checks establish -/

section Start

variable {blake3 : Digest → Digest → ArtifactIdentity → Digest} {baseline : ArtifactIdentity}
  {s : Store} {o : Owner} {snapshot : WriteSnapshot} {stage : String}
  {candidate : ArtifactIdentity} {t : Transaction}

/-- An installation that the writer may start from. -/
structure Installed (baseline : ArtifactIdentity) (s : Store) : Prop where
  journal : s.journal = none
  floor : FloorAdmitted baseline s.versionFloor
  history : s.lastKnownGood = baseline ∨ s.previousKnownGood.isSome = true
  admitted : ∀ a ∈ s.slotArtifacts, Admitted baseline a ∧ Covered s.versionFloor a
  current : s.current = s.lastKnownGood ∨ s.previousKnownGood = some s.current
  census : ∀ k dir, s.versions.get? k = some dir → ∃ a ∈ s.slotArtifacts, dir.name = a.version
  verified : ∀ a ∈ s.slotArtifacts,
    ∃ dir, s.find? a.version = some dir ∧ dir.tree = ⟨some a, true⟩

theorem mem_writerSelection {a : ArtifactIdentity} :
    a ∈ s.writerSelection ↔ a ∈ s.slotArtifacts := by
  unfold writerSelection slotArtifacts
  simp only [mem_append, mem_filter]
  constructor
  · rintro (h | ⟨h, -⟩)
    · exact .inl h
    · exact .inr h
  · rintro (h | h)
    · exact .inl h
    · by_cases hm : a ∈ [s.current, s.lastKnownGood]
      · exact .inl hm
      · refine .inr ⟨h, ?_⟩
        rw [Bool.not_eq_true', ← Bool.not_eq_true, contains_iff_mem]
        exact hm

theorem loadActivationWriteSnapshot_ok (h : loadActivationWriteSnapshot baseline s = .ok snapshot) :
    Installed baseline s ∧ snapshot = ⟨s.slots, s.writerSelection.map ArtifactIdentity.version⟩ := by
  obtain ⟨hjrn, h⟩ := bind_unit_ok.mp h
  obtain ⟨floor, hf, h⟩ := bind_ok.mp h
  obtain ⟨hctx, h⟩ := bind_unit_ok.mp h
  obtain ⟨pins, hpi, h⟩ := bind_ok.mp h
  obtain ⟨had, hpa⟩ := validateVersionFloor_ok.mp hf
  obtain ⟨hhi, hctx⟩ := bind_unit_ok.mp hctx
  obtain ⟨hc, hctx⟩ := bind_unit_ok.mp hctx
  obtain ⟨hgo, hctx⟩ := bind_unit_ok.mp hctx
  obtain ⟨hkn, hpr⟩ := bind_unit_ok.mp hctx
  obtain ⟨hce, hve, rfl⟩ := pinSelectedVersions_ok.mp hpi
  refine ⟨⟨?_, had, ?_, ?_, ?_, ?_, ?_⟩, ?_⟩
  · simpa using require_ok.mp hjrn
  · simpa using require_ok.mp hhi
  · intro a ha
    unfold slotArtifacts at ha
    simp only [cons_append, nil_append, mem_cons, Option.mem_toList] at ha
    rcases ha with rfl | rfl | ha
    · exact (validateSelectedArtifact_ok hpa).mp hc
    · exact (validateSelectedArtifact_ok hpa).mp hgo
    · have hchk := forM_ok.mp hpr a (Option.mem_toList.mpr ha)
      exact (validateSelectedArtifact_ok hpa).mp (bind_unit_ok.mp hchk).1
  · simpa using require_ok.mp hkn
  · intro k dir hk
    obtain ⟨a, ha, hn⟩ := hce k dir hk
    refine ⟨a, mem_writerSelection.mp ?_, hn⟩
    simpa using ha
  · intro a ha
    exact hve a (mem_writerSelection.mpr ha)
  · cases h
    rfl

/-- What the checks before the first record establish. -/
theorem beginActivation_ok (h : o.beginActivation baseline s snapshot stage candidate = .ok t) :
    Admitted baseline candidate ∧ s.completedStageIdentity stage = some candidate ∧
      validateActivationJournal (o.freshJournal o.minted snapshot candidate) = .ok () ∧
      t = startTransaction s snapshot stage (o.freshJournal o.minted snapshot candidate) := by
  unfold beginActivation at h
  simp only at h
  split at h
  · cases h
  · rename_i journal hpre
    cases h
    obtain ⟨_, hdi, hpre⟩ := bind_ok.mp hpre
    obtain ⟨_, hpre⟩ := bind_unit_ok.mp hpre
    obtain ⟨hs, hpre⟩ := bind_unit_ok.mp hpre
    obtain ⟨ids, hmi, hpre⟩ := bind_ok.mp hpre
    obtain ⟨hv, hret⟩ := bind_unit_ok.mp hpre
    have hids : ids = o.minted := by
      unfold mintIdentities at hmi
      split_ifs at hmi
      cases hmi
      rfl
    subst hids
    cases hret
    refine ⟨?_, by simpa using require_ok.mp hs, hv, rfl⟩
    cases hsc : validateArtifactScopeAndBaseline baseline candidate with
    | error cause =>
      rw [hsc] at hdi
      cases hdi
    | ok v => exact (validateArtifactScopeAndBaseline_ok.mp hsc).1

/-- The first record of the attempt that `t` is about to start. -/
def Owner.firstRecord (o : Owner) (snapshot : WriteSnapshot) (candidate : ArtifactIdentity) :
    ActivationJournal :=
  { o.freshJournal o.minted snapshot candidate with ownership := some o.ownership }

/-- The transaction after its first record. -/
def Owner.started (o : Owner) (s : Store) (snapshot : WriteSnapshot) (stage : String)
    (candidate : ArtifactIdentity) : Transaction :=
  { (startTransaction s snapshot stage (o.freshJournal o.minted snapshot candidate)).put
      (.journal (o.firstRecord snapshot candidate)) with
    journal := o.firstRecord snapshot candidate
    journaled := true }

theorem attempt_eq (hload : loadActivationWriteSnapshot baseline s = .ok snapshot)
    (hbegin : o.beginActivation baseline s snapshot stage candidate = .ok t)
    (hencode : encodeActivationJournal (o.firstRecord snapshot candidate) = .ok ()) :
    o.attempt blake3 baseline s stage candidate =
      (o.proceed blake3 (o.started s snapshot stage candidate) none).1.written := by
  obtain ⟨-, -, -, rfl⟩ := beginActivation_ok hbegin
  have hr : encodeActivationJournal (Transaction.ownedJournal (startTransaction s snapshot
      stage (o.freshJournal o.minted snapshot candidate)) o.ownership none) = .ok () := hencode
  unfold attempt
  rw [hload]
  simp only [hbegin]
  rw [continueAttempt_recorded hr]
  rfl

/-- An attempt writes nothing, or begins with its first record and proceeds from there. -/
theorem attempt_cases (blake3 : Digest → Digest → ArtifactIdentity → Digest)
    (baseline : ArtifactIdentity) (s : Store) (o : Owner) (stage : String)
    (candidate : ArtifactIdentity) :
    o.attempt blake3 baseline s stage candidate = [] ∨
      ∃ snapshot t, loadActivationWriteSnapshot baseline s = .ok snapshot ∧
        o.beginActivation baseline s snapshot stage candidate = .ok t ∧
        encodeActivationJournal (o.firstRecord snapshot candidate) = .ok () ∧
        o.attempt blake3 baseline s stage candidate =
          (o.proceed blake3 (o.started s snapshot stage candidate) none).1.written := by
  cases hload : loadActivationWriteSnapshot baseline s with
  | error cause =>
    unfold attempt
    rw [hload]
    exact .inl rfl
  | ok snapshot =>
    cases hbegin : o.beginActivation baseline s snapshot stage candidate with
    | error cause =>
      unfold attempt
      rw [hload]
      refine .inl ?_
      simp only [hbegin]
    | ok t =>
      cases hencode : encodeActivationJournal (o.firstRecord snapshot candidate) with
      | error cause =>
        obtain ⟨-, -, -, rfl⟩ := beginActivation_ok hbegin
        have hr : encodeActivationJournal (Transaction.ownedJournal
            (startTransaction s snapshot stage
              (o.freshJournal o.minted snapshot candidate)) o.ownership none) =
            .error cause := hencode
        unfold attempt
        rw [hload]
        simp only [hbegin]
        rw [continueAttempt_refused hr]
        exact .inl rfl
      | ok _ => exact .inr ⟨snapshot, t, rfl, hbegin, hencode, attempt_eq hload hbegin hencode⟩

/-! ## The first record -/

section Begin

variable (hkeyed : s.Keyed) (hload : loadActivationWriteSnapshot baseline s = .ok snapshot)
  (hbegin : o.beginActivation baseline s snapshot stage candidate = .ok t)
  (hencode : encodeActivationJournal (o.firstRecord snapshot candidate) = .ok ())

variable (o candidate) in
include hload in
theorem firstRecord_slots : priorSlots (o.firstRecord snapshot candidate) = s.slots ∧
    (o.firstRecord snapshot candidate).knownGood = s.slotArtifacts := by
  obtain ⟨-, rfl⟩ := loadActivationWriteSnapshot_ok hload
  exact ⟨rfl, rfl⟩

include hload hbegin in
theorem firstRecord_admitted : AdmittedContext baseline (o.firstRecord snapshot candidate) := by
  obtain ⟨hca, -⟩ := beginActivation_ok hbegin
  obtain ⟨-, hk⟩ := firstRecord_slots o candidate hload
  obtain ⟨hin, rfl⟩ := loadActivationWriteSnapshot_ok hload
  refine ⟨hin.floor, hin.history, fun a ha => ?_⟩
  rw [hk] at ha
  rcases mem_cons.mp ha with rfl | ha
  · exact hca
  · exact (hin.admitted a ha).1

include hkeyed hload in
theorem firstRecord_published {a : ArtifactIdentity}
    (ha : a ∈ (o.firstRecord snapshot candidate).knownGood) : s.Published a := by
  obtain ⟨-, hk⟩ := firstRecord_slots o candidate hload
  obtain ⟨hin, -⟩ := loadActivationWriteSnapshot_ok hload
  rw [hk] at ha
  exact published_of_pinned hkeyed hin.census hin.verified ha

variable {dir : VersionDir}

variable (o candidate) in
include hkeyed hload in
theorem firstRecord_census {k : String} (hk : s.versions.get? k = some dir) :
    k = foldName dir.name ∧
      ∃ a ∈ (o.firstRecord snapshot candidate).knownGood, dir.name = a.version := by
  obtain ⟨-, hkn⟩ := firstRecord_slots o candidate hload
  obtain ⟨hin, -⟩ := loadActivationWriteSnapshot_ok hload
  rw [hkn]
  exact ⟨hkeyed k dir hk, hin.census k dir hk⟩

include hkeyed hload hbegin hencode

/-- Where the candidate's name is free, the first record begins the attempt. -/
theorem begun_of_free (hf : s.find? candidate.version = none) :
    Begun baseline (o.firstRecord snapshot candidate) (o.started s snapshot stage candidate).disk ∧
      Live (o.firstRecord snapshot candidate) (o.started s snapshot stage candidate).disk
        (o.started s snapshot stage candidate) := by
  obtain ⟨-, hs, -, -⟩ := beginActivation_ok hbegin
  refine ⟨⟨(bind_unit_ok.mp hencode).1, rfl, firstRecord_admitted hload hbegin, rfl,
    (firstRecord_slots o candidate hload).1.symm, fun a ha => firstRecord_published hkeyed hload ha,
    fun k dir hk => firstRecord_census o candidate hkeyed hload hk, hf⟩,
    ⟨rfl, rfl, ?_, ?_, ⟨stage, rfl, hs⟩, rfl⟩⟩
  · exact (firstRecord_slots o candidate hload).1
  · intro v hv
    obtain ⟨-, hkn⟩ := firstRecord_slots o candidate hload
    rw [hkn]
    obtain ⟨-, rfl⟩ := loadActivationWriteSnapshot_ok hload
    obtain ⟨a, ha, rfl⟩ := mem_map.mp hv
    exact ⟨a, mem_writerSelection.mp ha, rfl⟩

/-- Where a known-good version answers to the candidate's name, the attempt is blocked. -/
theorem holds_of_taken (ht : s.find? candidate.version = some dir)
    (blake3 : Digest → Digest → ArtifactIdentity → Digest) (d : Choice) :
    Holds blake3 (o.firstRecord snapshot candidate) d .blocked
      (o.started s snapshot stage candidate) := by
  obtain ⟨hke, a, ha, hn⟩ := firstRecord_census o candidate hkeyed hload ht
  have hs := firstRecord_slots o candidate hload
  refine ⟨⟨hs.1.symm, ⟨rfl, ?_, rfl⟩, fun a ha => firstRecord_published hkeyed hload ha,
    fun k dir hk => firstRecord_census o candidate hkeyed hload hk, a, ha, ?_⟩, rfl, hs.1, ?_, ?_, ?_⟩
  · exact (validateActivationJournal_ok.mp (bind_unit_ok.mp hencode).1).2
  · rw [← hn]
    exact hke.symm
  · intro v hv
    rw [show pinnedAt (o.firstRecord snapshot candidate) .blocked = s.slotArtifacts from hs.2]
    obtain ⟨-, rfl⟩ := loadActivationWriteSnapshot_ok hload
    obtain ⟨b, hb, rfl⟩ := mem_map.mp hv
    exact ⟨b, mem_writerSelection.mp hb, rfl⟩
  · intro _ b hb
    rw [hs.2] at hb
    obtain ⟨-, rfl⟩ := loadActivationWriteSnapshot_ok hload
    exact mem_map.mpr ⟨b, mem_writerSelection.mpr hb, rfl⟩
  · intro i staged hlo
    cases hlo

end Begin

end Start

end Keld.Update
