/-
# `Keld.Update.Loaders` — what a store is, once a loader has admitted it

Each check of `load.rs` as an equivalence: the scope and baseline of a pointer, the
floor, the census of the `versions` directory and the verification of one tree.
From them `pinSelectedVersions_ok`, which both loaders end with, and
`loadActivationWriteSnapshot_ok`, all that a writer knows when it starts an
attempt.

`Admitted baseline a` is the part that depends on the installation only: `a` is in
the scope of the installed baseline and not below it.
-/
import Keld.Update.Steps

namespace Keld.Update

open SemVer (Version)

/-! ## Pointers and the floor against the baseline -/

/-- In the scope of the baseline, not below it, and the baseline itself at its precedence. -/
structure Admitted (baseline a : ArtifactIdentity) : Prop where
  scope : sameArtifactScope baseline a = true
  above : ∃ v b, Version.parse a.version = some v ∧ Version.parse baseline.version = some b ∧
    b.precedence ≤ v.precedence ∧ (v.precedence = b.precedence → a = baseline)

/-- `a` is of the precedence of `floor` or below. -/
def Covered (floor : String) (a : ArtifactIdentity) : Prop :=
  ∃ f v, Version.parse floor = some f ∧ Version.parse a.version = some v ∧
    v.precedence ≤ f.precedence

/-- The floor is not below the baseline, and is the baseline's own text at its precedence. -/
def FloorAdmitted (baseline : ArtifactIdentity) (floor : String) : Prop :=
  ∃ f b, Version.parse floor = some f ∧ Version.parse baseline.version = some b ∧
    b.precedence ≤ f.precedence ∧ (f.precedence = b.precedence → floor = baseline.version)

theorem sameArtifactScope_comm (a b : ArtifactIdentity) :
    sameArtifactScope a b = sameArtifactScope b a := by
  unfold sameArtifactScope
  rw [BEq.comm (a := a.appId), BEq.comm (a := a.channel), BEq.comm (a := a.target)]

variable {baseline a : ArtifactIdentity} {text : String}

theorem validateArtifactScopeAndBaseline_ok {v : Version} :
    validateArtifactScopeAndBaseline baseline a = .ok v ↔
      Admitted baseline a ∧ Version.parse a.version = some v := by
  unfold validateArtifactScopeAndBaseline
  simp only [bind_unit_ok, orElseError_bind_ok, require_ok, Bool.or_eq_true, bne_iff_ne, ne_eq,
    SemVer.cmpPrecedence_eq_lt, SemVer.cmpPrecedence_eq_eq, beq_iff_eq, not_lt]
  constructor
  · rintro ⟨hsc, v', hv', b, hb, hle, he, hret⟩
    cases hret
    refine ⟨⟨?_, v, b, hv', hb, hle, fun h => ?_⟩, hv'⟩
    · rw [sameArtifactScope_comm]
      exact hsc
    · exact he.resolve_left (not_not_intro h)
  · rintro ⟨⟨hsc, v', b, hv', hb, hle, he⟩, hv⟩
    rw [hv] at hv'
    cases hv'
    refine ⟨?_, v, hv, b, hb, hle, ?_, rfl⟩
    · rw [sameArtifactScope_comm] at hsc
      exact hsc
    · exact (em (v.precedence = b.precedence)).symm.imp_right he

theorem validateSelectedArtifact_ok {floor : Version} (hfl : Version.parse text = some floor) :
    validateSelectedArtifact baseline floor a = .ok () ↔ Admitted baseline a ∧ Covered text a := by
  unfold validateSelectedArtifact
  simp only [bind_ok, validateArtifactScopeAndBaseline_ok, require_ok, bne_iff_ne,
    SemVer.cmpPrecedence_ne_gt]
  constructor
  · rintro ⟨v, ⟨ha, hv⟩, hle⟩
    exact ⟨ha, floor, v, hfl, hv, hle⟩
  · rintro ⟨ha, f, v, hf, hv, hle⟩
    rw [hfl] at hf
    cases hf
    exact ⟨v, ⟨ha, hv⟩, hle⟩

theorem validateVersionFloor_ok {floor : Version} :
    validateVersionFloor baseline text = .ok floor ↔
      FloorAdmitted baseline text ∧ Version.parse text = some floor := by
  unfold validateVersionFloor
  simp only [bind_unit_ok, orElseError_bind_ok, require_ok, Bool.or_eq_true, bne_iff_ne, ne_eq,
    SemVer.cmpPrecedence_eq_lt, SemVer.cmpPrecedence_eq_eq, beq_iff_eq, not_lt]
  constructor
  · rintro ⟨f, hf, b, hb, hle, he, hret⟩
    cases hret
    exact ⟨⟨floor, b, hf, hb, hle, fun h => he.resolve_left (not_not_intro h)⟩, hf⟩
  · rintro ⟨⟨f, b, hf, hb, hle, he⟩, hfl⟩
    rw [hfl] at hf
    cases hf
    exact ⟨floor, hfl, b, hb, hle, (em (floor.precedence = b.precedence)).symm.imp_right he,
      rfl⟩

theorem Admitted.floor (h : Admitted baseline a) : FloorAdmitted baseline a.version := by
  obtain ⟨v, b, hv, hb, hle, he⟩ := h.above
  exact ⟨v, b, hv, hb, hle, fun h => congrArg ArtifactIdentity.version (he h)⟩

/-! ## The `versions` directory -/

namespace Store

variable {s : Store}

variable {a : ArtifactIdentity} {selected : List ArtifactIdentity}
  {retiree : Option ArtifactIdentity}

theorem verifyPublishedVersion_ok :
    s.verifyPublishedVersion a = .ok () ↔
      ∃ dir, s.find? a.version = some dir ∧ dir.tree = ⟨some a, true⟩ := by
  unfold verifyPublishedVersion
  simp only [orElseError_bind_ok, bind_unit_ok, require_ok, beq_iff_eq]
  constructor
  · rintro ⟨⟨name, ⟨complete, intact⟩⟩, hfi, hco, hin⟩
    cases hco
    cases hin
    exact ⟨_, hfi, rfl⟩
  · rintro ⟨dir, hfi, htr⟩
    exact ⟨dir, hfi, by rw [htr], by rw [htr]⟩

theorem validateActivationVersionCensus_ok :
    s.validateActivationVersionCensus selected retiree = .ok () ↔
      ∀ k dir, s.versions.get? k = some dir →
        ∃ a ∈ selected ++ retiree.toList, dir.name = a.version := by
  unfold validateActivationVersionCensus
  rw [forM_ok]
  constructor
  · intro h k dir hk
    have := h dir (OrdMap.mem_values_iff.mpr ⟨k, hk⟩)
    obtain ⟨a, ha, he⟩ := List.any_eq_true.mp (require_ok.mp this)
    exact ⟨a, ha, (beq_iff_eq.mp he).symm⟩
  · intro h dir hd
    obtain ⟨k, hk⟩ := OrdMap.mem_values_iff.mp hd
    obtain ⟨a, ha, he⟩ := h k dir hk
    exact require_ok.mpr (List.any_eq_true.mpr ⟨a, ha, beq_iff_eq.mpr he.symm⟩)

theorem pinSelectedVersions_ok {pins : List String} :
    s.pinSelectedVersions selected retiree = .ok pins ↔
      (∀ k dir, s.versions.get? k = some dir →
        ∃ a ∈ selected ++ retiree.toList, dir.name = a.version) ∧
      (∀ a ∈ selected, ∃ dir, s.find? a.version = some dir ∧ dir.tree = ⟨some a, true⟩) ∧
      pins = selected.map ArtifactIdentity.version := by
  unfold pinSelectedVersions
  rw [bind_ok]
  constructor
  · rintro ⟨⟨⟩, hce, h⟩
    obtain ⟨⟨⟩, hvfy, hret⟩ := bind_ok.mp h
    refine ⟨validateActivationVersionCensus_ok.mp hce, fun a ha => ?_, ?_⟩
    · exact verifyPublishedVersion_ok.mp (forM_ok.mp hvfy a ha)
    · cases hret
      rfl
  · rintro ⟨hce, hvfy, rfl⟩
    refine ⟨(), validateActivationVersionCensus_ok.mpr hce, bind_ok.mpr ⟨(), ?_, rfl⟩⟩
    exact forM_ok.mpr fun a ha => verifyPublishedVersion_ok.mpr (hvfy a ha)

/-- A directory is found under the folding of the name it has. -/
def Keyed (s : Store) : Prop := ∀ k dir, s.versions.get? k = some dir → k = foldName dir.name

/-- Where every directory has the name of a selected version, a version that verifies is found
under its own name. -/
theorem published_of_pinned (hk : s.Keyed)
    (hce : ∀ k dir, s.versions.get? k = some dir → ∃ a ∈ selected, dir.name = a.version)
    (hvfy : ∀ a ∈ selected, ∃ dir, s.find? a.version = some dir ∧ dir.tree = ⟨some a, true⟩)
    (ha : a ∈ selected) : s.Published a := by
  obtain ⟨dir, hfi, htr⟩ := hvfy a ha
  obtain ⟨b, hb, hn⟩ := hce _ dir hfi
  obtain ⟨dir', hfi', htr'⟩ := hvfy b hb
  have hfo : foldName a.version = foldName b.version := by
    rw [hk _ dir hfi, hn]
  have hs : dir = dir' := by
    have : s.find? a.version = s.find? b.version := congrArg s.versions.get? hfo
    rw [hfi, hfi'] at this
    exact Option.some.inj this
  subst hs
  have hab : a = b := by
    rw [htr] at htr'
    exact Option.some.inj (congrArg Tree.complete htr')
  subst hab
  obtain ⟨name, tree⟩ := dir
  subst hn htr
  exact hfi

end Store

end Keld.Update
