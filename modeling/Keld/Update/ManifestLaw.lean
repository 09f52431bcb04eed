/-
# `Keld.Update.ManifestLaw` — which manifests are accepted, and what is selected

`WireRelease.Valid` says what a release must be on its own, without the order in
which it is looked at.  The sorted list of releases and the two scans over it are
those of `Keld.Lib.Ranked` with the precedence of a version for the key, so a tie
anywhere is found, and the release selected is the one of greatest precedence.
-/
import Keld.Update.Manifest
import Mathlib.Data.List.Perm.Basic

namespace Keld.Update

open List ValidRelease

open SemVer (Version Precedence)
open Pack (maxArtifactBytes)

/-! ## Valid on its own -/

/-- A positive integer that JSON readers agree on. -/
def Number.Size (number : Number) : Prop :=
  ∃ n, number.asU64 = some n ∧ 1 ≤ n ∧ n ≤ maxArtifactBytes

/-- Sixty-four hexadecimal digits. -/
def DigestText (text : String) : Prop :=
  (utf8 text).length = 64 ∧ ∀ b ∈ utf8 text, (hexValue b).isSome

structure WireDelta.Valid (delta : WireDelta) : Prop where
  version : (Version.parse delta.fromVersion).isSome
  size : delta.size.Size
  blake3 : DigestText delta.blake3

structure WireRelease.Valid (release : WireRelease) : Prop where
  version : (Version.parse release.version).isSome
  size : release.full.size.Size
  blake3 : DigestText release.full.blake3
  contentSize : release.full.contentSize.Size
  contentBlake3 : DigestText release.full.contentBlake3
  deltas : ∀ delta ∈ release.deltas, delta.Valid
  /-- No two deltas start from one version text. -/
  distinct : (release.deltas.map WireDelta.fromVersion).Nodup

/-- The precedence of a version text. -/
def precedenceOf (text : String) : Option Precedence := (Version.parse text).map Version.precedence

/-! ## The checks -/

variable {crate : SemVerCrate} {field : String}

theorem parseVersion_ok {text : String} {version : Version} :
    parseVersion crate field text = .ok version ↔ Version.parse text = some version :=
  orElseError_ok

theorem parseSize_ok {number : Number} {n : ℕ} :
    parseSize field number = .ok n ↔ number.asU64 = some n ∧ 1 ≤ n ∧ n ≤ maxArtifactBytes := by
  unfold parseSize
  rw [orElseError_bind_ok]
  constructor
  · rintro ⟨value, hva, h⟩
    obtain ⟨hra, h⟩ := bind_unit_ok.mp h
    cases h
    exact ⟨hva, by simpa using require_ok.mp hra⟩
  · rintro ⟨hva, hra⟩
    exact ⟨n, hva, bind_unit_ok.mpr ⟨require_ok.mpr (by simpa using hra), rfl⟩⟩

theorem parseDigest_ok {text : String} :
    (∃ digest, parseDigest field text = .ok digest) ↔ DigestText text := by
  constructor
  · rintro ⟨digest, h⟩
    obtain ⟨hsh, h⟩ := bind_unit_ok.mp h
    obtain ⟨bytes, hby, -⟩ := orElseError_bind_ok.mp h
    have hl : (utf8 text).length = 64 := by
      have hbo := require_ok.mp hsh
      rw [Bool.and_eq_true, decide_eq_true_eq] at hbo
      exact hbo.1
    refine ⟨hl, (hexPairs_isSome (by rw [hl])).mp ?_⟩
    rw [hby]
    rfl
  · rintro ⟨hl, hdi⟩
    obtain ⟨bytes, hby⟩ := Option.isSome_iff_exists.mp ((hexPairs_isSome (by rw [hl])).mpr hdi)
    refine ⟨_, bind_unit_ok.mpr ⟨require_ok.mpr ?_, orElseError_bind_ok.mpr ⟨bytes, hby, rfl⟩⟩⟩
    rw [Bool.and_eq_true, decide_eq_true_eq, all_eq_true]
    exact ⟨hl, fun b hb => decide_eq_true (hexValue_ascii (hdi b hb))⟩

theorem validateDelta_ok {seen seen' : List String} {delta : WireDelta} :
    validateDelta crate seen delta = .ok seen' ↔
      delta.Valid ∧ delta.fromVersion ∉ seen ∧ seen' = delta.fromVersion :: seen := by
  constructor
  · intro h
    obtain ⟨version, hver, h⟩ := bind_ok.mp h
    obtain ⟨hf, h⟩ := bind_unit_ok.mp h
    obtain ⟨size, hs, h⟩ := bind_ok.mp h
    obtain ⟨digest, hdig, h⟩ := bind_ok.mp h
    cases h
    refine ⟨⟨?_, ⟨size, parseSize_ok.mp hs⟩, parseDigest_ok.mp ⟨digest, hdig⟩⟩, ?_, rfl⟩
    · rw [parseVersion_ok.mp hver]
      rfl
    · simpa using require_ok.mp hf
  · rintro ⟨⟨hver, ⟨size, hs⟩, hdig⟩, hf, rfl⟩
    obtain ⟨version, hver⟩ := Option.isSome_iff_exists.mp hver
    obtain ⟨digest, hdig⟩ := parseDigest_ok.mpr hdig
    refine bind_ok.mpr ⟨version, parseVersion_ok.mpr hver, bind_unit_ok.mpr ⟨?_, ?_⟩⟩
    · exact require_ok.mpr (by simpa using hf)
    · exact bind_ok.mpr ⟨size, parseSize_ok.mpr hs, bind_ok.mpr ⟨digest, hdig, rfl⟩⟩

/-- The loop over the deltas, behind those already seen. -/
theorem foldlM_validateDelta {deltas : List WireDelta} {seen : List String} :
    (∃ seen', deltas.foldlM (validateDelta crate) seen = .ok seen') ↔
      (∀ delta ∈ deltas, delta.Valid) ∧ (deltas.map WireDelta.fromVersion).Nodup ∧
        ∀ delta ∈ deltas, delta.fromVersion ∉ seen := by
  induction deltas generalizing seen with
  | nil => simp [pure, Except.pure]
  | cons delta deltas ih =>
    rw [foldlM_cons]
    constructor
    · rintro ⟨seen', h⟩
      obtain ⟨next, hde, h⟩ := bind_ok.mp h
      obtain ⟨hv, hf, rfl⟩ := validateDelta_ok.mp hde
      obtain ⟨ha, hno, hn⟩ := ih.mp ⟨seen', h⟩
      refine ⟨forall_mem_cons.mpr ⟨hv, ha⟩, ?_, ?_⟩
      · rw [map_cons, nodup_cons]
        refine ⟨fun hm => ?_, hno⟩
        obtain ⟨other, ho, he⟩ := mem_map.mp hm
        exact hn other ho (he ▸ mem_cons_self)
      · exact forall_mem_cons.mpr ⟨hf, fun other ho hm =>
          hn other ho (mem_cons_of_mem _ hm)⟩
    · rintro ⟨ha, hno, hn⟩
      obtain ⟨hv, ha⟩ := forall_mem_cons.mp ha
      obtain ⟨hf, hn⟩ := forall_mem_cons.mp hn
      rw [map_cons, nodup_cons] at hno
      have hr : ∀ other ∈ deltas, other.fromVersion ∉ delta.fromVersion :: seen := by
        intro other ho hm
        rcases mem_cons.mp hm with he | hm
        · exact hno.1 (he ▸ mem_map_of_mem ho)
        · exact hn other ho hm
      obtain ⟨seen', h⟩ := ih.mpr ⟨ha, hno.2, hr⟩
      exact ⟨seen', bind_ok.mpr ⟨_, validateDelta_ok.mpr ⟨hv, hf, rfl⟩, h⟩⟩

theorem validateDeltas_ok {deltas : List WireDelta} :
    validateDeltas crate deltas = .ok () ↔
      (∀ delta ∈ deltas, delta.Valid) ∧ (deltas.map WireDelta.fromVersion).Nodup := by
  have hl := @foldlM_validateDelta crate deltas []
  constructor
  · intro h
    obtain ⟨seen, hse, -⟩ := bind_ok.mp h
    obtain ⟨ha, hno, -⟩ := hl.mp ⟨seen, hse⟩
    exact ⟨ha, hno⟩
  · rintro ⟨ha, hno⟩
    obtain ⟨seen, hse⟩ := hl.mpr ⟨ha, hno, fun _ _ => not_mem_nil⟩
    exact bind_ok.mpr ⟨seen, hse, rfl⟩

/-- What a valid release keeps of the wire. -/
structure Validated (wire : WireRelease) (release : ValidRelease) : Prop where
  versionText : release.versionText = wire.version
  version : Version.parse wire.version = some release.version
  publishedAt : release.publishedAt = wire.publishedAt
  url : release.full.url = wire.full.url
  size : wire.full.size.asU64 = some release.full.size
  contentSize : wire.full.contentSize.asU64 = some release.full.contentSize

theorem validateRelease_ok {wire : WireRelease} {release : ValidRelease}
    (h : validateRelease crate wire = .ok release) : wire.Valid ∧ Validated wire release := by
  obtain ⟨version, hver, h⟩ := bind_ok.mp h
  obtain ⟨size, hs, h⟩ := bind_ok.mp h
  obtain ⟨blake3, hblake3, h⟩ := bind_ok.mp h
  obtain ⟨contentSize, hcontentSize, h⟩ := bind_ok.mp h
  obtain ⟨contentBlake3, hcontentBlake3, h⟩ := bind_ok.mp h
  obtain ⟨hde, h⟩ := bind_unit_ok.mp h
  cases h
  rw [parseVersion_ok] at hver
  rw [parseSize_ok] at hs hcontentSize
  obtain ⟨ha, hno⟩ := validateDeltas_ok.mp hde
  refine ⟨?_, ⟨rfl, hver, rfl, rfl, hs.1, hcontentSize.1⟩⟩
  exact {
    version := by
      rw [hver]
      rfl
    size := ⟨size, hs⟩
    blake3 := parseDigest_ok.mp ⟨_, hblake3⟩
    contentSize := ⟨contentSize, hcontentSize⟩
    contentBlake3 := parseDigest_ok.mp ⟨_, hcontentBlake3⟩
    deltas := ha
    distinct := hno }

theorem validateRelease_of_valid {wire : WireRelease} (h : wire.Valid) :
    ∃ release, validateRelease crate wire = .ok release := by
  obtain ⟨version, hver⟩ := Option.isSome_iff_exists.mp h.version
  obtain ⟨size, hs⟩ := h.size
  obtain ⟨contentSize, hcontentSize⟩ := h.contentSize
  obtain ⟨blake3, hblake3⟩ := (@parseDigest_ok "release.full.blake3" _).mpr h.blake3
  obtain ⟨contentBlake3, hcontentBlake3⟩ :=
    (@parseDigest_ok "release.full.contentBlake3" _).mpr h.contentBlake3
  unfold validateRelease
  rw [parseVersion_ok.mpr hver, parseSize_ok.mpr hs, hblake3, parseSize_ok.mpr hcontentSize,
    hcontentBlake3, validateDeltas_ok.mpr ⟨h.deltas, h.distinct⟩]
  exact ⟨_, rfl⟩

/-! ## Ties and the highest -/

/-- What releases are compared by. -/
def ValidRelease.rank (release : ValidRelease) : Precedence := release.version.precedence

theorem equalNeighbours_eq (releases : List ValidRelease) :
    equalNeighbours releases = firstTie rank releases := by
  induction releases using equalNeighbours.induct with
  | case1 left right rest he =>
    have hra : left.rank = right.rank := SemVer.cmpPrecedence_eq_eq.mp he
    rw [equalNeighbours, if_pos he, firstTie, if_pos hra]
  | case2 left right rest hne ih =>
    have hra : left.rank ≠ right.rank := fun he => hne (SemVer.cmpPrecedence_eq_eq.mpr he)
    rw [equalNeighbours, if_neg hne, firstTie, if_neg hra, ih]
  | case3 releases h =>
    rcases releases with _ | ⟨left, _ | ⟨right, rest⟩⟩
    · rfl
    · rfl
    · exact absurd rfl (h left right rest)

theorem laterMax_eq (best next : ValidRelease) : laterMax best next = higher rank best next := by
  exact if_congr SemVer.cmpPrecedence_eq_gt rfl rfl

theorem maxByPrecedence_eq (releases : List ValidRelease) :
    maxByPrecedence releases = highest rank releases := by
  cases releases with
  | nil => rfl
  | cons first rest =>
    have hs : laterMax = higher rank := funext₂ laterMax_eq
    rw [maxByPrecedence, highest, hs]

theorem pairwise_precedenceOrder (releases : List ValidRelease) :
    (precedenceOrder releases).Pairwise fun a b => a.rank ≤ b.rank := by
  have hso : (precedenceOrder releases).Pairwise fun left right =>
      decide (left.version.cmpPrecedence right.version ≠ .gt) = true :=
    pairwise_mergeSort (fun a b c hab hbc => ?_) (fun a b => ?_) releases
  · exact hso.imp fun h => SemVer.cmpPrecedence_ne_gt.mp (of_decide_eq_true h)
  · rw [decide_eq_true_eq, SemVer.cmpPrecedence_ne_gt] at hab hbc ⊢
    exact hab.trans hbc
  · rw [Bool.or_eq_true, decide_eq_true_eq, decide_eq_true_eq, SemVer.cmpPrecedence_ne_gt,
      SemVer.cmpPrecedence_ne_gt]
    exact le_total _ _

theorem equalNeighbours_eq_none {releases : List ValidRelease} :
    equalNeighbours (precedenceOrder releases) = none ↔ Untied rank releases := by
  rw [equalNeighbours_eq, firstTie_eq_none _ (pairwise_precedenceOrder releases)]
  exact untied_perm _ (mergeSort_perm _ _)

/-! ## Acceptance -/

/-- No two releases are of one precedence. -/
def DistinctPrecedence (releases : List WireRelease) : Prop :=
  releases.Pairwise fun left right => precedenceOf left.version ≠ precedenceOf right.version

theorem untied_validated {releases : List WireRelease} {validated : List ValidRelease}
    (h : List.Forall₂ Validated releases validated) :
    Untied rank validated ↔ DistinctPrecedence releases := by
  have hmap : releases.map (fun wire => precedenceOf wire.version) =
      validated.map (fun release => some release.rank) := by
    induction h with
    | nil => rfl
    | cons hf _ ih =>
      rw [map_cons, map_cons, ih, precedenceOf, hf.version]
      rfl
  have hdi : DistinctPrecedence releases ↔
      (releases.map fun wire => precedenceOf wire.version).Pairwise (· ≠ ·) :=
    pairwise_map.symm
  rw [hdi, hmap, pairwise_map]
  exact List.Pairwise.iff fun _ _ => not_congr (Option.some_inj).symm

/-- Accepted: every release on its own, and no two of equal precedence. -/
theorem validateReleases_ok {releases : List WireRelease} {validated : List ValidRelease} :
    validateReleases crate releases = .ok validated ↔
      List.Forall₂ (fun wire release => validateRelease crate wire = .ok release)
        releases validated ∧ Untied rank validated := by
  unfold validateReleases
  rw [bind_ok]
  constructor
  · rintro ⟨validated', ha, h⟩
    split at h
    · cases h
    · rename_i hn
      cases h
      exact ⟨mapM_ok.mp ha, equalNeighbours_eq_none.mp hn⟩
  · rintro ⟨ha, hunt⟩
    refine ⟨validated, mapM_ok.mpr ha, ?_⟩
    rw [equalNeighbours_eq_none.mpr hunt]
    rfl

theorem accepted_iff {releases : List WireRelease} :
    (∃ validated, validateReleases crate releases = .ok validated) ↔
      (∀ release ∈ releases, release.Valid) ∧ DistinctPrecedence releases := by
  constructor
  · rintro ⟨validated, h⟩
    obtain ⟨ha, hunt⟩ := validateReleases_ok.mp h
    refine ⟨?_, (untied_validated (ha.imp fun _ _ h => (validateRelease_ok h).2)).mp hunt⟩
    exact ((forall₂_and_left _ _).mp (ha.imp fun _ _ h => ⟨(validateRelease_ok h).1, h⟩)).1
  · rintro ⟨hv, hdi⟩
    obtain ⟨validated, ha⟩ : ∃ validated, List.Forall₂
        (fun wire release => validateRelease crate wire = .ok release) releases validated := by
      induction releases with
      | nil => exact ⟨[], .nil⟩
      | cons release releases ih =>
        obtain ⟨hrel, hre⟩ := forall_mem_cons.mp hv
        obtain ⟨first, hf⟩ : ∃ first, validateRelease crate release = .ok first :=
          validateRelease_of_valid hrel
        obtain ⟨rest, hr⟩ := ih hre hdi.tail
        exact ⟨first :: rest, .cons hf hr⟩
    exact ⟨validated, validateReleases_ok.mpr ⟨ha, (untied_validated
      (ha.imp fun _ _ h => (validateRelease_ok h).2)).mpr hdi⟩⟩

/-! ## Selection -/

/-- The release of greatest precedence among those above the floor. -/
structure Chosen (floor : Version) (releases : List ValidRelease) (release : ValidRelease) : Prop where
  mem : release ∈ releases
  above : floor.precedence < release.rank
  /-- Every other release above the floor is below this one. -/
  highest : ∀ other ∈ releases, floor.precedence < other.rank → other ≠ release →
    other.rank < release.rank

theorem Chosen.unique {floor : Version} {releases : List ValidRelease} {a b : ValidRelease}
    (ha : Chosen floor releases a) (hb : Chosen floor releases b) : a = b := by
  by_contra hne
  exact lt_asymm (ha.highest b hb.mem hb.above fun h => hne h.symm)
    (hb.highest a ha.mem ha.above hne)

/-- The releases that are above the floor. -/
def aboveFloor (floor : Version) (releases : List ValidRelease) : List ValidRelease :=
  releases.filter fun release => release.version.cmpPrecedence floor = .gt

theorem mem_aboveFloor {floor : Version} {releases : List ValidRelease} {release : ValidRelease} :
    release ∈ aboveFloor floor releases ↔ release ∈ releases ∧ floor.precedence < release.rank := by
  unfold aboveFloor
  rw [mem_filter, decide_eq_true_eq, SemVer.cmpPrecedence_eq_gt]
  rfl

theorem selectRelease_eq (admitted : AdmittedInstallation) (releases : List ValidRelease) :
    selectRelease admitted releases =
      match highest rank (aboveFloor admitted.floor releases) with
      | none => .noUpdate
      | some release => .update {
          installation := admitted.identity
          artifact := release.intoArtifact admitted.identity } := by
  rw [← maxByPrecedence_eq]
  rfl

theorem highest_aboveFloor {floor : Version} {releases : List ValidRelease}
    (hunt : Untied rank releases) {release : ValidRelease} :
    highest rank (aboveFloor floor releases) = some release ↔ Chosen floor releases release := by
  have hab : Untied rank (aboveFloor floor releases) := List.Pairwise.sublist filter_sublist hunt
  rw [highest_eq_some _ hab, mem_aboveFloor]
  constructor
  · rintro ⟨⟨hm, hf⟩, hle⟩
    refine ⟨hm, hf, fun other ho ho' hne => ?_⟩
    refine lt_of_le_of_ne (hle other (mem_aboveFloor.mpr ⟨ho, ho'⟩)) fun he => ?_
    exact hne (hunt.eq_of_key ho hm he)
  · rintro ⟨hm, hf, hhi⟩
    refine ⟨⟨hm, hf⟩, fun other ho => ?_⟩
    obtain ⟨ho, ho'⟩ := mem_aboveFloor.mp ho
    by_cases he : other = release
    · rw [he]
    · exact (hhi other ho ho' he).le

/-- Acceptance is validity of each release and no tie; of an accepted list the release of greatest
precedence above the floor is selected, or none where there is none; and the order of the list
matters neither to the one nor to the other. -/
theorem select_unique (crate : SemVerCrate) (admitted : AdmittedInstallation)
    (releases : List WireRelease) :
    ((∃ validated, validateReleases crate releases = .ok validated) ↔
      (∀ release ∈ releases, release.Valid) ∧ DistinctPrecedence releases) ∧
    ∀ validated, validateReleases crate releases = .ok validated →
      List.Forall₂ Validated releases validated ∧
      (selectRelease admitted validated = .noUpdate ↔
        ∀ release ∈ validated, ¬ admitted.floor.precedence < release.rank) ∧
      (∀ full, selectRelease admitted validated = .update full ↔
        ∃ release, Chosen admitted.floor validated release ∧
          full = ⟨admitted.identity, release.intoArtifact admitted.identity⟩) ∧
      (∀ a b, Chosen admitted.floor validated a → Chosen admitted.floor validated b → a = b) ∧
      ∀ permuted, permuted.Perm releases →
        ∃ validated', validateReleases crate permuted = .ok validated' ∧
          validated'.Perm validated ∧
          selectRelease admitted validated' = selectRelease admitted validated := by
  refine ⟨accepted_iff, fun validated h => ?_⟩
  obtain ⟨ha, hunt⟩ := validateReleases_ok.mp h
  refine ⟨ha.imp fun _ _ h => (validateRelease_ok h).2, ?_, fun full => ?_,
    fun a b => Chosen.unique, fun permuted hp => ?_⟩
  · rw [selectRelease_eq]
    cases hhi : highest rank (aboveFloor admitted.floor validated) with
    | none =>
      refine iff_of_true rfl fun release hm hf => ?_
      have he := (highest_eq_none _).mp hhi
      have hin := mem_aboveFloor.mpr ⟨hm, hf⟩
      rw [he] at hin
      cases hin
    | some release =>
      obtain ⟨hm, hf, -⟩ := (highest_aboveFloor hunt).mp hhi
      exact iff_of_false nofun fun hn => hn release hm hf
  · rw [selectRelease_eq]
    cases hhi : highest rank (aboveFloor admitted.floor validated) with
    | none =>
      refine iff_of_false nofun ?_
      rintro ⟨release, hch, -⟩
      rw [(highest_aboveFloor hunt).mpr hch] at hhi
      cases hhi
    | some release =>
      have hch := (highest_aboveFloor hunt).mp hhi
      constructor
      · intro heq
        exact ⟨release, hch, (ManifestDecision.update.inj heq).symm⟩
      · rintro ⟨other, ho, rfl⟩
        rw [hch.unique ho]
  · obtain ⟨validated', ha', hp'⟩ := perm_comp_forall₂ hp ha
    have hunt' := (untied_perm _ hp').mpr hunt
    refine ⟨validated', validateReleases_ok.mpr ⟨ha', hunt'⟩, hp', ?_⟩
    have hab : Untied rank (aboveFloor admitted.floor validated') :=
      List.Pairwise.sublist filter_sublist hunt'
    have hs : highest rank (aboveFloor admitted.floor validated') =
        highest rank (aboveFloor admitted.floor validated) :=
      highest_perm _ (hp'.filter _) hab
    rw [selectRelease_eq, selectRelease_eq, hs]

end Keld.Update
