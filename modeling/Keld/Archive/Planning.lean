/-
# `Keld.Archive.Planning` — what the producer's plan is

A plan that is admitted holds the caller's entries and the producer's own members
in byte order (`plan_ok`), passes all checks, and its size is the sum of what
each member takes up and of the two closing blocks (`sizes_ok`).  Every partial sum is
below the bound, so no checked addition has failed on the way.
-/
import Keld.Lib.Trace
import Keld.Archive.Writing

namespace Keld.Archive

open Pack List

/-! ## Sizes -/

/-- What a member takes up: its header, its content and the padding. -/
def footprint (member : ArchiveMember) : Nat :=
  blockBytes + member.size + padding member.size

/-- Where a member starts behind the members in front of it. -/
def offsetBehind (front : List ArchiveMember) : Nat := (front.map footprint).sum

theorem checkedAdd_eq_some {left right sum : Nat} :
    checkedAdd left right = some sum ↔ left + right < 2 ^ 64 ∧ sum = left + right := by
  unfold checkedAdd
  split_ifs with h
  · exact ⟨fun he => ⟨h, (Option.some.inj he).symm⟩, fun he => congrArg some he.2.symm⟩
  · exact ⟨nofun, fun he => absurd he.1 h⟩

theorem maxArtifactBytes_lt : maxArtifactBytes < 2 ^ 64 := by decide

variable {total size : Nat} {entries : List PackageEntry} {nls : List String → Bool}

theorem addMember_ok {next : Nat} {member : ArchiveMember} :
    addMember total member = .ok next ↔
      next = total + footprint member ∧ next ≤ maxArtifactBytes := by
  unfold addMember footprint
  simp only [orElseError_ok, Option.bind_eq_bind, Option.bind_eq_some_iff, checkedAdd_eq_some]
  have hb := maxArtifactBytes_lt
  constructor
  · rintro ⟨one, ⟨-, rfl⟩, two, ⟨-, rfl⟩, three, ⟨-, rfl⟩, h⟩
    split_ifs at h with hf
    cases h
    exact ⟨by omega, hf⟩
  · rintro ⟨rfl, hf⟩
    refine ⟨_, ⟨by omega, rfl⟩, _, ⟨by omega, rfl⟩, _, ⟨by omega, rfl⟩, ?_⟩
    rw [if_pos (by omega)]
    exact congrArg some (by omega)

/-- The size fold: the sum of all footprints, each partial sum below the bound. -/
theorem sizes_ok {members : List ArchiveMember} :
    members.foldlM addMember total = .ok size ↔
      size = total + offsetBehind members ∧
        ∀ front member back, members = front ++ member :: back →
          total + offsetBehind front + footprint member ≤ maxArtifactBytes := by
  induction members generalizing total with
  | nil =>
    constructor
    · intro h
      cases h
      exact ⟨rfl, fun front member back h => by simp at h⟩
    · rintro ⟨rfl, -⟩
      rfl
  | cons first members ih =>
    rw [foldlM_cons, bind_ok]
    simp only [addMember_ok, ih]
    constructor
    · rintro ⟨next, ⟨rfl, hf⟩, rfl, hr⟩
      refine ⟨?_, ?_⟩
      · rw [offsetBehind, offsetBehind, map_cons, sum_cons, Nat.add_assoc]
      · intro front member back hs
        cases front with
        | nil =>
          obtain ⟨rfl, -⟩ := List.cons.inj hs
          exact hf
        | cons head front =>
          obtain ⟨rfl, hta⟩ := List.cons.inj hs
          have hn := hr front member back hta
          rw [offsetBehind, map_cons, sum_cons, ← Nat.add_assoc]
          exact hn
    · rintro ⟨rfl, ha⟩
      refine ⟨_, ⟨rfl, ha [] first members rfl⟩, ?_, fun front member back hs => ?_⟩
      · rw [offsetBehind, offsetBehind, map_cons, sum_cons, Nat.add_assoc]
      · have hn := ha (first :: front) member back (by rw [hs, cons_append])
        rw [offsetBehind, map_cons, sum_cons, ← Nat.add_assoc] at hn
        exact hn

theorem footprint_mod (member : ArchiveMember) : footprint member % blockBytes = 0 := by
  unfold footprint padding blockBytes
  omega

theorem offsetBehind_mod (front : List ArchiveMember) : offsetBehind front % blockBytes = 0 := by
  induction front with
  | nil => rfl
  | cons member front ih =>
    rw [offsetBehind, map_cons, sum_cons, Nat.add_mod, footprint_mod]
    rw [offsetBehind] at ih
    rw [ih]
    rfl

/-! ## Entries -/

/-- What the producer says of one entry by itself. -/
structure Allowed (entry : PackageEntry) : Prop where
  notPolicy : entry.member.name ≠ updatePolicyPath
  parent : entry.member.name = policyParent → entry.member.kind = .directory

def isParent (entry : PackageEntry) : Bool := entry.member.name == policyParent

/-- The caller's members, each with the entry it comes from. -/
def listed (entries : List PackageEntry) (index : Nat) : List PlannedMember :=
  (entries.zipIdx index).map fun (entry, index) => (entry.member, some index)

theorem planEntries_ok {index : Nat} {result : List PlannedMember × Bool} :
    planEntries entries index = .ok result ↔
      (∀ entry ∈ entries, Allowed entry) ∧
        result = (listed entries index, entries.any isParent) := by
  induction entries generalizing index result with
  | nil =>
    constructor
    · intro h
      cases h
      exact ⟨nofun, rfl⟩
    · rintro ⟨-, rfl⟩
      rfl
  | cons entry entries ih =>
    unfold planEntries
    dsimp only
    constructor
    · intro h
      split_ifs at h with hpol hpar
      · cases h
      · cases h
      · obtain ⟨⟨planned, found⟩, hp, h⟩ := bind_ok.mp h
        obtain ⟨hal, hres⟩ := ih.mp hp
        cases hres
        cases h
        refine ⟨forall_mem_cons.mpr ⟨⟨fun hn => ?_, fun hn => ?_⟩, hal⟩, rfl⟩
        · exact hpol (beq_iff_eq.mpr hn)
        · by_contra hk
          exact hpar ⟨beq_iff_eq.mpr hn, hk⟩
    · rintro ⟨hal, rfl⟩
      obtain ⟨ha, hal⟩ := forall_mem_cons.mp hal
      rw [if_neg fun h => ha.notPolicy (beq_iff_eq.mp h),
        if_neg fun h => h.2 (ha.parent (beq_iff_eq.mp h.1))]
      exact bind_ok.mpr ⟨_, ih.mpr ⟨hal, rfl⟩, rfl⟩

/-! ## The plan -/

/-- The caller's members and the producer's own, in byte order. -/
def planned (entries : List PackageEntry) : List PlannedMember :=
  (listed entries 0 ++ (if entries.any isParent then [] else [(parentMember, none)]) ++
    [(policyMember, none)]).insertionSort PlannedMember.le

/-- A plan that is admitted. -/
structure Plan (nls : List String → Bool) (entries : List PackageEntry) (size : Nat) : Prop where
  allowed : ∀ entry ∈ entries, Allowed entry
  tree : CanonicalTree ((planned entries).map Prod.fst)
  paths : windowsPackagePaths nls (((planned entries).map Prod.fst).map ArchiveMember.name) = true
  helper : requireUpdaterHelper ((planned entries).map Prod.fst) = .ok ()
  sizes : ((planned entries).map Prod.fst).foldlM addMember (blockBytes * 2) = .ok size

theorem plan_ok {result : List PlannedMember × Nat} :
    plan nls entries = .ok result ↔ result.1 = planned entries ∧ Plan nls entries result.2 := by
  unfold plan
  rw [bind_ok]
  simp only [planEntries_ok]
  constructor
  · rintro ⟨_, ⟨ha, rfl⟩, h⟩
    obtain ⟨htr, h⟩ := bind_unit_ok.mp h
    obtain ⟨hpa, h⟩ := bind_unit_ok.mp h
    obtain ⟨hhe, h⟩ := bind_unit_ok.mp h
    obtain ⟨size, hsi, h⟩ := bind_ok.mp h
    cases h
    exact ⟨rfl, ha, validateV0Members_iff.mp htr, require_ok.mp hpa, hhe, hsi⟩
  · rintro ⟨hp, ha, htr, hpa, hhe, hsi⟩
    obtain ⟨plan, size⟩ := result
    obtain rfl : plan = planned entries := hp
    refine ⟨_, ⟨ha, rfl⟩, bind_unit_ok.mpr ⟨validateV0Members_iff.mpr htr, ?_⟩⟩
    exact bind_unit_ok.mpr ⟨require_ok.mpr hpa, bind_unit_ok.mpr ⟨hhe,
      bind_ok.mpr ⟨size, hsi, rfl⟩⟩⟩

/-- Every planned member has its source. -/
theorem planned_sourced : ∀ p ∈ planned entries, Sourced entries p := by
  intro p hp
  have hm := (perm_insertionSort _ _).mem_iff.mp hp
  rcases mem_snoc.mp hm with hm | rfl
  · rcases mem_append.mp hm with hli | hpar
    · obtain ⟨⟨entry, index⟩, he, rfl⟩ := mem_map.mp hli
      exact ⟨entry, mem_zipIdx_iff_getElem?.mp he, rfl⟩
    · split_ifs at hpar
      · cases hpar
      · rw [mem_singleton.mp hpar]
        exact .inl rfl
  · exact .inr rfl

theorem plan_admissible (h : Plan nls entries size) : ∀ p ∈ planned entries, Admissible p.1 :=
  fun _ hp => (validTree_of_checks (validateV0Members_iff.mpr h.tree) h.paths).admissible _
    (mem_map_of_mem hp)

/-- The last partial sum is the size. -/
theorem size_le (h : Plan nls entries size) : size ≤ maxArtifactBytes := by
  obtain ⟨hs, hsu⟩ := sizes_ok.mp h.sizes
  rcases eq_nil_or_concat ((planned entries).map Prod.fst) with hn | ⟨front, last, hl⟩
  · rw [hs, hn]
    decide
  · rw [concat_eq_append] at hl
    have he := hsu front last [] hl
    rw [hs, hl, offsetBehind, map_append, sum_append]
    rw [offsetBehind] at he
    simpa [Nat.add_assoc] using he

end Keld.Archive
