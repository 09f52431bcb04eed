/-
# `Keld.Archive.Plan` — what a checked tree is

`ValidTree` is what both sides know of a list of members once the shared checks
have passed: every member can be said in a header, and the names are in strict
byte order.  `plan_iff` says what the producer's plan is made of.
-/
import Keld.Archive.Reading
import Keld.Pack.MembersLaw
import Mathlib.Data.List.Nodup

namespace Keld.Archive

open Pack List

/-! ## Names -/

variable {c : Char} {path : String} {members : List ArchiveMember}

theorem mem_splitOnPPrepend {p : Char → Bool} (hc : p c = false) (chars : List Char) :
    ∀ front, c ∈ front ∨ c ∈ chars → ∃ part ∈ List.splitOnPPrepend p chars front, c ∈ part := by
  induction chars with
  | nil =>
    intro front hm
    rcases hm with hm | hm
    · refine ⟨front.reverse, ?_, mem_reverse.mpr hm⟩
      rw [splitOnPPrepend_nil]
      exact mem_singleton.mpr rfl
    · cases hm
  | cons d chars ih =>
    intro front hm
    cases hd : p d with
    | true =>
      rw [splitOnPPrepend_cons_pos hd]
      rcases hm with hm | hm
      · exact ⟨_, mem_cons_self, mem_reverse.mpr hm⟩
      · rcases mem_cons.mp hm with rfl | hm
        · rw [hc] at hd
          cases hd
        · obtain ⟨part, hp, hm⟩ := ih [] (.inr hm)
          exact ⟨part, mem_cons_of_mem _ hp, hm⟩
    | false =>
      rw [splitOnPPrepend_cons_neg hd]
      refine ih (d :: front) ?_
      rcases hm with hm | hm
      · exact .inl (mem_cons_of_mem _ hm)
      · rcases mem_cons.mp hm with rfl | hm
        · exact .inl mem_cons_self
        · exact .inr hm

theorem mem_components (hm : c ∈ path.toList) (hne : c ≠ '/') :
    ∃ part ∈ components path, c ∈ part := by
  unfold components
  rw [splitOn_eq_splitOnP]
  exact mem_splitOnPPrepend (p := (· == '/')) (beq_eq_false_iff_ne.mpr hne) _ [] (.inr hm)

/-- The guard lets no name with a zero byte pass. -/
theorem zero_notMem_of_windowsPackagePath (h : windowsPackagePath path = true) : 0 ∉ utf8 path := by
  intro hz
  obtain ⟨part, hp, hm⟩ := mem_components (zero_mem_utf8 hz) (by decide)
  unfold windowsPackagePath at h
  rw [Bool.and_eq_true] at h
  have hcmp := all_eq_true.mp h.2 part hp
  unfold windowsPackageComponent portableComponent at hcmp
  simp only [Bool.and_eq_true, Bool.not_eq_true', Bool.or_eq_false_iff] at hcmp
  have hany := hcmp.1.1.2
  rw [any_eq_false] at hany
  exact hany '\x00' hm (by decide)

/-! ## Trees -/

/-- Members that passed the checks of one member at a time. -/
structure Shaped (member : ArchiveMember) : Prop where
  named : utf8 member.name ≠ []
  short : (utf8 member.name).length ≤ 100
  size : member.size ≤ maxMemberSize
  directory : member.kind = .directory → member.size = 0

def NameLt (left right : ArchiveMember) : Prop := utf8 left.name < utf8 right.name

theorem validateEach_ok {previous : Option String} (h : validateEach previous members = .ok ()) :
    (∀ member ∈ members, Shaped member) ∧ members.Pairwise NameLt := by
  obtain ⟨ha, hso, -⟩ := validateEach_iff.mp h
  refine ⟨fun member hmbr => ?_, hso⟩
  obtain ⟨hgr, hs⟩ := ha member hmbr
  exact ⟨fun hn => hgr.named (utf8_eq_nil.mp hn), hgr.short, hs.fits, hs.directory⟩

/-- A list of members that the shared checks admit. -/
structure ValidTree (members : List ArchiveMember) : Prop where
  admissible : ∀ member ∈ members, Admissible member
  sorted : members.Pairwise NameLt

theorem validTree_of_checks {nls : List String → Bool} (hmb : validateV0Members members = .ok ())
    (hpa : windowsPackagePaths nls (members.map ArchiveMember.name) = true) :
    ValidTree members := by
  obtain ⟨hea, -⟩ := bind_unit_ok.mp hmb
  obtain ⟨ha, hso⟩ := validateEach_ok hea
  refine ⟨?_, hso⟩
  intro member hmbr
  have hsh := ha member hmbr
  unfold windowsPackagePaths at hpa
  rw [Bool.and_eq_true, all_eq_true] at hpa
  have hpath := hpa.1 member.name (mem_map_of_mem hmbr)
  have hs := hsh.size
  exact ⟨hsh.named, hsh.short, zero_notMem_of_windowsPackagePath hpath,
    Nat.lt_of_le_of_lt hs (by decide), hsh.directory⟩

/-! ## The parent of the policy -/

theorem parent_mem (hmb : validateV0Members members = .ok ()) {policy : ArchiveMember}
    (hpol : policy ∈ members) (hn : policy.name = updatePolicyPath) :
    ∃ parent ∈ members, parent.name = policyParent ∧ parent.kind = .directory := by
  have hab : ProperAncestor policyParent.toList policy.name.toList := by
    rw [hn]
    exact ⟨"update-policy.v1".toList, by decide +kernel⟩
  obtain ⟨parent, hpar, hs, hk⟩ := (validateV0Members_iff.mp hmb).ancestors policy hpol _ hab
  exact ⟨parent, hpar, String.toList_inj.mp hs, hk⟩

end Keld.Archive
