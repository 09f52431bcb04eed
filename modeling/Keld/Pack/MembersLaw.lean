/-
# `Keld.Pack.MembersLaw` — the trees that are accepted

The two loops of `validateV0Members` accept exactly the canonical trees
(`CanonicalTree`): every path keeps the grammar, the paths go up strictly by
their bytes, sizes can be said in a header, and every proper ancestor of a
member is a listed directory.

The second loop looks for ancestors by binary search.  A directory need not stand
next to its children (`a`, `a-b`, `a/b`), but the whole list is sorted when the
search runs, and that is all the search asks for (`nameOrder_ordered`).
-/
import Keld.Pack.Members
import Mathlib.Data.List.TakeWhile
import Mathlib.Data.List.Nodup

namespace Keld.Pack

open List

/-! ## The search for a name -/

variable {name child parent : List Char} {entry : ArchiveMember} {members : List ArchiveMember}
  {previous : Option String}

theorem nameOrder_eq : nameOrder name entry = .eq ↔ entry.name.toList = name := by
  unfold nameOrder compareOfLessAndEq
  constructor
  · intro h
    split_ifs at h with hlt he
    rw [utf8_inj he, String.toList_ofList]
  · rintro rfl
    rw [String.ofList_toList, if_neg (List.lt_irrefl _), if_pos rfl]

theorem nameOrder_lt :
    nameOrder name entry = .lt ↔ utf8 entry.name < utf8 (String.ofList name) := by
  unfold nameOrder compareOfLessAndEq
  constructor
  · intro h
    split_ifs at h with hlt he
    exact hlt
  · intro h
    rw [if_pos h]

theorem nameOrder_gt :
    nameOrder name entry = .gt ↔ utf8 (String.ofList name) < utf8 entry.name := by
  unfold nameOrder compareOfLessAndEq
  constructor
  · intro h
    split_ifs at h with hlt he
    exact (List.le_iff_lt_or_eq.mp (List.not_lt.mp hlt)).resolve_right fun h => he h.symm
  · intro h
    rw [if_neg (List.lt_asymm h), if_neg fun he => List.lt_irrefl _ (he ▸ h)]

section

variable (hsorted : members.Pairwise fun one other => utf8 one.name < utf8 other.name)
include hsorted

theorem nameOrder_ordered (name : List Char) : OrderedBy (nameOrder name) members := by
  refine hsorted.imp fun {one other} hlt => ⟨fun hon => ?_, fun ho => ?_⟩
  · exact nameOrder_gt.mpr (List.lt_trans (nameOrder_gt.mp hon) hlt)
  · exact nameOrder_lt.mpr (List.lt_trans hlt (nameOrder_lt.mp ho))

/-- In a sorted list the search finds exactly the names that are listed. -/
theorem search_iff (name : List Char) :
    (∃ index, binarySearchBy (nameOrder name) members = some index) ↔
      ∃ member ∈ members, member.name.toList = name := by
  constructor
  · rintro ⟨index, hin⟩
    obtain ⟨member, hmbr, he⟩ := Option.map_eq_some_iff.mp (binarySearchBy_sound hin)
    exact ⟨member, mem_of_getElem? hmbr, nameOrder_eq.mp he⟩
  · rintro ⟨member, hmbr, hn⟩
    exact binarySearchBy_complete (nameOrder_ordered hsorted name) hmbr (nameOrder_eq.mpr hn)

theorem names_nodup : (members.map ArchiveMember.name).Nodup := by
  refine pairwise_map.mpr (hsorted.imp fun {one other} hlt hn => ?_)
  rw [hn] at hlt
  exact List.lt_irrefl _ hlt

end

/-! ## The grammar of paths -/

/-- What a path may be. -/
structure PathGrammar (path : String) : Prop where
  named : path ≠ ""
  short : (utf8 path).length ≤ 100
  relative : path.toList.head? ≠ some '/'
  closed : path.toList.getLast? ≠ some '/'
  parts : ∀ part ∈ components path, part ≠ [] ∧ part ≠ ['.'] ∧ part ≠ ['.', '.'] ∧ '\\' ∉ part

structure SizeAdmissible (member : ArchiveMember) : Prop where
  fits : member.size ≤ maxMemberSize
  directory : member.kind = .directory → member.size = 0

theorem components_empty : components "" = [[]] := by decide +kernel

theorem validateMember_iff {member : ArchiveMember} :
    validateMember previous member = .ok () ↔
      PathGrammar member.name ∧ SizeAdmissible member ∧
        ∀ prior, previous = some prior → utf8 prior < utf8 member.name := by
  unfold validateMember
  dsimp only
  constructor
  · intro h
    split_ifs at h with hl hpa hsorted hs hd
    · cases h
    · cases h
    · cases h
    · cases h
    · cases h
    · simp only [Bool.or_eq_true, decide_eq_true_eq, beq_iff_eq, not_or, not_lt] at hl
      simp only [any_eq_true, Bool.or_eq_true, List.isEmpty_iff, beq_iff_eq,
        contains_eq_mem, decide_eq_true_eq, not_exists, not_and, not_or] at hpa
      refine ⟨⟨?_, hl.1.1, hl.1.2, hl.2, ?_⟩, ⟨not_lt.mp hs, ?_⟩, ?_⟩
      · intro hn
        rw [hn, components_empty] at hpa
        exact (hpa [] (mem_singleton_self _)).1.1.1 rfl
      · intro part hp
        obtain ⟨⟨⟨he, hdot⟩, hdo⟩, hba⟩ := hpa part hp
        exact ⟨he, hdot, hdo, hba⟩
      · intro hk
        by_contra hne
        exact hd ⟨hk, hne⟩
      · rintro prior rfl
        simpa [byteLt] using hsorted
  · rintro ⟨hgr, hs, hpr⟩
    rw [if_neg, if_neg, if_neg, if_neg (Nat.not_lt.mpr hs.fits),
      if_neg fun h => h.2 (hs.directory h.1)]
    · intro h
      obtain ⟨prior, rfl, hnot⟩ := (Option.any_eq_true _ _).mp h
      simp only [byteLt, Bool.not_eq_true', decide_eq_false_iff_not] at hnot
      exact hnot (hpr prior rfl)
    · intro h
      obtain ⟨part, hp, hbad⟩ := any_eq_true.mp h
      obtain ⟨he, hdot, hdo, hba⟩ := hgr.parts part hp
      simp [he, hdot, hdo, hba] at hbad
    · have hsh := Nat.not_lt.mpr hgr.short
      simp [hsh, hgr.relative, hgr.closed]

/-- The first loop: each member by itself, and the names strictly sorted. -/
theorem validateEach_iff :
    validateEach previous members = .ok () ↔
      (∀ member ∈ members, PathGrammar member.name ∧ SizeAdmissible member) ∧
        (members.Pairwise fun one other => utf8 one.name < utf8 other.name) ∧
          ∀ prior, previous = some prior → ∀ member ∈ members, utf8 prior < utf8 member.name := by
  induction members generalizing previous with
  | nil => exact ⟨fun _ => ⟨nofun, .nil, nofun⟩, fun _ => rfl⟩
  | cons member members ih =>
    unfold validateEach
    rw [bind_unit_ok, validateMember_iff, ih, forall_mem_cons, pairwise_cons]
    constructor
    · rintro ⟨⟨hgr, hs, hpr⟩, ha, hsorted, hbeh⟩
      refine ⟨⟨⟨hgr, hs⟩, ha⟩, ⟨hbeh member.name rfl, hsorted⟩, ?_⟩
      rintro prior rfl
      have hlt := hpr prior rfl
      exact forall_mem_cons.mpr
        ⟨hlt, fun other ho => List.lt_trans hlt (hbeh member.name rfl other ho)⟩
    · rintro ⟨⟨⟨hgr, hs⟩, ha⟩, ⟨hbeh, hsorted⟩, hpr⟩
      refine ⟨⟨hgr, hs, fun prior h => hpr prior h member (mem_cons_self ..)⟩, ha, hsorted, ?_⟩
      rintro prior h
      cases h
      exact hbeh

/-! ## Ancestors -/

/-- One path lies above another. -/
def ProperAncestor (ancestor child : List Char) : Prop := ∃ rest, child = ancestor ++ '/' :: rest

/-- The parent is what is in front of the last separator. -/
theorem parentOf_eq_some :
    parentOf child = some parent ↔ ∃ last, child = parent ++ '/' :: last ∧ '/' ∉ last := by
  unfold parentOf
  constructor
  · intro h
    split at h
    · cases h
    · rename_i separator front hs
      cases h
      obtain rfl : separator = '/' := by
        have hh := head?_dropWhile_not (fun c => c != '/') child.reverse
        rw [hs] at hh
        simpa using hh
      refine ⟨(child.reverse.takeWhile (· != '/')).reverse, ?_, ?_⟩
      · rw [← reverse_inj, reverse_append, reverse_cons, reverse_reverse,
          reverse_reverse, append_assoc, singleton_append, ← hs,
          takeWhile_append_dropWhile]
      · intro hm
        have hbad := mem_takeWhile_imp (mem_reverse.mp hm)
        exact absurd hbad (by decide)
  · rintro ⟨last, rfl, hl⟩
    have hfr : ∀ c ∈ last.reverse, (c != '/') = true := fun c hc =>
      bne_iff_ne.mpr fun h => hl (h ▸ mem_reverse.mp hc)
    rw [reverse_append, reverse_cons, append_assoc, singleton_append,
      dropWhile_append_of_pos hfr, dropWhile_cons_of_neg (by decide)]
    exact congrArg some (reverse_reverse _)

theorem parentOf_eq_none (h : parentOf child = none) : '/' ∉ child := by
  unfold parentOf at h
  split at h
  · rename_i hn
    intro hm
    have ha := dropWhile_eq_nil_iff.mp hn '/' (mem_reverse.mpr hm)
    exact absurd ha (by decide)
  · cases h

/-- What lies above a path is its parent or lies above that. -/
theorem properAncestor_iff {ancestor last : List Char} (hl : '/' ∉ last) :
    ProperAncestor ancestor (parent ++ '/' :: last) ↔
      ancestor = parent ∨ ProperAncestor ancestor parent := by
  constructor
  · rintro ⟨rest, h⟩
    rcases append_eq_append_iff.mp h with ⟨middle, hanc, hr⟩ | ⟨middle, hpar, hr⟩
    · cases middle with
      | nil => exact .inl (by rw [hanc, append_nil])
      | cons c middle =>
        -- the separator behind the ancestor would be in the last name
        obtain ⟨-, rfl⟩ := List.cons.inj hr
        exact absurd (mem_append_right _ (mem_cons_self ..)) hl
    · cases middle with
      | nil => exact .inl (by rw [hpar, append_nil])
      | cons c middle =>
        obtain ⟨rfl, -⟩ := List.cons.inj hr
        exact .inr ⟨middle, hpar⟩
  · rintro (rfl | ⟨rest, rfl⟩)
    · exact ⟨last, rfl⟩
    · exact ⟨rest ++ '/' :: last, by rw [append_assoc, cons_append]⟩

/-- A walk ends well when everything above its path is a listed directory. -/
theorem validateParents_iff
    (hsorted : members.Pairwise fun one other => utf8 one.name < utf8 other.name) {steps : Nat}
    (hst : child.length ≤ steps) :
    validateParents members steps child = .ok () ↔
      ∀ ancestor, ProperAncestor ancestor child →
        ∃ member ∈ members, member.name.toList = ancestor ∧ member.kind = .directory := by
  induction steps generalizing child with
  | zero =>
    rw [length_eq_zero_iff.mp (Nat.le_zero.mp hst)]
    refine ⟨fun _ ancestor h => ?_, fun _ => rfl⟩
    obtain ⟨rest, hr⟩ := h
    exact absurd hr.symm (append_ne_nil_of_right_ne_nil _ (cons_ne_nil _ _))
  | succ steps ih =>
    rw [validateParents]
    cases hpar : parentOf child with
    | none =>
      refine ⟨fun _ ancestor h => ?_, fun _ => rfl⟩
      obtain ⟨rest, rfl⟩ := h
      exact absurd (mem_append_right _ (mem_cons_self ..)) (parentOf_eq_none hpar)
    | some parent =>
      obtain ⟨last, rfl, hl⟩ := parentOf_eq_some.mp hpar
      have hsh : parent.length ≤ steps := by
        rw [length_append, length_cons] at hst
        omega
      dsimp only
      constructor
      · intro h
        split at h
        · rename_i hd
          obtain ⟨index, hf, hk⟩ := Option.bind_eq_some_iff.mp hd
          obtain ⟨member, hmbr, hk⟩ := Option.map_eq_some_iff.mp hk
          have hm := binarySearchBy_sound hf
          rw [MatchAt, hmbr, Option.map_some, Option.some.injEq] at hm
          intro ancestor hanc
          rcases (properAncestor_iff hl).mp hanc with rfl | hab
          · exact ⟨member, mem_of_getElem? hmbr, nameOrder_eq.mp hm, hk⟩
          · exact (ih hsh).mp h ancestor hab
        · cases h
        · cases h
      · intro h
        obtain ⟨listed, hli, hn, hk⟩ := h parent ((properAncestor_iff hl).mpr (.inl rfl))
        obtain ⟨index, hf⟩ := (search_iff hsorted parent).mpr ⟨listed, hli, hn⟩
        obtain ⟨member, hmbr, hm⟩ := Option.map_eq_some_iff.mp (binarySearchBy_sound hf)
        -- one name, one member
        have hs : member = listed :=
          inj_on_of_nodup_map (names_nodup hsorted) (mem_of_getElem? hmbr) hli
            (String.toList_inj.mp ((nameOrder_eq.mp hm).trans hn.symm))
        rw [hf, Option.bind_some, hmbr, Option.map_some, hs, hk]
        exact (ih hsh).mpr fun ancestor hab =>
          h ancestor ((properAncestor_iff hl).mpr (.inr hab))

/-! ## The law -/

/-- A tree that an archive may hold. -/
structure CanonicalTree (members : List ArchiveMember) : Prop where
  grammar : ∀ member ∈ members, PathGrammar member.name
  sizes : ∀ member ∈ members, SizeAdmissible member
  sorted : members.Pairwise fun one other => utf8 one.name < utf8 other.name
  ancestors : ∀ member ∈ members, ∀ ancestor, ProperAncestor ancestor member.name.toList →
    ∃ directory ∈ members, directory.name.toList = ancestor ∧ directory.kind = .directory

theorem validateV0Members_iff : validateV0Members members = .ok () ↔ CanonicalTree members := by
  unfold validateV0Members
  rw [bind_unit_ok, forM_ok, validateEach_iff]
  constructor
  · rintro ⟨⟨ha, hsorted, -⟩, hwa⟩
    exact ⟨fun member h => (ha member h).1, fun member h => (ha member h).2, hsorted,
      fun member h => (validateParents_iff hsorted le_rfl).mp (hwa member h)⟩
  · rintro ⟨hgr, hsi, hsorted, han⟩
    exact ⟨⟨fun member h => ⟨hgr member h, hsi member h⟩, hsorted, nofun⟩,
      fun member h => (validateParents_iff hsorted le_rfl).mpr (han member h)⟩

/-- A member list of any length is accepted exactly when it is a canonical tree, whose names
are then different, and on every list that passed the first loop the search finds exactly the
names that are listed. -/
theorem validate_v0_members_law (members : List ArchiveMember) :
    (validateV0Members members = .ok () ↔ CanonicalTree members) ∧
      (CanonicalTree members → (members.map ArchiveMember.name).Nodup) ∧
        ∀ front, validateEach none front = .ok () → ∀ name,
          (∃ index, binarySearchBy (nameOrder name) front = some index) ↔
            ∃ member ∈ front, member.name.toList = name :=
  ⟨validateV0Members_iff, fun h => names_nodup h.sorted,
    fun _ hfr name => search_iff (validateEach_iff.mp hfr).2.1 name⟩

end Keld.Pack
