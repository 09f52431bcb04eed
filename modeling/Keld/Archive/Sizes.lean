/-
# `Keld.Archive.Sizes` — the size of an archive

The producer computes the size of an archive in one pass over the members and
writes the bytes in another.  They agree for every admitted plan, whatever the
sources and the compressor do: a copy that returns has taken exactly what was
declared, so the archive that was written is the canonical one (`written_ok`), and
its length is the sum of the footprints (`length_canonical`).
-/
import Keld.Archive.Canonical
import Keld.Archive.Planning

namespace Keld.Archive

open Pack List

theorem length_image_footprint {item : Item} (hsound : item.Sound) :
    item.image.length = footprint item.1 := by
  rw [length_image hsound, length_body hsound, footprint, Nat.add_assoc]

variable {items : List Item} {member : ArchiveMember}

section

variable (hsound : ∀ item ∈ items, item.Sound)
include hsound

theorem length_images : (image items).length = offsetBehind (items.map Prod.fst) := by
  induction items with
  | nil => rfl
  | cons item items ih =>
    obtain ⟨hi, hit⟩ := forall_mem_cons.mp hsound
    rw [image, flatMap_cons, length_append, length_image_footprint hi]
    exact congrArg (footprint item.1 + ·) (ih hit)

theorem length_le_images : items.length ≤ (image items).length := by
  induction items with
  | nil => exact Nat.zero_le _
  | cons item items ih =>
    obtain ⟨hi, hit⟩ := forall_mem_cons.mp hsound
    have hr := ih hit
    rw [image] at hr
    rw [image, flatMap_cons, length_append, length_image hi, length_cons, blockBytes]
    omega

theorem length_canonical :
    (canonical items).length = blockBytes * 2 + offsetBehind (items.map Prod.fst) := by
  rw [canonical, length_append, length_append, length_images hsound, length_zeros]
  omega

end

/-! ## What is written -/

/-- The items of a plan: its members with the contents that came from the sources. -/
structure Contents (entries : List PackageEntry) (items : List Item) : Prop where
  members : items.map Prod.fst = (planned entries).map Prod.fst
  contents : items.map (some ·.2) = (planned entries).map (contentOf entries)
  sound : ∀ item ∈ items, item.Sound

section Run

variable {env : PackEnv} {entries : List PackageEntry} {size : Nat} {sink sink' : Sink}

/-- Members and terminator, when all was written: the canonical archive of the plan. -/
theorem written_ok {mid mid' : Sink} (hpl : Plan env.nls entries size)
    (hmb : writeMembers env entries (planned entries) sink = (.ok (), mid))
    (ho : writeAll env "archive terminator write" (List.replicate blockBytes 0) mid =
      (.ok (), mid'))
    (htwo : writeAll env "archive terminator write" (List.replicate blockBytes 0) mid' =
      (.ok (), sink')) :
    ∃ items, Contents entries items ∧ Put sink sink' (canonical items) := by
  have had := plan_admissible hpl
  obtain ⟨items, hit, hco, hle, hput⟩ := writeMembers_ok planned_sourced
    (fun p hp => (had p hp).short) (fun p hp => (had p hp).directory) hmb
  refine ⟨items, ⟨hit, hco, fun item hi => ⟨?_, hle item hi⟩⟩, ?_⟩
  · obtain ⟨p, hp, hmbr⟩ := mem_map.mp (hit ▸ mem_map_of_mem hi)
    exact hmbr ▸ had p hp
  · exact hput.trans ((writeAll_ok ho).trans (writeAll_ok htwo))

theorem contents_length {items : List Item} (hp : Plan env.nls entries size)
    (hco : Contents entries items) : (canonical items).length = size := by
  rw [length_canonical hco.sound, hco.members, (sizes_ok.mp hp.sizes).1]

/-- A run of the producer that returned. -/
theorem produce_ok {produced : ProducedFull}
    (h : produce env entries Sink.fresh = (.ok produced, sink')) :
    ∃ size items, Plan env.nls entries size ∧ Contents entries items ∧
      sink'.content = canonical items ∧ sink'.count = size ∧ produced.contentSize = size ∧
        produced.contentBlake3 = env.blake3 sink'.content := by
  obtain ⟨⟨plan, size⟩, start, hp, h⟩ := Proc.bind_ok_iff.mp h
  obtain ⟨ha, rfl⟩ := Proc.ofExcept_ok hp
  obtain ⟨hpl, ha⟩ := plan_ok.mp (mapError_ok.mp ha)
  obtain ⟨⟨⟩, start, hin, h⟩ := Proc.bind_ok_iff.mp h
  obtain ⟨-, rfl⟩ := Proc.ofExcept_ok hin
  obtain ⟨⟨⟩, mid, hmb, h⟩ := Proc.bind_ok_iff.mp h
  obtain ⟨⟨⟩, mid', ho, h⟩ := Proc.bind_ok_iff.mp h
  obtain ⟨⟨⟩, last, htwo, h⟩ := Proc.bind_ok_iff.mp h
  obtain ⟨now, last', hst, h⟩ := Proc.bind_ok_iff.mp h
  cases hst
  rw [show plan = planned entries from hpl] at hmb
  obtain ⟨items, hco, hput⟩ := written_ok ha hmb ho htwo
  have hc : last.count = size := by
    rw [hput.count, contents_length ha hco]
    exact Nat.zero_add size
  split_ifs at h with hs
  · exact absurd hc hs
  · obtain ⟨compressed, end_, hfi, h⟩ := Proc.bind_ok_iff.mp h
    obtain ⟨-, rfl⟩ := Proc.ofExcept_ok hfi
    cases h
    exact ⟨size, items, ha, hco, by rw [hput.content]; rfl, hc, rfl, rfl⟩

end Run

/-! ## The law -/

/-- The header of a member stands where its front ends. -/
theorem header_at {front back : List ArchiveMember} (hsound : ∀ item ∈ items, item.Sound)
    (hs : items.map Prod.fst = front ++ member :: back) :
    ∃ bytes, header member = some bytes ∧
      slice (canonical items) (offsetBehind front) blockBytes = bytes.bytes := by
  obtain ⟨before, rest, rfl, hb, hr⟩ := map_eq_append_iff.mp hs
  obtain ⟨item, after, rfl, hi, -⟩ := map_eq_cons_iff.mp hr
  have had := (hsound item (mem_append_right _ (mem_cons_self ..))).admissible
  obtain ⟨bytes, hh, hby⟩ := header_eq had.short
  rw [hi] at hh
  refine ⟨bytes, hh, ?_⟩
  have hoff : (image before).length = offsetBehind front := by
    rw [length_images fun item h => hsound item (mem_append_left _ h), hb]
  have hby' : canonical (before ++ item :: after) =
      image before ++ (headerBytes item.1 ++ (Item.body item ++ canonical after)) := by
    rw [← canonical_cons, canonical, canonical, image, flatMap_append, append_assoc]
    rfl
  rw [hby', ← hoff, hby, slice, drop_left]
  exact take_left' (length_headerBytes had.short)

/-- The checksum field has room for the sum. -/
theorem checksum_fits (had : Admissible member) :
    ∃ bytes, header member = some bytes ∧ headerSum bytes.bytes < 8 ^ 6 := by
  obtain ⟨bytes, hh, hby⟩ := header_eq had.short
  refine ⟨bytes, hh, ?_⟩
  have hof := (headerOf_iff bytes.len).mpr ⟨had, hby⟩
  obtain ⟨hsum, -⟩ := bind_unit_ok.mp hof
  unfold verifyHeaderChecksum at hsum
  dsimp only at hsum
  split_ifs at hsum with hbad
  · cases hsum
  · rw [not_or, not_not] at hbad
    exact (Nat.div_eq_zero_iff.mp hbad.1).resolve_left (by decide)

/-- For every plan that is admitted: its size is what its members and the two closing blocks
take up, no sum or octal field overflows on the way, members start at whole blocks, and
whatever is written out completely has that size.  A copy returns only when its source has the
declared size, and the preflight accepts no front and no extension of what it accepts. -/
theorem archive_size_law {nls : List String → Bool} {entries : List PackageEntry}
    {members : List PlannedMember} {size : Nat} (h : plan nls entries = .ok (members, size)) :
    size = blockBytes * 2 + offsetBehind (members.map Prod.fst) ∧ size ≤ maxArtifactBytes ∧
    (∀ front member back, members.map Prod.fst = front ++ member :: back →
      blockBytes * 2 + offsetBehind front + footprint member ≤ maxArtifactBytes ∧
      offsetBehind front % blockBytes = 0 ∧
      parseOctalField (octal member.size 12) = some member.size ∧
      ∃ bytes, header member = some bytes ∧ headerSum bytes.bytes < 8 ^ 6) ∧
    (∀ (env : PackEnv) (mid mid' sink' : Sink), env.nls = nls →
      writeMembers env entries members Sink.fresh = (.ok (), mid) →
      writeAll env "archive terminator write" (List.replicate blockBytes 0) mid = (.ok (), mid') →
      writeAll env "archive terminator write" (List.replicate blockBytes 0) mid' =
        (.ok (), sink') →
      sink'.content.length = size ∧ sink'.count = size ∧
      ∀ front member back, members.map Prod.fst = front ++ member :: back →
        ∃ bytes, header member = some bytes ∧
          slice sink'.content (offsetBehind front) blockBytes = bytes.bytes) ∧
    (∀ env member input sink sink', copyExact env member input sink = (.ok (), sink') →
      ∃ bytes, sourceBytes input = some bytes ∧ bytes.length = member.size ∧
        Put sink sink' bytes) ∧
    ∀ env receipt input archive, parseContentArchive env receipt input = .ok archive →
      ∀ env' receipt' input', input'.rest ≠ input.rest →
        (input'.rest <+: input.rest ∨ input.rest <+: input'.rest) →
        ∀ archive', parseContentArchive env' receipt' input' ≠ .ok archive' := by
  obtain ⟨rfl, hpl⟩ := plan_ok.mp h
  obtain ⟨hsi, hsu⟩ := sizes_ok.mp hpl.sizes
  have had := plan_admissible hpl
  refine ⟨hsi, size_le hpl, fun front member back hs => ?_, ?_, ?_, ?_⟩
  · have hmbr : member ∈ (planned entries).map Prod.fst := by
      rw [hs]
      exact mem_append_right _ (mem_cons_self ..)
    obtain ⟨p, hp, rfl⟩ := mem_map.mp hmbr
    exact ⟨hsu front p.1 back hs, offsetBehind_mod front,
      parseOctalField_eq_some.mpr ⟨rfl, (had p hp).size⟩, checksum_fits (had p hp)⟩
  · rintro env mid mid' sink' rfl hmb ho htwo
    obtain ⟨items, hco, hput⟩ := written_ok hpl hmb ho htwo
    have hl := contents_length hpl hco
    have hc : sink'.content = canonical items := hput.content
    refine ⟨by rw [hc, hl], ?_, fun front member back hs => ?_⟩
    · rw [hput.count, hl]
      exact Nat.zero_add _
    · rw [hc]
      exact header_at hco.sound (hco.members.trans hs)
  · exact fun env member input sink sink' hcopy => copyExact_ok hcopy
  · intro env receipt input archive hacc env' receipt' input' hne hfr archive' hacc'
    rcases hfr with hfr | hfr
    · exact hne (accepted_front hacc' hacc hfr)
    · exact hne (accepted_front hacc hacc' hfr).symm

/-- A package of the helper alone. -/
def helperEntry : PackageEntry := .file updaterHelperPath 3 [.bytes [1, 2, 3]]

theorem archive_size_law_helper : ∃ members size,
    plan (fun _ => true) [helperEntry] = .ok (members, size) ∧
      size = blockBytes * 2 + offsetBehind (members.map Prod.fst) := by
  obtain ⟨⟨members, size⟩, h⟩ : ∃ result, plan (fun _ => true) [helperEntry] = .ok result :=
    ⟨_, rfl⟩
  exact ⟨members, size, h, (archive_size_law h).1⟩

end Keld.Archive
