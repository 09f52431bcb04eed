/-
# `Keld.Archive.Inverse` — the producer and the preflight are inverse

What a run of the producer has written is accepted, with the planned members in
their order and each content where its entry says (`produced_accepted`).  The
other way round, what is accepted is what the producer writes for the members
and contents that were reported: the entries read out of an archive
(`entriesOf`) are planned as the same tree, since both lists are strictly sorted
(`planned_entriesOf`).
-/
import Keld.Archive.Sizes

namespace Keld.Archive

open Pack List

/-! ## Entries and their data -/

theorem archiveMembers_entriesAt (items : List Item) :
    ∀ start, archiveMembers (entriesAt start items) = items.map Prod.fst := by
  induction items with
  | nil => exact fun start => rfl
  | cons item items ih =>
    intro start
    exact congrArg (item.1 :: ·) (ih _)

/-- The data ranges of the entries hold the contents. -/
theorem slices_entriesAt {items : List Item} (hs : ∀ item ∈ items, item.Sound)
    (tail : List Byte) : ∀ front : List Byte,
      (entriesAt front.length items).map
          (fun entry => slice (front ++ (image items ++ tail)) entry.dataOffset entry.size) =
        items.map Prod.snd := by
  induction items with
  | nil => exact fun front => rfl
  | cons item items ih =>
    intro front
    obtain ⟨hi, hit⟩ := forall_mem_cons.mp hs
    have hda : slice (front ++ (image (item :: items) ++ tail)) (front.length + blockBytes)
        item.1.size = item.2 := by
      have hby : front ++ (image (item :: items) ++ tail) = (front ++ headerBytes item.1) ++
            (item.2 ++ (zeros (padding item.1.size) ++ (image items ++ tail))) := by
        simp only [image, flatMap_cons, Item.image, Item.body, append_assoc]
      have hsk : front.length + blockBytes = (front ++ headerBytes item.1).length := by
        rw [length_append, length_headerBytes hi.admissible.short]
      rw [hby, hsk, slice, drop_left]
      exact take_left' hi.content
    have hr := ih hit (front ++ item.image)
    rw [length_append] at hr
    have hby : front ++ (image (item :: items) ++ tail) =
        front ++ item.image ++ (image items ++ tail) := by
      rw [image, flatMap_cons, append_assoc, append_assoc]
      rfl
    rw [entriesAt, map_cons, map_cons]
    refine cons_eq_cons.mpr ⟨hda, ?_⟩
    rw [hby]
    exact hr

theorem slices_canonical {items : List Item} (hs : ∀ item ∈ items, item.Sound) :
    (entriesAt 0 items).map
      (fun entry => slice (canonical items) entry.dataOffset entry.size) = items.map Prod.snd :=
  slices_entriesAt hs _ []

/-! ## The policy -/

theorem addAll_seen (items : List Item) :
    ∀ (found : Found) (start : Nat), (found.addAll start items).policySeen =
      (found.policySeen || items.any Item.isPolicy) := by
  induction items with
  | nil => exact fun found start => (Bool.or_false _).symm
  | cons item items ih =>
    intro found start
    show ((found.add start item).addAll _ items).policySeen = _
    rw [ih, any_cons, ← Bool.or_assoc]
    unfold Found.add
    cases hpol : item.isPolicy with
    | true =>
      simp
    | false =>
      simp

/-- All policy members agree on whether they are valid, and so does what was found. -/
theorem addAll_valid {valid : Bool} (items : List Item) :
    ∀ (found : Found) (start : Nat),
      (∀ item ∈ items, item.isPolicy = true → item.policyValid = valid) →
      (found.policyValid = valid ∨ items.any Item.isPolicy = true) →
        (found.addAll start items).policyValid = valid := by
  induction items with
  | nil => exact fun found start _ h => h.resolve_right Bool.false_ne_true
  | cons item items ih =>
    intro found start hit h
    obtain ⟨hi, hr⟩ := forall_mem_cons.mp hit
    refine ih _ _ hr ?_
    unfold Found.add
    cases hpol : item.isPolicy with
    | true =>
      rw [if_pos rfl]
      exact .inl (hi hpol)
    | false =>
      rw [if_neg Bool.false_ne_true]
      rw [any_cons, hpol, Bool.false_or] at h
      exact h

/-! ## What was written is accepted -/

section Forward

variable {env : PackEnv} {entries : List PackageEntry} {size : Nat} {items : List Item}

theorem policy_planned : (policyMember, none) ∈ planned entries :=
  (perm_insertionSort _ _).mem_iff.mpr mem_concat_self

/-- The policy of a plan is the producer's own. -/
theorem planned_policy (hpl : Plan env.nls entries size) {p : PlannedMember}
    (hp : p ∈ planned entries) (hn : p.1.name = updatePolicyPath) :
    p = (policyMember, none) := by
  have hm := (perm_insertionSort _ _).mem_iff.mp hp
  rcases mem_snoc.mp hm with hm | hpol
  · rcases mem_append.mp hm with hli | hpar
    · obtain ⟨⟨entry, index⟩, he, heq⟩ := mem_map.mp hli
      cases heq
      exact absurd hn (hpl.allowed entry
        (mem_of_getElem? (mem_zipIdx_iff_getElem?.mp he))).notPolicy
    · split_ifs at hpar
      · cases hpar
      · cases mem_singleton.mp hpar
        exact absurd hn (by decide)
  · exact hpol

/-- The items of a plan, one by one. -/
theorem Contents.item (h : Contents entries items) {item : Item} (hi : item ∈ items) :
    ∃ p ∈ planned entries, p.1 = item.1 ∧ contentOf entries p = some item.2 := by
  obtain ⟨index, hin, rfl⟩ := mem_iff_getElem.mp hi
  have hl : items.length = (planned entries).length := by
    have hmb := congrArg List.length h.members
    rwa [length_map, length_map] at hmb
  have hin' : index < (planned entries).length := hl ▸ hin
  refine ⟨(planned entries)[index], List.getElem_mem _, ?_, ?_⟩
  · have hmbr := congrArg (·[index]?) h.members
    simpa [getElem?_map, hin, hin'] using hmbr.symm
  · have hc := congrArg (·[index]?) h.contents
    simpa [getElem?_map, hin, hin'] using hc.symm

/-- The policy among the items of a plan is valid. -/
theorem Contents.policy (hpl : Plan env.nls entries size) (h : Contents entries items)
    {item : Item} (hi : item ∈ items) (hpol : item.isPolicy = true) :
    item.policyValid = true := by
  obtain ⟨p, hp, hmbr, hc⟩ := h.item hi
  obtain rfl : p = (policyMember, none) :=
    planned_policy hpl hp (by rw [hmbr]; exact beq_iff_eq.mp hpol)
  have hda : item.2 = noMigrationPolicy :=
    (Option.some.inj (show some noMigrationPolicy = some item.2 from hc)).symm
  unfold Item.policyValid
  rw [← hmbr, hda]
  decide +kernel

theorem Contents.policy_mem (h : Contents entries items) : items.any Item.isPolicy = true := by
  have hm : policyMember ∈ items.map Prod.fst := by
    rw [h.members]
    exact mem_map_of_mem policy_planned
  obtain ⟨item, hi, hmbr⟩ := mem_map.mp hm
  refine any_eq_true.mpr ⟨item, hi, ?_⟩
  unfold Item.isPolicy
  rw [hmbr]
  decide +kernel

variable {receipt : ContentIdentity}

theorem admitFound_ok {env : InputEnv} {found : Found} {reader : HashingReader}
    {archive : ValidatedArchive} :
    admitFound env receipt found reader = .ok archive ↔ reader.bytesRead = receipt.contentSize ∧
      validateV0Members (archiveMembers found.entries) = .ok () ∧
      windowsPackagePaths env.nls ((archiveMembers found.entries).map ArchiveMember.name) = true ∧
      env.blake3 reader.hashed = receipt.contentBlake3 ∧ found.policySeen = true ∧
      found.policyValid = true ∧ requireUpdaterHelper (archiveMembers found.entries) = .ok () ∧
      archive = ⟨receipt.identity, receipt.contentSize, env.blake3 reader.hashed,
        found.entries⟩ := by
  unfold admitFound validateArchiveMembers
  simp only [bind_unit_ok, require_ok, beq_iff_eq, mapError_ok, and_assoc]
  refine and_congr_right fun _ => and_congr_right fun _ => and_congr_right fun _ =>
    and_congr_right fun _ => and_congr_right fun _ => and_congr_right fun _ =>
      and_congr_right fun _ => ?_
  exact ⟨fun h => (Except.ok.inj h).symm, fun h => congrArg Except.ok h.symm⟩

/-- The preflight accepts what the producer has written, under its size and digest. -/
theorem produced_accepted {sink' : Sink} {produced : ProducedFull} {inputEnv : InputEnv}
    {input : Input} (h : produce env entries Sink.fresh = (.ok produced, sink'))
    (hq : inputEnv.Quiet) (hnls : inputEnv.nls = env.nls)
    (hblake3 : inputEnv.blake3 = env.blake3) (hsi : receipt.contentSize = produced.contentSize)
    (hdig : receipt.contentBlake3 = produced.contentBlake3)
    (hpos : input.position ≤ input.bytes.length) (hr : input.rest = sink'.content) :
    ∃ archive, parseContentArchive inputEnv receipt input = .ok archive ∧
      archiveMembers archive.entries = (planned entries).map Prod.fst ∧
      archive.entries.map (fun entry => some (slice input.rest entry.dataOffset entry.size)) =
        (planned entries).map (contentOf entries) := by
  obtain ⟨size, items, hp, hco, hc, -, hpr, hbl⟩ := produce_ok h
  have hs := hco.sound
  have hle : input.rest.length = receipt.contentSize := by
    rw [hr, hc, contents_length hp hco, hsi, hpr]
  have hb : receipt.contentSize ≤ maxArtifactBytes := by
    rw [hsi, hpr]
    exact size_le hp
  have hro : receipt.contentSize + 1 < u64Bound := by
    unfold u64Bound
    unfold maxArtifactBytes at hb
    omega
  -- the reader sees exactly the archive
  let reader : HashingReader := ⟨input.rest.take (receipt.contentSize + 1), 0, [], 0⟩
  have hn : HashingReader.new input receipt.contentSize = .ok reader := if_pos hro
  have hl : reader.left = canonical items := by
    show input.rest.take _ = _
    rw [take_of_length_le (by omega), hr, hc]
  have hbd : reader.Bounded := by
    show 0 + reader.left.length < _
    rw [hl, ← hc, ← hr, hle]
    omega
  have htu : items.length < receipt.contentSize + 1 := by
    have hlong := length_le_images hs
    rw [← hle, hr, hc, canonical, length_append]
    omega
  obtain ⟨found, last, hlo⟩ : ∃ found last, parseLoop inputEnv receipt.contentSize
      (receipt.contentSize + 1) ⟨[], false, false⟩ reader = (.ok found, last) :=
    parseLoop_quiet hq hs htu _ hbd hl
  obtain ⟨items', hs', ht, he, rfl⟩ := parseLoop_ok hlo
  have hl' := ht.left
  rw [he, append_nil, hl] at hl'
  obtain rfl : items = items' := canonical_front hs hs' (hl' ▸ prefix_refl _)
  have hre : last.bytesRead = receipt.contentSize := by
    rw [ht.counted, ← hc, ← hr, hle]
    exact Nat.zero_add _
  have hha : last.hashed = sink'.content := by
    rw [ht.hashed, hc]
    rfl
  have hen : ((⟨[], false, false⟩ : Found).addAll 0 items).entries = entriesAt 0 items :=
    addAll_entries items _ 0
  have hmb : archiveMembers ((⟨[], false, false⟩ : Found).addAll 0 items).entries =
      (planned entries).map Prod.fst := by
    rw [hen, archiveMembers_entriesAt, hco.members]
  have had : admitFound inputEnv receipt ((⟨[], false, false⟩ : Found).addAll 0 items) last =
      .ok ⟨receipt.identity, receipt.contentSize, inputEnv.blake3 last.hashed,
        ((⟨[], false, false⟩ : Found).addAll 0 items).entries⟩ :=
    admitFound_ok.mpr ⟨hre, by rw [hmb]; exact validateV0Members_iff.mpr hp.tree,
      by rw [hmb, hnls]; exact hp.paths,
      by rw [hblake3, hha, hdig, hbl],
      by rw [addAll_seen, hco.policy_mem]; rfl,
      addAll_valid items _ 0 (fun item => hco.policy hp) (.inr hco.policy_mem),
      by rw [hmb]; exact hp.helper, rfl⟩
  refine ⟨⟨receipt.identity, receipt.contentSize, inputEnv.blake3 last.hashed,
    ((⟨[], false, false⟩ : Found).addAll 0 items).entries⟩, ?_, hmb, ?_⟩
  · refine bind_unit_ok.mpr ⟨mapError_ok.mpr (hq.seek 0), ?_⟩
    refine bind_unit_ok.mpr ⟨mapError_ok.mpr (hq.seek 1), ?_⟩
    refine bind_unit_ok.mpr ⟨require_ok.mpr (decide_eq_true hpos), ?_⟩
    have hrm : input.bytes.length - input.position = receipt.contentSize := by
      rw [← hle, Input.rest, length_drop]
    refine bind_unit_ok.mpr ⟨require_ok.mpr (beq_iff_eq.mpr hrm), ?_⟩
    refine bind_unit_ok.mpr ⟨mapError_ok.mpr (hq.seek 2), ?_⟩
    refine bind_ok.mpr ⟨reader, hn, ?_⟩
    have hru : parseFrom inputEnv receipt reader = (.ok _, last) :=
      Proc.bind_ok_iff.mpr ⟨_, last, hlo, Proc.bind_ok_iff.mpr ⟨last, last, rfl, by
        rw [Proc.ofExcept_run, had]⟩⟩
    rw [hru]
  · rw [← hco.contents, hen, hr, hc]
    have hsl := congrArg (List.map some) (slices_canonical hs)
    rw [map_map, map_map] at hsl
    exact hsl

end Forward

/-! ## What is accepted is what would be written -/

/-- The entry a caller would give for a member and its content. -/
def Item.entry (item : Item) : PackageEntry :=
  match item.1.kind with
  | .directory => .directory item.1.name
  | .file => .file item.1.name item.1.size [.bytes item.2]

/-- All entries but the producer's own policy. -/
def packageEntries (items : List Item) : List PackageEntry :=
  (items.filter fun item => !item.isPolicy).map Item.entry

/-- The items an archive reports: its members and the contents at their ranges. -/
def reported (archive : ValidatedArchive) (bytes : List Byte) : List Item :=
  archive.entries.map fun entry =>
    (⟨entry.name, entry.kind, entry.size⟩, slice bytes entry.dataOffset entry.size)

variable {archive : ValidatedArchive}

theorem reported_canonical {items : List Item} (hs : ∀ item ∈ items, item.Sound)
    (h : archive.entries = entriesAt 0 items) :
    reported archive (canonical items) = items := by
  have hmb := archiveMembers_entriesAt items 0
  have hsc := slices_canonical hs
  unfold reported
  rw [h]
  refine ext_getElem? fun index => ?_
  have hmbr := congrArg (·[index]?) hmb
  have hsl := congrArg (·[index]?) hsc
  unfold archiveMembers at hmbr
  simp only [getElem?_map] at hmbr hsl ⊢
  cases he : (entriesAt 0 items)[index]? with
  | none =>
    rw [he] at hmbr
    rw [Option.map_none] at hmbr ⊢
    exact (Option.map_eq_none_iff.mp hmbr.symm).symm
  | some entry =>
    rw [he] at hmbr hsl
    obtain ⟨item, hi, ho⟩ := Option.map_eq_some_iff.mp hmbr.symm
    rw [hi] at hsl ⊢
    exact congrArg some (Prod.ext ho.symm (Option.some.inj hsl))

section Backward

variable {nls : List String → Bool} {items : List Item}

/-- An accepted tree. -/
structure Accepted (nls : List String → Bool) (items : List Item) : Prop where
  sound : ∀ item ∈ items, item.Sound
  tree : CanonicalTree (items.map Prod.fst)
  paths : windowsPackagePaths nls ((items.map Prod.fst).map ArchiveMember.name) = true
  policy : ∃ item ∈ items, item.isPolicy = true ∧ item.policyValid = true
  helper : requireUpdaterHelper (items.map Prod.fst) = .ok ()
  size : (canonical items).length ≤ maxArtifactBytes

theorem Accepted.eq_of_name (h : Accepted nls items) {one other : Item} (hon : one ∈ items)
    (ho : other ∈ items) (hn : one.1.name = other.1.name) : one = other := by
  have hdi : (items.map fun item => item.1.name).Nodup := by
    have hna := names_nodup h.tree.sorted
    rwa [map_map] at hna
  exact inj_on_of_nodup_map hdi hon ho hn

theorem entry_member {item : Item} (hs : item.Sound) : item.entry.member = item.1 := by
  obtain ⟨⟨name, kind, size⟩, content⟩ := item
  cases kind with
  | directory =>
    have hsi : size = 0 := hs.admissible.directory rfl
    rw [hsi]
    rfl
  | file => rfl

theorem entry_content {item : Item} (hs : item.Sound) :
    (match item.entry with
      | .file _ _ input => sourceBytes input
      | .directory _ => some []) = some item.2 := by
  obtain ⟨⟨name, kind, size⟩, content⟩ := item
  cases kind with
  | directory =>
    have he : content = [] := by
      have hl := hs.content
      rw [hs.admissible.directory rfl] at hl
      exact length_eq_zero_iff.mp hl
    rw [he]
    rfl
  | file =>
    show sourceBytes [.bytes content] = some content
    cases content with
    | nil => rfl
    | cons byte content =>
      rw [sourceBytes_bytes (cons_ne_nil _ _)]
      exact congrArg some (append_nil _)

theorem policyValid_eq {item : Item} (hpol : item.isPolicy = true)
    (hv : item.policyValid = true) : item = (policyMember, noMigrationPolicy) := by
  obtain ⟨⟨name, kind, size⟩, content⟩ := item
  unfold Item.policyValid at hv
  simp only [Bool.and_eq_true, beq_iff_eq] at hv
  obtain ⟨⟨hk, hs⟩, hc⟩ := hv
  have hn : name = updatePolicyPath := beq_iff_eq.mp hpol
  subst hn hk hs hc
  rfl

theorem Accepted.policy_eq (h : Accepted nls items) {item : Item} (hi : item ∈ items)
    (hpol : item.isPolicy = true) : item = (policyMember, noMigrationPolicy) := by
  obtain ⟨policy, hm, hn, hv⟩ := h.policy
  obtain rfl := h.eq_of_name hi hm ((beq_iff_eq.mp hpol).trans (beq_iff_eq.mp hn).symm)
  exact policyValid_eq hn hv

theorem Accepted.policy_mem (h : Accepted nls items) :
    (policyMember, noMigrationPolicy) ∈ items := by
  obtain ⟨policy, hm, hn, hv⟩ := h.policy
  rwa [policyValid_eq hn hv] at hm

theorem Accepted.parent (h : Accepted nls items) :
    ∃ parent ∈ items, parent.1.name = policyParent ∧ parent.1.kind = .directory := by
  obtain ⟨member, hmbr, hn, hk⟩ := parent_mem (validateV0Members_iff.mpr h.tree)
    (mem_map_of_mem h.policy_mem) rfl
  obtain ⟨item, hi, rfl⟩ := mem_map.mp hmbr
  exact ⟨item, hi, hn, hk⟩

theorem eq_singleton_of_nodup {α : Type} {l : List α} {a : α} (hno : l.Nodup)
    (ha : ∀ b ∈ l, b = a) (hm : a ∈ l) : l = [a] := by
  cases l with
  | nil => cases hm
  | cons b l =>
    obtain rfl := ha b (mem_cons_self ..)
    cases l with
    | nil => rfl
    | cons c l =>
      have hs := ha c (mem_cons_of_mem _ (mem_cons_self ..))
      rw [hs] at hno
      exact absurd (mem_cons_self ..) (nodup_cons.mp hno).1

/-- The members of the entries and the policy are the members of the tree. -/
theorem Accepted.perm (h : Accepted nls items) :
    ((packageEntries items).map PackageEntry.member ++ [policyMember]).Perm
      (items.map Prod.fst) := by
  have hen : (packageEntries items).map PackageEntry.member =
      (items.filter fun item => !item.isPolicy).map Prod.fst := by
    rw [packageEntries, map_map]
    exact map_congr_left fun item hi =>
      entry_member (h.sound item (mem_filter.mp hi).1)
  have hno : items.Nodup := by
    refine List.Nodup.of_map (fun item => item.1.name) ?_
    have hna := names_nodup h.tree.sorted
    rwa [map_map] at hna
  have hpol : items.filter Item.isPolicy = [(policyMember, noMigrationPolicy)] :=
    eq_singleton_of_nodup (hno.filter _)
      (fun item hi => h.policy_eq (mem_filter.mp hi).1 (mem_filter.mp hi).2)
      (mem_filter.mpr ⟨h.policy_mem, by decide +kernel⟩)
  have hpa := filter_append_perm Item.isPolicy items
  rw [hpol] at hpa
  rw [hen]
  exact perm_append_comm.trans (hpa.map Prod.fst)

instance : Std.Total PlannedMember.le := ⟨fun _ _ => List.le_total _ _⟩

instance : IsTrans PlannedMember PlannedMember.le := ⟨fun _ _ _ h h' => List.le_trans h h'⟩

theorem listed_members (entries : List PackageEntry) (index : Nat) :
    (listed entries index).map Prod.fst = entries.map PackageEntry.member := by
  unfold listed
  rw [map_map]
  induction entries generalizing index with
  | nil => rfl
  | cons entry entries ih => exact congrArg (entry.member :: ·) (ih (index + 1))

section

variable (h : Accepted nls items)
include h

theorem Accepted.any_parent : (packageEntries items).any isParent = true := by
  obtain ⟨parent, hm, hn, hk⟩ := h.parent
  have hnot : (!parent.isPolicy) = true := by
    rw [Bool.not_eq_true', Item.isPolicy, hn]
    decide +kernel
  refine any_eq_true.mpr ⟨parent.entry, mem_map_of_mem (mem_filter.mpr ⟨hm, hnot⟩), ?_⟩
  rw [isParent, entry_member (h.sound parent hm), hn]
  decide +kernel

/-- The plan for the reported entries is the tree itself. -/
theorem Accepted.planned : (planned (packageEntries items)).map Prod.fst = items.map Prod.fst := by
  have hp : ((Archive.planned (packageEntries items)).map Prod.fst).Perm (items.map Prod.fst) := by
    refine ((perm_insertionSort _ _).map Prod.fst).trans ?_
    rw [h.any_parent, if_pos rfl, append_nil, map_append, listed_members]
    exact h.perm
  have hdi : ((Archive.planned (packageEntries items)).map Prod.fst).Pairwise
      fun one other => one.name ≠ other.name := by
    have hna := (hp.map ArchiveMember.name).nodup_iff.mpr (names_nodup h.tree.sorted)
    exact pairwise_map.mp hna
  have hso : ((Archive.planned (packageEntries items)).map Prod.fst).Pairwise
      fun one other => utf8 one.name < utf8 other.name := by
    have hle : ((Archive.planned (packageEntries items)).map Prod.fst).Pairwise
        fun one other => utf8 one.name ≤ utf8 other.name :=
      pairwise_map.mpr (pairwise_insertionSort PlannedMember.le _)
    refine List.Pairwise.imp₂ (fun one other hle hne => ?_) hle hdi
    exact (List.le_iff_lt_or_eq.mp hle).resolve_right fun he => hne (utf8_inj he)
  refine hp.eq_of_pairwise (fun one other _ _ hlt hgt => ?_) hso h.tree.sorted
  exact absurd hgt (List.lt_asymm hlt)

/-- The contents of the plan for the reported entries are those reported. -/
theorem Accepted.content {p : PlannedMember}
    (hp : p ∈ Archive.planned (packageEntries items)) {item : Item} (hi : item ∈ items)
    (hmbr : item.1 = p.1) : contentOf (packageEntries items) p = some item.2 := by
  have hm := (perm_insertionSort _ _).mem_iff.mp hp
  rw [h.any_parent, if_pos rfl, append_nil] at hm
  rcases mem_append.mp hm with hli | hpol
  · obtain ⟨⟨entry, index⟩, hzip, rfl⟩ := mem_map.mp hli
    have he : (packageEntries items)[index]? = some entry := mem_zipIdx_iff_getElem?.mp hzip
    obtain ⟨source, hsrc, rfl⟩ := mem_map.mp (mem_of_getElem? he)
    have hsourceMem := (mem_filter.mp hsrc).1
    have hs := h.sound source hsourceMem
    obtain rfl : item = source := h.eq_of_name hi hsourceMem
      (congrArg ArchiveMember.name (hmbr.trans (entry_member hs)))
    have hc := entry_content hs
    unfold contentOf
    dsimp only
    rw [he]
    cases hk : item.entry with
    | directory | file =>
      rw [hk] at hc
      exact hc
  · rw [mem_singleton] at hpol
    subst hpol
    have hisPolicy : item.isPolicy = true := by
      rw [Item.isPolicy, hmbr]
      decide +kernel
    rw [h.policy_eq hi hisPolicy]
    rfl

theorem Accepted.contents : Contents (packageEntries items) items := by
  refine ⟨h.planned.symm, ?_, h.sound⟩
  refine ext_getElem? fun index => ?_
  have hmbr := congrArg (·[index]?) h.planned
  simp only [getElem?_map] at hmbr ⊢
  cases hi : items[index]? with
  | none =>
    rw [hi, Option.map_none, Option.map_eq_none_iff] at hmbr
    rw [hmbr]
    rfl
  | some item =>
    rw [hi] at hmbr
    obtain ⟨p, hp, hs⟩ := Option.map_eq_some_iff.mp hmbr
    rw [hp, Option.map_some, Option.map_some,
      h.content (mem_of_getElem? hp) (mem_of_getElem? hi) hs.symm]

/-- The reported entries are admitted, with the size of the archive. -/
theorem Accepted.plan : Plan nls (packageEntries items) (canonical items).length := by
  refine ⟨fun entry he => ?_, ?_, ?_, ?_, ?_⟩
  · obtain ⟨item, hi, rfl⟩ := mem_map.mp he
    obtain ⟨hm, hnot⟩ := mem_filter.mp hi
    have hmbr := entry_member (h.sound item hm)
    refine ⟨fun hn => ?_, fun hn => ?_⟩
    · rw [hmbr] at hn
      rw [Bool.not_eq_true', Item.isPolicy, hn] at hnot
      exact absurd hnot (by decide +kernel)
    · rw [hmbr] at hn ⊢
      obtain ⟨parent, hpar, hparentName, hk⟩ := h.parent
      rwa [h.eq_of_name hm hpar (hn.trans hparentName.symm)]
  · rw [h.planned]
    exact h.tree
  · rw [h.planned]
    exact h.paths
  · rw [h.planned]
    exact h.helper
  · rw [h.planned, sizes_ok]
    refine ⟨length_canonical h.sound, fun front member back hs => ?_⟩
    have hsi := h.size
    rw [length_canonical h.sound, hs, offsetBehind, map_append, sum_append,
      map_cons, sum_cons] at hsi
    rw [offsetBehind]
    omega

end

end Backward

/-- What the preflight accepts is an accepted tree. -/
theorem accepted_of_ok {env : InputEnv} {receipt : ContentIdentity} {input : Input}
    (h : parseContentArchive env receipt input = .ok archive)
    (hb : receipt.contentSize ≤ maxArtifactBytes) :
    ∃ items, Accepted env.nls items ∧ input.rest = canonical items ∧
      reported archive input.rest = items := by
  obtain ⟨items, hs, hr, hl, hen, reader, -, had⟩ := parseContentArchive_ok h
  obtain ⟨-, htr, hpa, -, hse, hv, hhe, -⟩ := admitFound_ok.mp had
  have hf : ((⟨[], false, false⟩ : Found).addAll 0 items).entries = entriesAt 0 items :=
    addAll_entries items _ 0
  rw [hf, archiveMembers_entriesAt] at htr hpa hhe
  have hcan := validateV0Members_iff.mp htr
  have hpol : ∃ item ∈ items, item.isPolicy = true ∧ item.policyValid = true := by
    rw [addAll_seen, Bool.false_or, any_eq_true] at hse
    obtain ⟨item, hi, hn⟩ := hse
    refine ⟨item, hi, hn, ?_⟩
    -- the names differ, so every policy member is this one
    have hsa : ∀ other ∈ items, other.isPolicy = true → other.policyValid = item.policyValid := by
      intro other ho hotherName
      have hdi : (items.map fun item => item.1.name).Nodup := by
        have hna := names_nodup hcan.sorted
        rwa [map_map] at hna
      rw [inj_on_of_nodup_map hdi ho hi ((beq_iff_eq.mp hotherName).trans (beq_iff_eq.mp hn).symm)]
    have hany : items.any Item.isPolicy = true := any_eq_true.mpr ⟨item, hi, hn⟩
    rw [← addAll_valid items ⟨[], false, false⟩ 0 hsa (.inr hany)]
    exact hv
  refine ⟨items, ⟨hs, hcan, hpa, hpol, hhe, ?_⟩, hr, ?_⟩
  · rw [← hr, hl]
    exact hb
  · rw [hr]
    exact reported_canonical hs hen

/-- An admitted plan over sources that deliver its contents is written. -/
theorem produce_returns {env : PackEnv} (hsm : Smooth env) {entries : List PackageEntry}
    {size : Nat} {items : List Item} (hpl : Plan env.nls entries size)
    (hco : Contents entries items) :
    ∃ produced sink', produce env entries Sink.fresh = (.ok produced, sink') := by
  have hl := contents_length hpl hco
  have hb := size_le hpl
  rw [← hl, canonical, length_append, length_append, length_zeros] at hb
  have hmembersRoom : Sink.fresh.count + (image items).length ≤ maxArtifactBytes := by
    rw [show Sink.fresh.count = 0 from rfl]
    omega
  obtain ⟨mid, hmb⟩ := writeMembers_returns hsm planned_sourced (plan_admissible hpl)
    hco.members hco.contents (fun item h => (hco.sound item h).content)
    hmembersRoom
  obtain ⟨items', hit', -, hle', hput⟩ := writeMembers_ok planned_sourced
    (fun p hp => (plan_admissible hpl p hp).short)
    (fun p hp => (plan_admissible hpl p hp).directory) hmb
  have hmidLength : (image items').length = (image items).length := by
    have hs' : ∀ item ∈ items', item.Sound := fun item hi => by
      obtain ⟨p, hp, hmbr⟩ := mem_map.mp (hit' ▸ mem_map_of_mem hi)
      exact ⟨hmbr ▸ plan_admissible hpl p hp, hle' item hi⟩
    rw [length_images hs', length_images hco.sound, hit', hco.members]
  have hze : (List.replicate blockBytes (0 : Byte)).length = blockBytes := length_replicate
  have hc : mid.count = (image items).length := by
    rw [hput.count, hmidLength]
    exact Nat.zero_add _
  obtain ⟨mid', ho, hputOne⟩ := writeAll_smooth hsm "archive terminator write"
    (show mid.count + (List.replicate blockBytes (0 : Byte)).length ≤ maxArtifactBytes by
      rw [hc, hze]
      omega)
  obtain ⟨sink', htwo, -⟩ := writeAll_smooth hsm "archive terminator write"
    (show mid'.count + (List.replicate blockBytes (0 : Byte)).length ≤ maxArtifactBytes by
      rw [hputOne.count, hc, hze]
      omega)
  obtain ⟨items₁, hco₁, hput₁⟩ := written_ok hpl hmb ho htwo
  have hsa : sink'.count = size := by
    rw [hput₁.count, contents_length hpl hco₁]
    exact Nat.zero_add _
  obtain ⟨compressed, hfi⟩ := hsm.finish sink'.content
  refine ⟨⟨compressed.length, env.blake3 compressed, size, env.blake3 sink'.content⟩, sink', ?_⟩
  refine Proc.bind_ok_iff.mpr ⟨(planned entries, size), Sink.fresh, ?_, ?_⟩
  · rw [show plan env.nls entries = .ok (planned entries, size) from plan_ok.mpr ⟨rfl, hpl⟩]
    rfl
  refine Proc.bind_ok_iff.mpr ⟨(), Sink.fresh, ?_, ?_⟩
  · rw [hsm.init]
    rfl
  refine Proc.bind_ok_iff.mpr ⟨(), mid, hmb, Proc.bind_ok_iff.mpr ⟨(), mid', ho, ?_⟩⟩
  refine Proc.bind_ok_iff.mpr ⟨(), sink', htwo, Proc.bind_ok_iff.mpr ⟨sink', sink', rfl, ?_⟩⟩
  rw [if_neg (not_not.mpr hsa)]
  refine Proc.bind_ok_iff.mpr ⟨compressed, sink', ?_, rfl⟩
  rw [hfi]
  rfl

/-! ## The law -/

/-- The entries a caller would give for what an archive reports. -/
def entriesOf (archive : ValidatedArchive) (bytes : List Byte) : List PackageEntry :=
  packageEntries (reported archive bytes)

/-- Whatever the producer has written is accepted under its size and digest, with the planned
members in order and each content at its range; and whatever is accepted is, byte for byte,
what the producer writes for the members and contents that were reported. -/
theorem archive_inverse (env : PackEnv) (inputEnv : InputEnv) (hnls : inputEnv.nls = env.nls)
    (hblake3 : inputEnv.blake3 = env.blake3) :
    (∀ entries produced sink' receipt input, inputEnv.Quiet →
      produce env entries Sink.fresh = (.ok produced, sink') →
      receipt.contentSize = produced.contentSize →
      receipt.contentBlake3 = produced.contentBlake3 →
      input.position ≤ input.bytes.length → input.rest = sink'.content →
      ∃ archive, parseContentArchive inputEnv receipt input = .ok archive ∧
        archiveMembers archive.entries = (planned entries).map Prod.fst ∧
        archive.entries.map (fun entry => some (slice input.rest entry.dataOffset entry.size)) =
          (planned entries).map (contentOf entries)) ∧
    (∀ receipt input archive, parseContentArchive inputEnv receipt input = .ok archive →
      receipt.contentSize ≤ maxArtifactBytes →
      (∃ members, plan env.nls (entriesOf archive input.rest) = .ok (members, input.rest.length) ∧
        members.map Prod.fst = archiveMembers archive.entries) ∧
      (Smooth env → ∃ produced sink',
        produce env (entriesOf archive input.rest) Sink.fresh = (.ok produced, sink')) ∧
      ∀ produced sink', produce env (entriesOf archive input.rest) Sink.fresh =
        (.ok produced, sink') → sink'.content = input.rest) ∧
    ∀ receipt receipt' input input' archive archive',
      parseContentArchive inputEnv receipt input = .ok archive →
      parseContentArchive inputEnv receipt' input' = .ok archive' →
      receipt.contentSize ≤ maxArtifactBytes → receipt'.contentSize ≤ maxArtifactBytes →
      reported archive input.rest = reported archive' input'.rest → input.rest = input'.rest := by
  refine ⟨?_, ?_, ?_⟩
  · intro entries produced sink' receipt input hq hpr hsi hdig hpos hr
    exact produced_accepted hpr hq hnls hblake3 hsi hdig hpos hr
  · intro receipt input archive hacc hb
    obtain ⟨items, hit, hr, hrep⟩ := accepted_of_ok hacc hb
    rw [hnls] at hit
    have hp := hit.plan
    have hmb : archiveMembers archive.entries = items.map Prod.fst := by
      rw [← hrep, reported, map_map]
      rfl
    unfold entriesOf
    rw [hrep]
    refine ⟨⟨planned (packageEntries items), ?_, ?_⟩, fun hsm => ?_, fun produced sink' h => ?_⟩
    · rw [hr]
      exact plan_ok.mpr ⟨rfl, hp⟩
    · rw [hit.planned, hmb]
    · exact produce_returns hsm hp hit.contents
    · obtain ⟨size, items', hp', hco, hc, -⟩ := produce_ok h
      rw [hc, hr]
      -- the members and the contents of the two agree
      have hs : items' = items := by
        refine ext_getElem? fun index => ?_
        have hmbr := congrArg (·[index]?) (hco.members.trans hit.contents.members.symm)
        have hda := congrArg (·[index]?) (hco.contents.trans hit.contents.contents.symm)
        simp only [getElem?_map] at hmbr hda
        rcases hon : items'[index]? with _ | one <;> rcases ho : items[index]? with _ | other
        · rfl
        · rw [hon, ho] at hmbr
          cases hmbr
        · rw [hon, ho] at hmbr
          cases hmbr
        · rw [hon, ho] at hmbr hda
          exact congrArg some (Prod.ext (Option.some.inj hmbr)
            (Option.some.inj (Option.some.inj hda)))
      rw [hs]
  · intro receipt receipt' input input' archive archive' h h' hb hb' hs
    obtain ⟨items, -, hr, hrep⟩ := accepted_of_ok h hb
    obtain ⟨items', -, hr', hrep'⟩ := accepted_of_ok h' hb'
    rw [hr, hr', ← hrep, ← hrep', hs]

/-- A compressor that stores, and an input that reads it all. -/
def storingEnv : PackEnv where
  init := .ok ()
  write _ := .takes 1024
  finish content := .ok content
  blake3 _ := Chunk.zero 32
  nls _ := true

def plainInput : InputEnv where
  seek _ := .ok ()
  most _ := 1024
  fault _ := none
  blake3 _ := Chunk.zero 32
  nls _ := true

def helperItems : List Item :=
  [(parentMember, []), (policyMember, noMigrationPolicy),
    (⟨updaterHelperPath, .file, 3⟩, [1, 2, 3])]

theorem helper_contents {size : Nat} (hpl : Plan storingEnv.nls [helperEntry] size) :
    Contents [helperEntry] helperItems := by
  have hmb : helperItems.map Prod.fst = (planned [helperEntry]).map Prod.fst := by rfl
  have hle : ∀ item ∈ helperItems, item.2.length = item.1.size := by decide +kernel
  refine ⟨hmb, by rfl, fun item hi => ⟨?_, hle item hi⟩⟩
  obtain ⟨p, hp, hmbr⟩ := mem_map.mp (hmb ▸ mem_map_of_mem hi)
  exact hmbr ▸ plan_admissible hpl p hp

def helperIdentity : Update.ArtifactIdentity :=
  ⟨"app", .stable, "windows-x64", "1.0.0", 0⟩

theorem archive_inverse_helper : ∃ produced sink' archive,
    produce storingEnv [helperEntry] Sink.fresh = (.ok produced, sink') ∧
      parseContentArchive plainInput
        ⟨helperIdentity, produced.contentSize, produced.contentBlake3⟩ ⟨sink'.content, 0⟩ =
          .ok archive := by
  have hsm : Smooth storingEnv := ⟨rfl, fun _ => ⟨1023, rfl⟩, fun content => ⟨content, rfl⟩⟩
  obtain ⟨⟨members, size⟩, hpl⟩ :
      ∃ result, plan storingEnv.nls [helperEntry] = .ok result := ⟨_, rfl⟩
  have hp := (plan_ok.mp hpl).2
  obtain ⟨produced, sink', hr⟩ := produce_returns hsm hp (helper_contents hp)
  obtain ⟨archive, hacc, -⟩ := (archive_inverse storingEnv plainInput rfl rfl).1
    [helperEntry] produced sink' ⟨helperIdentity, produced.contentSize, produced.contentBlake3⟩
    ⟨sink'.content, 0⟩ ⟨fun _ => rfl, fun _ => rfl⟩ hr rfl rfl (Nat.zero_le _) drop_zero
  exact ⟨produced, sink', archive, hr, hacc⟩

end Keld.Archive
