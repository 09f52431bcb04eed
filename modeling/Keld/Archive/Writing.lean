/-
# `Keld.Archive.Writing` — what the producer writes

Whatever the compressor takes of each write and however a source cuts its bytes,
members that were written are there with the contents their sources delivered
(`writeMembers_ok`).  With a compressor that never fails and sources of the
declared lengths they are written (`writeMembers_returns`).
-/
import Keld.Archive.Plan

namespace Keld.Archive

open Pack List

/-! ## Writes -/

/-- A sink that took these bytes. -/
structure Put (sink sink' : Sink) (bytes : List Byte) : Prop where
  content : sink'.content = sink.content ++ bytes
  count : sink'.count = sink.count + bytes.length

theorem Put.refl (sink : Sink) : Put sink sink [] := ⟨(append_nil _).symm, rfl⟩

theorem Put.trans {sink mid sink' : Sink} {front back : List Byte} (h : Put sink mid front)
    (h' : Put mid sink' back) : Put sink sink' (front ++ back) := by
  refine ⟨?_, ?_⟩
  · rw [h'.content, h.content, append_assoc]
  · rw [h'.count, h.count, length_append, Nat.add_assoc]

/-- A compressor that never fails and takes something of every write. -/
structure Smooth (env : PackEnv) : Prop where
  init : env.init = .ok ()
  write : ∀ n, ∃ most, env.write n = .takes (most + 1)
  finish : ∀ content, ∃ compressed, env.finish content = .ok compressed

section Writes

variable {env : PackEnv} {sink sink' : Sink}

variable {bytes : List Byte} {turns : Nat}

theorem write_ok {written : Nat} (h : Sink.write env bytes sink = (.ok written, sink')) :
    Put sink sink' (bytes.take written) ∧ written ≤ bytes.length := by
  unfold Sink.write at h
  split_ifs at h with hb
  · cases h
  · cases hw : env.write sink.writes with
    | failed | overrun =>
      rw [hw] at h
      cases h
    | takes most =>
      rw [hw] at h
      cases h
      have hle : min bytes.length most ≤ bytes.length := Nat.min_le_left _ _
      refine ⟨⟨rfl, ?_⟩, hle⟩
      show sink.count + bytes.length - (bytes.length - min bytes.length most) = _
      rw [length_take]
      omega

theorem writeLoop_ok (htu : bytes.length ≤ turns)
    (h : Sink.writeLoop env turns bytes sink = (.ok (), sink')) : Put sink sink' bytes := by
  induction turns generalizing bytes sink with
  | zero =>
    obtain rfl : bytes = [] := length_eq_zero_iff.mp (by omega)
    cases h
    exact .refl _
  | succ turns ih =>
    cases bytes with
    | nil =>
      cases h
      exact .refl _
    | cons byte bytes =>
      obtain ⟨written, mid, hw, hr⟩ := Proc.bind_ok_iff.mp h
      obtain ⟨hput, hle⟩ := write_ok hw
      split_ifs at hr with hz
      · cases hr
      · have hd : ((byte :: bytes).drop written).length ≤ turns := by
          rw [length_drop]
          omega
        have ha := hput.trans (ih hd hr)
        rwa [take_append_drop] at ha

theorem writeLoop_smooth (hsm : Smooth env) (htu : bytes.length ≤ turns)
    (hro : sink.count + bytes.length ≤ maxArtifactBytes) :
    ∃ sink', Sink.writeLoop env turns bytes sink = (.ok (), sink') := by
  induction turns generalizing bytes sink with
  | zero =>
    obtain rfl : bytes = [] := length_eq_zero_iff.mp (by omega)
    exact ⟨sink, rfl⟩
  | succ turns ih =>
    cases bytes with
    | nil => exact ⟨sink, rfl⟩
    | cons byte bytes =>
      obtain ⟨most, hmo⟩ := hsm.write sink.writes
      obtain ⟨written, mid, hw, hpos⟩ : ∃ written mid,
          Sink.write env (byte :: bytes) sink = (.ok written, mid) ∧ written ≠ 0 := by
        unfold Sink.write
        rw [if_neg (Nat.not_lt.mpr hro), hmo]
        refine ⟨_, _, rfl, ?_⟩
        rw [length_cons]
        omega
      obtain ⟨hput, hle⟩ := write_ok hw
      have hd : ((byte :: bytes).drop written).length ≤ turns := by
        rw [length_drop]
        omega
      have hro' : mid.count + ((byte :: bytes).drop written).length ≤ maxArtifactBytes := by
        rw [hput.count, length_take, length_drop]
        omega
      obtain ⟨sink', hr⟩ := ih hd hro'
      refine ⟨sink', Proc.bind_ok_iff.mpr ⟨written, mid, hw, ?_⟩⟩
      rw [if_neg hpos]
      exact hr

theorem writeAll_ok {stage : String} (h : writeAll env stage bytes sink = (.ok (), sink')) :
    Put sink sink' bytes :=
  writeLoop_ok le_rfl (Proc.mapError_ok h)

theorem writeAll_smooth (hsm : Smooth env) (stage : String)
    (hro : sink.count + bytes.length ≤ maxArtifactBytes) :
    ∃ sink', writeAll env stage bytes sink = (.ok (), sink') ∧ Put sink sink' bytes := by
  obtain ⟨sink', hl⟩ := writeLoop_smooth hsm le_rfl hro
  have hr : writeAll env stage bytes sink = (.ok (), sink') := Proc.mapError_run_ok hl
  exact ⟨sink', hr, writeAll_ok hr⟩

end Writes

/-! ## Sources -/

/-- Everything a source delivers up to its end, if no read fails before it. -/
def sourceBytes : List SourceRead → Option (List Byte)
  | [] => some []
  | .interrupted :: rest => sourceBytes rest
  | .failed _ :: _ => none
  | .overrun :: _ => none
  | .bytes [] :: _ => some []
  | .bytes (byte :: data) :: rest => (sourceBytes rest).map (byte :: data ++ ·)

variable {data : List Byte} {input : List SourceRead}

theorem sourceBytes_bytes (h : data ≠ []) (rest : List SourceRead) :
    sourceBytes (.bytes data :: rest) = (sourceBytes rest).map (data ++ ·) := by
  cases data with
  | nil => exact absurd rfl h
  | cons byte data => rfl

theorem readSource_ok {rest : List SourceRead} {count : Nat} (hc : count ≠ 0)
    (h : readSource input count = .ok (data, rest)) :
    data = [] ∧ sourceBytes input = some [] ∨
      data ≠ [] ∧ data.length ≤ count ∧ sourceBytes input = (sourceBytes rest).map (data ++ ·) := by
  induction input with
  | nil =>
    cases h
    exact .inl ⟨rfl, rfl⟩
  | cons read input ih =>
    cases read with
    | interrupted => exact ih h
    | failed | overrun => cases h
    | bytes delivered =>
      by_cases hn : delivered = []
      · subst hn
        cases h
        exact .inl ⟨take_nil, rfl⟩
      · right
        have hr : delivered.take count = data ∧
            (if delivered.length ≤ count then input
              else .bytes (delivered.drop count) :: input) = rest :=
          Prod.mk.inj (Except.ok.inj h)
        obtain ⟨rfl, rfl⟩ := hr
        refine ⟨?_, ?_, ?_⟩
        · rw [Ne, take_eq_nil_iff, not_or]
          exact ⟨hc, hn⟩
        · exact length_take_le _ _
        · rw [sourceBytes_bytes hn]
          split_ifs with hf
          · rw [take_of_length_le hf]
          · have hd : delivered.drop count ≠ [] := by
              rw [Ne, drop_eq_nil_iff]
              exact hf
            rw [sourceBytes_bytes hd, Option.map_map]
            refine congrArg (Option.map · _) (funext fun tail => ?_)
            rw [Function.comp_apply, ← append_assoc, take_append_drop]

theorem readSource_of_sourceBytes {bytes : List Byte} (h : sourceBytes input = some bytes)
    (count : Nat) :
    ∃ data rest, readSource input count = .ok (data, rest) := by
  induction input with
  | nil => exact ⟨[], [], rfl⟩
  | cons read input ih =>
    cases read with
    | interrupted => exact ih h
    | failed | overrun => cases h
    | bytes delivered => exact ⟨_, _, rfl⟩

section Copying

variable {env : PackEnv} {sink sink' : Sink} {member : ArchiveMember}

/-- What a turn of the copy, or no turn, leaves: the bytes that came over. -/
structure Copied (member : ArchiveMember) (sink sink' : Sink) (observed observed' : Nat)
    (input rest : List SourceRead) (bytes : List Byte) : Prop where
  put : Put sink sink' bytes
  seen : observed' = observed + bytes.length
  enough : member.size ≤ observed'
  whole : observed ≤ member.size → observed' = member.size
  source : sourceBytes input = (sourceBytes rest).map (bytes ++ ·)

variable {observed turns : Nat} {input : List SourceRead} {bytes : List Byte}

theorem copied_none (h : member.size ≤ observed) :
    Copied member sink sink observed observed input input [] where
  put := .refl _
  seen := rfl
  enough := h
  whole := fun h' => Nat.le_antisymm h' h
  source := (Option.map_id' (x := sourceBytes input)).symm

theorem copyLoop_ok {observed' : Nat} {rest : List SourceRead}
    (htu : member.size - observed ≤ turns)
    (h : copyLoop env member turns observed input sink = (.ok (observed', rest), sink')) :
    ∃ bytes, Copied member sink sink' observed observed' input rest bytes := by
  induction turns generalizing observed input sink with
  | zero =>
    cases h
    exact ⟨[], copied_none (by omega)⟩
  | succ turns ih =>
    unfold copyLoop at h
    split_ifs at h with hle
    · obtain ⟨⟨data, input'⟩, mid, hre, hw⟩ := Proc.bind_ok_iff.mp h
      obtain ⟨hg, rfl⟩ := Proc.ofExcept_ok hre
      have hc : min (member.size - observed) bufferBytes ≠ 0 := by
        unfold bufferBytes
        omega
      dsimp only at hw
      split_ifs at hw with hn
      · cases hw
      · obtain ⟨⟨⟩, mid', hput, hr⟩ := Proc.bind_ok_iff.mp hw
        obtain ⟨hda, hl, hby⟩ := (readSource_ok hc (mapError_ok.mp hg)).resolve_left
            (fun hni => hn (List.isEmpty_iff.mpr hni.1))
        have hpos : 0 < data.length := length_pos_iff.mpr hda
        obtain ⟨bytes, hco⟩ := ih (by omega) hr
        have hsrc : sourceBytes input = (sourceBytes rest).map (data ++ bytes ++ ·) := by
          rw [hby, hco.source, Option.map_map]
          exact congrArg (Option.map · _) (funext fun tail => (append_assoc ..).symm)
        exact ⟨data ++ bytes,
          { put := (writeAll_ok hput).trans hco.put
            seen := by rw [hco.seen, length_append, Nat.add_assoc]
            enough := hco.enough
            whole := fun _ => hco.whole (by omega)
            source := hsrc }⟩
    · cases h
      exact ⟨[], copied_none (Nat.not_lt.mp hle)⟩

/-- A copy that returned took everything its source delivers, and that has the declared size. -/
theorem copyExact_ok (h : copyExact env member input sink = (.ok (), sink')) :
    ∃ bytes, sourceBytes input = some bytes ∧ bytes.length = member.size ∧ Put sink sink' bytes := by
  obtain ⟨⟨observed, rest⟩, mid, hl, he⟩ := Proc.bind_ok_iff.mp h
  obtain ⟨bytes, hco⟩ := copyLoop_ok (Nat.sub_le _ _) hl
  obtain ⟨⟨extra, last⟩, mid', hre, hd⟩ := Proc.bind_ok_iff.mp he
  obtain ⟨hg, rfl⟩ := Proc.ofExcept_ok hre
  dsimp only at hd
  split_ifs at hd with hn
  · cases hd
    have hr : sourceBytes rest = some [] := by
      rcases readSource_ok (by decide) (mapError_ok.mp hg) with ⟨-, hr⟩ | ⟨hs, -⟩
      · exact hr
      · exact absurd (List.isEmpty_iff.mp hn) hs
    refine ⟨bytes, ?_, ?_, hco.put⟩
    · rw [hco.source, hr, Option.map_some, append_nil]
    · have hse := hco.seen
      have hwh := hco.whole (Nat.zero_le _)
      omega
  · cases hd

/-- A source of the declared size is copied. -/
theorem copyLoop_returns (hsm : Smooth env) (htu : member.size - observed ≤ turns)
    (hsrc : sourceBytes input = some bytes) (hs : observed + bytes.length = member.size)
    (hro : sink.count + bytes.length ≤ maxArtifactBytes) :
    ∃ rest sink', copyLoop env member turns observed input sink =
      (.ok (member.size, rest), sink') ∧ sourceBytes rest = some [] := by
  induction turns generalizing observed input sink bytes with
  | zero =>
    obtain rfl : bytes = [] := length_eq_zero_iff.mp (by omega)
    obtain rfl : observed = member.size := hs
    exact ⟨input, sink, rfl, hsrc⟩
  | succ turns ih =>
    unfold copyLoop
    by_cases hle : observed < member.size
    · rw [if_pos hle]
      obtain ⟨data, rest, hr⟩ :=
        readSource_of_sourceBytes hsrc (min (member.size - observed) bufferBytes)
      have hc : min (member.size - observed) bufferBytes ≠ 0 := by
        unfold bufferBytes
        omega
      -- the source has bytes left, so the read delivers some of them
      obtain ⟨hda, hre⟩ : data ≠ [] ∧ ∃ tail, sourceBytes rest = some tail ∧
          bytes = data ++ tail := by
        rcases readSource_ok hc hr with ⟨-, hn⟩ | ⟨hda, -, hso⟩
        · rw [hsrc] at hn
          cases hn
          rw [length_nil] at hs
          omega
        · rw [hsrc] at hso
          obtain ⟨tail, hta, heq⟩ := Option.map_eq_some_iff.mp hso.symm
          exact ⟨hda, tail, hta, heq.symm⟩
      obtain ⟨tail, hta, rfl⟩ := hre
      rw [length_append] at hs hro
      have hpos : 0 < data.length := length_pos_iff.mpr hda
      obtain ⟨mid, hw, hput⟩ := writeAll_smooth hsm "archive data write"
        (show sink.count + data.length ≤ maxArtifactBytes by omega)
      have htu' : member.size - (observed + data.length) ≤ turns := by omega
      have hs' : observed + data.length + tail.length = member.size := by omega
      obtain ⟨last, sink', hl, hen⟩ := ih htu' hta hs'
        (show mid.count + tail.length ≤ maxArtifactBytes by rw [hput.count]; omega)
      refine ⟨last, sink', Proc.bind_ok_iff.mpr ⟨(data, rest), sink, ?_, ?_⟩, hen⟩
      · rw [hr]
        rfl
      · dsimp only
        rw [if_neg fun he => hda (List.isEmpty_iff.mp he)]
        exact Proc.bind_ok_iff.mpr ⟨(), mid, hw, hl⟩
    · rw [if_neg hle]
      obtain rfl : bytes = [] := length_eq_zero_iff.mp (by omega)
      obtain rfl : observed = member.size := hs
      exact ⟨input, sink, rfl, hsrc⟩

theorem copyExact_returns (hsm : Smooth env) (hsrc : sourceBytes input = some bytes)
    (hsi : bytes.length = member.size) (hro : sink.count + bytes.length ≤ maxArtifactBytes) :
    ∃ sink', copyExact env member input sink = (.ok (), sink') := by
  obtain ⟨rest, sink', hl, he⟩ := copyLoop_returns hsm (Nat.sub_le _ _) hsrc
    (by rw [hsi, Nat.zero_add]) hro
  obtain ⟨extra, last, hr⟩ := readSource_of_sourceBytes he 1
  have hn : extra = [] := by
    rcases readSource_ok (by decide) hr with ⟨hn, -⟩ | ⟨hs, -, hby⟩
    · exact hn
    · rw [he] at hby
      obtain ⟨tail, -, heq⟩ := Option.map_eq_some_iff.mp hby.symm
      exact absurd (append_eq_nil_iff.mp heq).1 hs
  refine ⟨sink', Proc.bind_ok_iff.mpr ⟨_, sink', hl, ?_⟩⟩
  refine Proc.bind_ok_iff.mpr ⟨(extra, last), sink', ?_, ?_⟩
  · rw [hr]
    rfl
  · rw [hn]
    rfl

end Copying

/-! ## Members -/

/-- Where a planned member comes from. -/
def Sourced (entries : List PackageEntry) (planned : PlannedMember) : Prop :=
  match planned.2 with
  | some index => ∃ entry, entries[index]? = some entry ∧ entry.member = planned.1
  | none => planned.1 = parentMember ∨ planned.1 = policyMember

/-- What the content of a planned member should be. -/
def contentOf (entries : List PackageEntry) (planned : PlannedMember) : Option (List Byte) :=
  match planned with
  | (member, none) => if member.kind = .file then some noMigrationPolicy else some []
  | (_, some index) =>
    match entries[index]? with
    | some (.file _ _ input) => sourceBytes input
    | some (.directory _) => some []
    | none => none

section Members

variable {env : PackEnv} {entries : List PackageEntry} {sink sink' : Sink}

theorem writeHeader_ok {member : ArchiveMember} (hsh : (utf8 member.name).length ≤ 100)
    (h : writeHeader env member sink = (.ok (), sink')) : Put sink sink' (headerBytes member) := by
  obtain ⟨bytes, hh, hby⟩ := header_eq hsh
  unfold writeHeader at h
  rw [hh] at h
  rw [← hby]
  exact writeAll_ok h

variable {source : Option Nat}

theorem contentOf_directory {member : ArchiveMember} (h : Sourced entries (member, source))
    (hk : member.kind = .directory) :
    contentOf entries (member, source) = some [] := by
  cases source with
  | none => exact if_neg (by rw [hk]; exact nofun)
  | some index =>
    obtain ⟨entry, he, rfl⟩ := h
    unfold contentOf
    dsimp only
    rw [he]
    cases entry with
    | directory name => rfl
    | file name size input => cases hk

theorem writeContent_ok {member : ArchiveMember} (hsr : Sourced entries (member, source))
    (hk : member.kind = .file)
    (h : writeContent env entries member source sink = (.ok (), sink')) :
    ∃ content, contentOf entries (member, source) = some content ∧
      content.length = member.size ∧ Put sink sink' content := by
  cases source with
  | none =>
    refine ⟨noMigrationPolicy, if_pos hk, ?_, writeAll_ok h⟩
    rcases hsr with hpar | hpol
    · rw [show member = parentMember from hpar] at hk
      cases hk
    · rw [show member = policyMember from hpol]
      rfl
  | some index =>
    obtain ⟨entry, he, hmbr⟩ := hsr
    unfold writeContent at h
    unfold contentOf
    dsimp only at h hmbr ⊢
    rw [he] at h ⊢
    cases entry with
    | directory name =>
      rw [← hmbr] at hk
      cases hk
    | file name size input => exact copyExact_ok h

/-- A member that was written is there as header, content and padding. -/
theorem writeMember_ok {planned : PlannedMember} (hsr : Sourced entries planned)
    (hsh : (utf8 planned.1.name).length ≤ 100)
    (hd : planned.1.kind = .directory → planned.1.size = 0)
    (h : writeMember env entries planned sink = (.ok (), sink')) :
    ∃ content, contentOf entries planned = some content ∧ content.length = planned.1.size ∧
      Put sink sink' (Item.image (planned.1, content)) := by
  obtain ⟨member, source⟩ := planned
  obtain ⟨⟨⟩, mid, hh, hb⟩ := Proc.bind_ok_iff.mp h
  have hput := writeHeader_ok hsh hh
  cases hk : member.kind with
  | directory =>
    rw [if_neg (by rw [hk]; exact nofun)] at hb
    cases hb
    have hs : member.size = 0 := hd hk
    refine ⟨[], contentOf_directory hsr hk, hs.symm, ?_⟩
    have hig : Item.image (member, []) = headerBytes member := by
      rw [Item.image, Item.body, hs]
      exact append_nil _
    rwa [hig]
  | file =>
    rw [if_pos hk] at hb
    obtain ⟨⟨⟩, mid', hc, hpad⟩ := Proc.bind_ok_iff.mp hb
    obtain ⟨content, hco, hl, hda⟩ := writeContent_ok hsr hk hc
    exact ⟨content, hco, hl, hput.trans (hda.trans (writeAll_ok hpad))⟩

/-- All members in a row. -/
theorem writeMembers_ok {plan : List PlannedMember} (hsr : ∀ p ∈ plan, Sourced entries p)
    (hsh : ∀ p ∈ plan, (utf8 p.1.name).length ≤ 100)
    (hd : ∀ p ∈ plan, p.1.kind = .directory → p.1.size = 0)
    (h : writeMembers env entries plan sink = (.ok (), sink')) :
    ∃ items : List Item, items.map Prod.fst = plan.map Prod.fst ∧
      items.map (some ·.2) = plan.map (contentOf entries) ∧
      (∀ item ∈ items, item.2.length = item.1.size) ∧ Put sink sink' (image items) := by
  induction plan generalizing sink with
  | nil =>
    cases h
    exact ⟨[], rfl, rfl, nofun, .refl _⟩
  | cons planned plan ih =>
    obtain ⟨⟨⟩, mid, hmbr, hr⟩ := Proc.bind_ok_iff.mp h
    obtain ⟨hsrc, hsr⟩ := forall_mem_cons.mp hsr
    obtain ⟨hf, hsh⟩ := forall_mem_cons.mp hsh
    obtain ⟨he, hd⟩ := forall_mem_cons.mp hd
    obtain ⟨content, hc, hl, hput⟩ := writeMember_ok hsrc hf he hmbr
    obtain ⟨items, hmb, hco, hle, hpu⟩ := ih hsr hsh hd hr
    refine ⟨(planned.1, content) :: items, ?_, ?_, ?_, hput.trans hpu⟩
    · rw [map_cons, map_cons, hmb]
    · rw [map_cons, map_cons, hco, hc]
    · exact forall_mem_cons.mpr ⟨hl, hle⟩

/-- Where a content is known, the member is written. -/
theorem writeMember_returns (hsm : Smooth env) {planned : PlannedMember} {content : List Byte}
    (hsr : Sourced entries planned) (had : Admissible planned.1)
    (hc : contentOf entries planned = some content)
    (hl : content.length = planned.1.size)
    (hro : sink.count + (Item.image (planned.1, content)).length ≤ maxArtifactBytes) :
    ∃ sink', writeMember env entries planned sink = (.ok (), sink') := by
  obtain ⟨member, source⟩ := planned
  obtain ⟨bytes, hh, hby⟩ := header_eq had.short
  replace hro : sink.count + ((headerBytes member).length +
      (content.length + (List.replicate (padding member.size) (0 : Byte)).length)) ≤
        maxArtifactBytes := by
    rwa [Item.image, Item.body, length_append, length_append] at hro
  obtain ⟨mid, hw, hput⟩ := writeAll_smooth hsm "archive header write"
    (show sink.count + (headerBytes member).length ≤ maxArtifactBytes by omega)
  have hwriteHeader : writeHeader env member sink = (.ok (), mid) := by
    unfold writeHeader
    rw [hh]
    show writeAll env _ bytes.bytes sink = _
    rw [hby]
    exact hw
  cases hk : member.kind with
  | directory =>
    refine ⟨mid, Proc.bind_ok_iff.mpr ⟨(), mid, hwriteHeader, ?_⟩⟩
    rw [if_neg (by rw [hk]; rintro ⟨⟩)]
    rfl
  | file =>
    obtain ⟨mid', hda⟩ : ∃ mid', writeContent env entries member source mid = (.ok (), mid') := by
      have hf : mid.count + content.length ≤ maxArtifactBytes := by
        rw [hput.count]
        omega
      cases source with
      | none =>
        have hpol : some noMigrationPolicy = some content := by
          rw [← hc]
          exact (if_pos hk).symm
        cases hpol
        obtain ⟨mid', hpol, -⟩ := writeAll_smooth hsm "policy write" hf
        exact ⟨mid', hpol⟩
      | some index =>
        obtain ⟨entry, he, hmbr⟩ := hsr
        unfold contentOf at hc
        unfold writeContent
        dsimp only at hc hmbr ⊢
        rw [he] at hc ⊢
        cases entry with
        | directory name =>
          rw [← hmbr] at hk
          cases hk
        | file name size input => exact copyExact_returns hsm hc hl hf
    obtain ⟨content', hco, -, hpu⟩ := writeContent_ok hsr hk hda
    rw [hc] at hco
    cases hco
    obtain ⟨sink', hpad, -⟩ := writeAll_smooth hsm "archive padding write"
      (show mid'.count + (List.replicate (padding member.size) (0 : Byte)).length ≤
        maxArtifactBytes by
          rw [hpu.count, hput.count]
          omega)
    refine ⟨sink', Proc.bind_ok_iff.mpr ⟨(), mid, hwriteHeader, ?_⟩⟩
    rw [if_pos hk]
    exact Proc.bind_ok_iff.mpr ⟨(), mid', hda, hpad⟩

theorem writeMembers_returns (hsm : Smooth env) {plan : List PlannedMember}
    {items : List Item} (hsr : ∀ p ∈ plan, Sourced entries p)
    (had : ∀ p ∈ plan, Admissible p.1)
    (hmb : items.map Prod.fst = plan.map Prod.fst)
    (hco : items.map (some ·.2) = plan.map (contentOf entries))
    (hle : ∀ item ∈ items, item.2.length = item.1.size)
    (hro : sink.count + (image items).length ≤ maxArtifactBytes) :
    ∃ sink', writeMembers env entries plan sink = (.ok (), sink') := by
  induction plan generalizing sink items with
  | nil => exact ⟨sink, rfl⟩
  | cons planned plan ih =>
    obtain ⟨⟨member, content⟩, items, rfl, hmbr, hta⟩ := map_eq_cons_iff.mp hmb
    obtain rfl : member = planned.1 := hmbr
    rw [map_cons, map_cons] at hco
    obtain ⟨hc, hco⟩ := List.cons.inj hco
    obtain ⟨hsrc, hsr⟩ := forall_mem_cons.mp hsr
    obtain ⟨hf, had⟩ := forall_mem_cons.mp had
    obtain ⟨hl, hle⟩ := forall_mem_cons.mp hle
    rw [image, flatMap_cons, length_append] at hro
    obtain ⟨mid, hmid⟩ := writeMember_returns hsm hsrc hf hc.symm hl
      (show sink.count + (Item.image (planned.1, content)).length ≤ maxArtifactBytes by omega)
    obtain ⟨content', hc', -, hput⟩ := writeMember_ok hsrc hf.short hf.directory hmid
    rw [← hc] at hc'
    cases hc'
    have hro' : mid.count + (image items).length ≤ maxArtifactBytes := by
      rw [hput.count, image, Nat.add_assoc]
      exact hro
    obtain ⟨sink', hr⟩ := ih hsr had hta hco hle hro'
    exact ⟨sink', Proc.bind_ok_iff.mpr ⟨(), mid, hmid, hr⟩⟩

end Members

end Keld.Archive
