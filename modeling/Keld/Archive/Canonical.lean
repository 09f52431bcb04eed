/-
# `Keld.Archive.Canonical` — accepted archives

What the preflight accepts is the canonical archive of the members it reports
(`parseContentArchive_ok`).  Canonical archives are read block by block from the
front, a header says how long its member is, and two zero blocks, which no header
can be, end them; so no canonical archive is the front of another one
(`canonical_front`).
-/
import Keld.Archive.Plan

namespace Keld.Archive

open Pack List

/-- The bytes the preflight looks at. -/
def Input.rest (input : Input) : List Byte := input.bytes.drop input.position

theorem addAll_entries (items : List Item) :
    ∀ (found : Found) (start : Nat),
      (found.addAll start items).entries = found.entries ++ entriesAt start items := by
  induction items with
  | nil => exact fun found start => (append_nil _).symm
  | cons item items ih =>
    intro found start
    have hadd : (found.add start item).entries = found.entries ++ [item.entryAt start] := by
      unfold Found.add
      split <;> rfl
    show ((found.add start item).addAll _ items).entries = _
    rw [ih, hadd, append_assoc]
    rfl

variable {env : InputEnv} {receipt : ContentIdentity} {input : Input} {archive : ValidatedArchive}
  {left right : List Byte}

/-- What is accepted is the canonical archive of a sound tree. -/
theorem parseContentArchive_ok (h : parseContentArchive env receipt input = .ok archive) :
    ∃ items : List Item, (∀ item ∈ items, item.Sound) ∧ input.rest = canonical items ∧
      input.rest.length = receipt.contentSize ∧ archive.entries = entriesAt 0 items ∧
      ∃ reader : HashingReader, reader.hashed = input.rest ∧
        admitFound env receipt ((⟨[], false, false⟩ : Found).addAll 0 items) reader =
          .ok archive := by
  obtain ⟨-, h⟩ := bind_unit_ok.mp h
  obtain ⟨-, h⟩ := bind_unit_ok.mp h
  obtain ⟨-, h⟩ := bind_unit_ok.mp h
  obtain ⟨hle, h⟩ := bind_unit_ok.mp h
  obtain ⟨-, h⟩ := bind_unit_ok.mp h
  obtain ⟨reader, hrdr, h⟩ := bind_ok.mp h
  rw [require_ok, beq_iff_eq] at hle
  have hre : input.rest.length = receipt.contentSize := by
    rw [Input.rest, length_drop]
    exact hle
  obtain ⟨hs, hr⟩ : reader.left = input.rest ∧ reader.hashed = [] ∧ reader.bytesRead = 0 := by
    unfold HashingReader.new at hrdr
    split_ifs at hrdr
    cases hrdr
    refine ⟨take_of_length_le ?_, rfl, rfl⟩
    show input.rest.length ≤ _
    omega
  rcases hru : parseFrom env receipt reader with ⟨result, last⟩
  rw [hru] at h
  rw [show result = .ok archive from h] at hru
  obtain ⟨found, mid, hl, had⟩ := Proc.bind_ok_iff.mp hru
  obtain ⟨now, mid', hst, had⟩ := Proc.bind_ok_iff.mp had
  cases hst
  obtain ⟨hf, -⟩ := Proc.ofExcept_ok had
  obtain ⟨items, hso, ht, he, rfl⟩ := parseLoop_ok hl
  rw [hr.2] at hf
  have hcan : input.rest = canonical items := by
    have hleft := ht.left
    rwa [he, append_nil, hs] at hleft
  have hha : mid.hashed = input.rest := by
    rw [ht.hashed, hr.1, nil_append, hcan]
  refine ⟨items, hso, hcan, hre, ?_, mid, hha, hf⟩
  have hen : archive.entries = ((⟨[], false, false⟩ : Found).addAll 0 items).entries := by
    obtain ⟨-, hf⟩ := bind_unit_ok.mp hf
    obtain ⟨-, hf⟩ := bind_unit_ok.mp hf
    obtain ⟨-, hf⟩ := bind_unit_ok.mp hf
    obtain ⟨-, hf⟩ := bind_unit_ok.mp hf
    obtain ⟨-, hf⟩ := bind_unit_ok.mp hf
    obtain ⟨-, hf⟩ := bind_unit_ok.mp hf
    cases hf
    rfl
  rw [hen, addAll_entries, nil_append]

/-! ## No canonical archive is the front of another -/

theorem headerBytes_inj {left right : ArchiveMember} (hl : Admissible left)
    (hr : Admissible right) (h : headerBytes left = headerBytes right) : left = right := by
  have hle := length_headerBytes hl.short
  have hon := (headerOf_iff hle).mpr ⟨hl, rfl⟩
  have ho := (headerOf_iff hle).mpr ⟨hr, h⟩
  rw [hon] at ho
  exact Except.ok.inj ho

theorem headerBytes_ne_zeros (member : ArchiveMember) : headerBytes member ≠ zeros blockBytes := by
  intro h
  have hnot := headerBytes_not_zero member
  rw [h] at hnot
  exact absurd hnot (by decide +kernel)

theorem front_eq {left' right' : List Byte} (hl : left.length = right.length)
    (h : left ++ left' <+: right ++ right') : left = right ∧ left' <+: right' := by
  obtain ⟨tail, hta⟩ := h
  rw [append_assoc] at hta
  obtain ⟨hfr, hba⟩ := append_inj hta hl
  exact ⟨hfr, tail, hba⟩

theorem length_body {item : Item} (hs : item.Sound) :
    item.body.length = item.1.size + padding item.1.size := by
  rw [Item.body, length_append, hs.content, zeros, length_replicate]

theorem body_inj {member : ArchiveMember} (hl : Item.Sound (member, left))
    (hr : Item.Sound (member, right)) (h : Item.body (member, left) = Item.body (member, right))
    : left = right :=
  (append_inj h (hl.content.trans hr.content.symm)).1

theorem canonical_nil : canonical [] = zeros blockBytes ++ zeros blockBytes := rfl

theorem length_zeros (count : Nat) : (zeros count).length = count := length_replicate

theorem canonical_front {items items' : List Item} (hs : ∀ item ∈ items, item.Sound)
    (hs' : ∀ item ∈ items', item.Sound) (h : canonical items <+: canonical items') :
    items = items' := by
  induction items generalizing items' with
  | nil =>
    cases items' with
    | nil => rfl
    | cons item' items' =>
      obtain ⟨had, -⟩ := hs' item' (mem_cons_self ..)
      rw [canonical_nil, canonical_cons] at h
      have hz := (front_eq (by rw [length_zeros, length_headerBytes had.short]) h).1
      exact absurd hz.symm (headerBytes_ne_zeros item'.1)
  | cons item items ih =>
    obtain ⟨hi, hit⟩ := forall_mem_cons.mp hs
    rw [canonical_cons] at h
    cases items' with
    | nil =>
      rw [canonical_nil] at h
      have hz := (front_eq (by rw [length_zeros, length_headerBytes hi.admissible.short]) h).1
      exact absurd hz (headerBytes_ne_zeros item.1)
    | cons item' items' =>
      obtain ⟨hi', hit'⟩ := forall_mem_cons.mp hs'
      rw [canonical_cons] at h
      obtain ⟨hh, hr⟩ := front_eq (by rw [length_headerBytes hi.admissible.short,
        length_headerBytes hi'.admissible.short]) h
      have hmbr := headerBytes_inj hi.admissible hi'.admissible hh
      obtain ⟨hb, hta⟩ := front_eq (by rw [length_body hi, length_body hi', hmbr]) hr
      obtain ⟨member, content⟩ := item
      obtain ⟨member', content'⟩ := item'
      obtain rfl : member = member' := hmbr
      obtain rfl := body_inj hi hi' hb
      rw [ih hit hit' hta]

theorem accepted_front {env' : InputEnv} {receipt' : ContentIdentity} {input' : Input}
    {archive' : ValidatedArchive} (h : parseContentArchive env receipt input = .ok archive)
    (h' : parseContentArchive env' receipt' input' = .ok archive')
    (hfr : input.rest <+: input'.rest) : input.rest = input'.rest := by
  obtain ⟨items, hs, hr, -⟩ := parseContentArchive_ok h
  obtain ⟨items', hs', hr', -⟩ := parseContentArchive_ok h'
  rw [hr, hr'] at hfr ⊢
  rw [canonical_front hs hs' hfr]

end Keld.Archive
