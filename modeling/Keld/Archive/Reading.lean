/-
# `Keld.Archive.Reading` — what the parser's loop reads

The image of a tree is what its archive looks like: for each member its header,
its content and the padding, and two zero blocks at the end.  The parser's loop
returns on exactly the images of admissible trees: `parseLoop_reads` for the one
direction, `parseLoop_ok` for the other.  Neither depends on how the reads cut
the bytes.
-/
import Keld.Archive.Header

namespace Keld.Archive

open Pack List

/-! ## Images -/

/-- A member with its content. -/
abbrev Item := ArchiveMember × List Byte

structure Item.Sound (item : Item) : Prop where
  admissible : Admissible item.1
  content : item.2.length = item.1.size

def zeros (count : Nat) : List Byte := List.replicate count 0

/-- The content of a member and its padding. -/
def Item.body (item : Item) : List Byte := item.2 ++ zeros (padding item.1.size)

def Item.image (item : Item) : List Byte := headerBytes item.1 ++ item.body

def image (items : List Item) : List Byte := items.flatMap Item.image

/-- The whole archive of a tree. -/
def canonical (items : List Item) : List Byte := image items ++ (zeros blockBytes ++ zeros blockBytes)

/-- The entry of a member whose header starts at an offset. -/
def Item.entryAt (item : Item) (start : Nat) : ArchiveEntry :=
  ⟨item.1.name, item.1.kind, item.1.size, start + blockBytes⟩

def entriesAt : Nat → List Item → List ArchiveEntry
  | _, [] => []
  | start, item :: items => item.entryAt start :: entriesAt (start + item.image.length) items

def Item.isPolicy (item : Item) : Bool := item.1.name == updatePolicyPath

/-- The policy member is the exact required file. -/
def Item.policyValid (item : Item) : Bool :=
  item.1.kind == .file && item.1.size == noMigrationPolicy.length && item.2 == noMigrationPolicy

/-- What the loop has found behind one more member. -/
def Found.add (found : Found) (start : Nat) (item : Item) : Found :=
  if item.isPolicy then ⟨found.entries ++ [item.entryAt start], true, item.policyValid⟩
  else { found with entries := found.entries ++ [item.entryAt start] }

def Found.addAll (found : Found) : Nat → List Item → Found
  | _, [] => found
  | start, item :: items => (found.add start item).addAll (start + item.image.length) items

/-! ## One read -/

/-- A reader that took these bytes. -/
structure Took (reader reader' : HashingReader) (bytes : List Byte) : Prop where
  left : reader.left = bytes ++ reader'.left
  hashed : reader'.hashed = reader.hashed ++ bytes
  counted : reader'.bytesRead = reader.bytesRead + bytes.length

theorem Took.refl (reader : HashingReader) : Took reader reader [] :=
  ⟨rfl, (append_nil _).symm, rfl⟩

variable {front back bytes : List Byte} {α β : Type} {a : α} {x : ArchiveIo α} {f : α → ArchiveIo β}
  {start : Nat} {b : β}

theorem Took.trans {reader mid reader' : HashingReader} (h : Took reader mid front)
    (h' : Took mid reader' back) :
    Took reader reader' (front ++ back) := by
  refine ⟨?_, ?_, ?_⟩
  · rw [h.left, h'.left, append_assoc]
  · rw [h'.hashed, h.hashed, append_assoc]
  · rw [h'.counted, h.counted, length_append, Nat.add_assoc]

/-- The count of all bytes fits its 64 bits. -/
def HashingReader.Bounded (reader : HashingReader) : Prop :=
  reader.bytesRead + reader.left.length < u64Bound

theorem Took.bounded {reader reader' : HashingReader} (h : Took reader reader' bytes)
    (hbd : reader.Bounded) : reader'.Bounded := by
  unfold HashingReader.Bounded at *
  rw [h.left, length_append] at hbd
  rw [h.counted]
  omega

/-- Input that never fails. -/
structure InputEnv.Quiet (env : InputEnv) : Prop where
  seek : ∀ n, env.seek n = .ok ()
  fault : ∀ n, env.fault n = none

section Reads

variable {env : InputEnv} {reader reader' : HashingReader}

variable {count turns need : Nat} {bytes : List Byte}

theorem read_ok {out : List Byte} (h : HashingReader.read env count reader = (.ok out, reader')) :
    Took reader reader' out ∧ out.length ≤ count ∧ (count ≠ 0 → out = [] → reader.left = []) := by
  unfold HashingReader.read at h
  cases hfa : env.fault reader.reads with
  | some err =>
    rw [hfa] at h
    cases h
  | none =>
    rw [hfa] at h
    dsimp only at h
    split_ifs at h with hc
    · cases h
      refine ⟨⟨(take_append_drop _ _).symm, rfl, rfl⟩, ?_, ?_⟩
      · rw [length_take]
        omega
      · intro hc' ho
        rcases take_eq_nil_iff.mp ho with hz | hl
        · omega
        · exact hl
    · cases h

theorem read_quiet (hq : env.Quiet) (hbd : reader.Bounded) (count : Nat) :
    ∃ out reader', HashingReader.read env count reader = (.ok out, reader') := by
  unfold HashingReader.read
  rw [hq.fault]
  dsimp only
  rw [if_pos]
  · exact ⟨_, _, rfl⟩
  · unfold HashingReader.Bounded at hbd
    have hta := length_take (i := min count (env.most reader.reads + 1)) (l := reader.left)
    omega

theorem readExactLoop_ok {got : List Byte}
    (h : readExactLoop env turns got need reader = (.ok bytes, reader')) :
    ∃ more, bytes = got ++ more ∧ more.length = need ∧ Took reader reader' more := by
  induction turns generalizing got need reader with
  | zero =>
    cases need with
    | zero =>
      cases h
      exact ⟨[], (append_nil _).symm, rfl, .refl _⟩
    | succ need => cases h
  | succ turns ih =>
    cases need with
    | zero =>
      cases h
      exact ⟨[], (append_nil _).symm, rfl, .refl _⟩
    | succ need =>
      obtain ⟨out, mid, hre, hr⟩ := Proc.bind_ok_iff.mp h
      obtain ⟨ht, hl, -⟩ := read_ok (Proc.mapError_ok hre)
      split_ifs at hr with he
      · cases hr
      · obtain ⟨more, rfl, hmo, ht'⟩ := ih hr
        have hfit : out.length + (need + 1 - out.length) = need + 1 := Nat.add_sub_cancel' hl
        refine ⟨out ++ more, append_assoc _ _ _, ?_, ht.trans ht'⟩
        rw [length_append, hmo, hfit]

theorem readExactLoop_quiet (hq : env.Quiet) (got : List Byte) (hbd : reader.Bounded)
    (htu : need ≤ turns) (hneed : need ≤ reader.left.length) :
    ∃ bytes reader', readExactLoop env turns got need reader = (.ok bytes, reader') := by
  induction turns generalizing got need reader with
  | zero =>
    obtain rfl : need = 0 := by omega
    exact ⟨got, reader, rfl⟩
  | succ turns ih =>
    cases need with
    | zero => exact ⟨got, reader, rfl⟩
    | succ need =>
      obtain ⟨out, mid, hr⟩ := read_quiet hq hbd (need + 1)
      obtain ⟨ht, hle, he⟩ := read_ok hr
      have hne : out ≠ [] := by
        intro ho
        rw [he (by omega) ho, length_nil] at hneed
        omega
      have hpos := length_pos_iff.mpr hne
      have hl : need + 1 - out.length ≤ mid.left.length := by
        rw [ht.left, length_append] at hneed
        omega
      obtain ⟨bytes, reader', hre⟩ := ih (got ++ out) (ht.bounded hbd) (by omega) hl
      refine ⟨bytes, reader', Proc.bind_ok_iff.mpr ⟨out, mid, Proc.mapError_run_ok hr, ?_⟩⟩
      rw [if_neg (by simpa using hne)]
      exact hre

theorem readExactCanonical_ok {expected : Nat}
    (h : readExactCanonical env count expected reader = (.ok bytes, reader')) :
    Took reader reader' bytes ∧ bytes.length = count := by
  unfold readExactCanonical at h
  rcases hl : readExactLoop env count [] count reader with ⟨r, mid⟩
  rw [hl] at h
  rcases r with (_ | err) | found
  · cases h
  · cases h
  · cases h
    obtain ⟨more, rfl, hle, ht⟩ := readExactLoop_ok hl
    exact ⟨ht, hle⟩

theorem readExactCanonical_quiet (hq : env.Quiet) (expected : Nat) (hbd : reader.Bounded)
    {front rest : List Byte} (hl : reader.left = front ++ rest) (hc : front.length = count) :
    ∃ reader', readExactCanonical env count expected reader = (.ok front, reader') ∧
      Took reader reader' front := by
  have hne : count ≤ reader.left.length := by
    rw [hl, length_append]
    omega
  obtain ⟨bytes, reader', hlo⟩ := readExactLoop_quiet hq [] hbd (Nat.le_refl count) hne
  have hr : readExactCanonical env count expected reader = (.ok bytes, reader') := by
    unfold readExactCanonical
    rw [hlo]
  obtain ⟨ht, hle⟩ := readExactCanonical_ok hr
  have hby : bytes = front := by
    have hs := ht.left
    rw [hl] at hs
    exact (append_inj_left hs (hc.trans hle.symm)).symm
  rw [hby] at hr ht
  exact ⟨reader', hr, ht⟩

end Reads

/-! ## Computations that read given bytes -/

/-- On input that begins with these bytes the computation takes them and returns. -/
def Yields {α : Type} (x : ArchiveIo α) (start : Nat) (bytes : List Byte) (a : α) : Prop :=
  ∀ reader rest, reader.left = bytes ++ rest → reader.bytesRead = start → reader.Bounded →
    ∃ reader', x reader = (.ok a, reader') ∧ Took reader reader' bytes

theorem yields_pure (start : Nat) (a : α) : Yields (pure a) start [] a :=
  fun reader _ _ _ _ => ⟨reader, rfl, .refl reader⟩

theorem yields_ofExcept {r : Except UpdateError α} (start : Nat) (h : r = .ok a) :
    Yields (Proc.ofExcept r) start [] a := by
  intro reader _ _ _ _
  refine ⟨reader, ?_, .refl reader⟩
  rw [h, Proc.ofExcept_run]

theorem Yields.bind (hx : Yields x start front a) (hf : Yields (f a) (start + front.length) back b)
    : Yields (x >>= f) start (front ++ back) b := by
  intro reader rest hl hs hbd
  rw [append_assoc] at hl
  obtain ⟨mid, hmid, ht⟩ := hx reader _ hl hs hbd
  have hmidLeft : mid.left = back ++ rest := by
    have hsa := ht.left
    rw [hl] at hsa
    exact (append_cancel_left hsa).symm
  have hmidStart : mid.bytesRead = start + front.length := by rw [ht.counted, hs]
  obtain ⟨reader', hr, ht'⟩ := hf mid rest hmidLeft hmidStart (ht.bounded hbd)
  exact ⟨reader', Proc.bind_ok_iff.mpr ⟨a, mid, hmid, hr⟩, ht.trans ht'⟩

theorem Yields.bind_nil (hx : Yields x start [] a) (hf : Yields (f a) start bytes b) :
    Yields (x >>= f) start bytes b := hx.bind hf

theorem yields_state {f : HashingReader → ArchiveIo β}
    (h : ∀ reader : HashingReader, reader.bytesRead = start → Yields (f reader) start bytes b) :
    Yields (Proc.state >>= f) start bytes b :=
  fun reader rest hl hs hbd => h reader hs reader rest hl hs hbd

section Body

variable {env : InputEnv} {expected : Nat}

variable {start turns size : Nat} {bytes : List Byte} {found found' : Found} {item : Item}

variable (expected) in
theorem readExactCanonical_yields (hq : env.Quiet) {count : Nat} (h : bytes.length = count) :
    Yields (readExactCanonical env count expected) start bytes bytes :=
  fun _ _ hl _ hbd => readExactCanonical_quiet hq expected hbd hl h

/-! ## Skipping -/

variable {check : List Byte → Except UpdateError Unit} {p : Byte → Bool}

theorem skipLoop_ok (hch : ∀ bytes, check bytes = .ok () ↔ bytes.all p = true) {remaining : Nat}
    {reader reader' : HashingReader} (htu : remaining ≤ turns)
    (h : skipLoop env expected check turns remaining reader = (.ok (), reader')) :
    ∃ bytes, Took reader reader' bytes ∧ bytes.length = remaining ∧ bytes.all p = true := by
  induction turns generalizing remaining reader with
  | zero =>
    obtain rfl : remaining = 0 := by omega
    cases h
    exact ⟨[], .refl _, rfl, rfl⟩
  | succ turns ih =>
    cases remaining with
    | zero =>
      cases h
      exact ⟨[], .refl _, rfl, rfl⟩
    | succ remaining =>
      obtain ⟨part, mid, hre, hr⟩ := Proc.bind_ok_iff.mp h
      obtain ⟨u, mid', hpa, hsk⟩ := Proc.bind_ok_iff.mp hr
      obtain ⟨hp', rfl⟩ := Proc.ofExcept_ok hpa
      obtain ⟨ht, hl⟩ := readExactCanonical_ok hre
      have hp : min (remaining + 1) streamBufferBytes ≠ 0 := by
        unfold streamBufferBytes
        omega
      obtain ⟨bytes, ht', hby, ha⟩ := ih (by omega) hsk
      refine ⟨part ++ bytes, ht.trans ht', ?_, ?_⟩
      · rw [length_append, hl, hby]
        omega
      · rw [all_append, (hch part).mp hp', ha]
        rfl

variable (expected) in
theorem skipLoop_yields (hq : env.Quiet)
    (hch : ∀ bytes, check bytes = .ok () ↔ bytes.all p = true) (htu : bytes.length ≤ turns)
    (ha : bytes.all p = true) :
    Yields (skipLoop env expected check turns bytes.length) start bytes () := by
  induction turns generalizing bytes start with
  | zero =>
    obtain rfl : bytes = [] := length_eq_zero_iff.mp (by omega)
    exact yields_pure start ()
  | succ turns ih =>
    rcases hre : bytes.length with _ | remaining
    · obtain rfl : bytes = [] := length_eq_zero_iff.mp hre
      exact yields_pure start ()
    · have hs := take_append_drop (min (remaining + 1) streamBufferBytes) bytes
      have hp : (bytes.take (min (remaining + 1) streamBufferBytes)).length
          = min (remaining + 1) streamBufferBytes := by
        rw [length_take]
        omega
      have hpos : min (remaining + 1) streamBufferBytes ≠ 0 := by
        unfold streamBufferBytes
        omega
      have hr : (bytes.drop (min (remaining + 1) streamBufferBytes)).length
          = remaining + 1 - min (remaining + 1) streamBufferBytes := by
        rw [length_drop, hre]
      rw [← hs, all_append, Bool.and_eq_true] at ha
      rw [← hs]
      refine (readExactCanonical_yields expected hq hp).bind ?_
      refine (yields_ofExcept _ ((hch _).mpr ha.1)).bind_nil ?_
      rw [← hr]
      exact ih (by omega) ha.2

theorem dataCheck_iff (bytes : List Byte) :
    (fun _ => .ok () : List Byte → Except UpdateError Unit) bytes = .ok ()
      ↔ bytes.all (fun _ => true) = true := by
  simp

theorem paddingCheck_iff (bytes : List Byte) :
    require (allZero bytes) (UpdateError.archiveInvalid "entry data padding is nonzero") = .ok ()
      ↔ bytes.all (· == 0) = true := require_ok

theorem skipData_ok {reader reader' : HashingReader}
    (h : skipData env size expected reader = (.ok (), reader')) :
    ∃ bytes, Took reader reader' bytes ∧ bytes.length = size := by
  obtain ⟨bytes, ht, hl, -⟩ := skipLoop_ok dataCheck_iff (Nat.le_refl size) h
  exact ⟨bytes, ht, hl⟩

variable (expected) in
theorem skipData_yields (hq : env.Quiet) :
    Yields (skipData env bytes.length expected) start bytes () :=
  skipLoop_yields expected hq dataCheck_iff le_rfl (by simp)

theorem skipZeroPadding_ok {length : Nat} {reader reader' : HashingReader}
    (h : skipZeroPadding env length expected reader = (.ok (), reader')) :
    Took reader reader' (zeros length) := by
  obtain ⟨bytes, ht, hl, hz⟩ := skipLoop_ok paddingCheck_iff (Nat.le_refl length) h
  have hby : bytes = zeros length := by
    rw [allZero_iff.mp hz, hl, zeros]
  rwa [hby] at ht

variable (expected) in
theorem skipZeroPadding_yields (hq : env.Quiet) (length start : Nat) :
    Yields (skipZeroPadding env length expected) start (zeros length) () := by
  have hl : (zeros length).length = length := length_replicate
  have h : Yields (skipLoop env expected _ length (zeros length).length) start (zeros length) () :=
    skipLoop_yields expected hq paddingCheck_iff hl.le (allZero_iff.mpr (by rw [hl, zeros]))
  rwa [hl] at h

/-! ## Members -/

theorem readPolicy_ok (name : String) {kind : ArchiveEntryKind} {valid : Bool}
    {reader reader' : HashingReader}
    (h : readPolicy env kind size expected reader = (.ok valid, reader')) :
    ∃ bytes, Took reader reader' bytes ∧ bytes.length = size ∧
      valid = Item.policyValid (⟨name, kind, size⟩, bytes) := by
  unfold readPolicy at h
  split_ifs at h with ho
  · obtain ⟨u, mid, hsk, hd⟩ := Proc.bind_ok_iff.mp h
    cases hd
    obtain ⟨bytes, ht, hl⟩ := skipData_ok hsk
    refine ⟨bytes, ht, hl, ?_⟩
    unfold Item.policyValid
    rcases ho with hk | hs
    · rw [beq_eq_false_iff_ne.mpr hk]
      rfl
    · rw [beq_eq_false_iff_ne.mpr hs, Bool.and_false]
      rfl
  · rw [not_or, not_not, not_not] at ho
    obtain ⟨rfl, rfl⟩ := ho
    obtain ⟨bytes, mid, hr, hd⟩ := Proc.bind_ok_iff.mp h
    cases hd
    obtain ⟨ht, hl⟩ := readExactCanonical_ok hr
    refine ⟨bytes, ht, hl, ?_⟩
    unfold Item.policyValid
    rw [beq_self_eq_true, beq_self_eq_true, Bool.true_and, Bool.true_and]

theorem readPolicy_yields (hq : env.Quiet) (item : Item) (hc : item.2.length = item.1.size) :
    Yields (readPolicy env item.1.kind item.1.size expected) start item.2 item.policyValid := by
  obtain ⟨⟨name, kind, size⟩, bytes⟩ := item
  obtain rfl : bytes.length = size := hc
  intro reader rest hl hs hbd
  have hret : ∃ valid reader', readPolicy env kind bytes.length expected reader
      = (.ok valid, reader') ∧ Took reader reader' bytes := by
    unfold readPolicy
    split_ifs with ho
    · obtain ⟨reader', hsk, ht⟩ := skipData_yields expected hq reader rest hl hs hbd
      exact ⟨false, reader', Proc.bind_ok_iff.mpr ⟨(), reader', hsk, rfl⟩, ht⟩
    · rw [not_or, not_not, not_not] at ho
      obtain ⟨reader', hre, ht⟩ := readExactCanonical_yields expected hq ho.2 reader rest hl hs hbd
      exact ⟨_, reader', Proc.bind_ok_iff.mpr ⟨bytes, reader', hre, rfl⟩, ht⟩
  obtain ⟨valid, reader', hr, ht⟩ := hret
  obtain ⟨bytes', ht', hle, hv⟩ := readPolicy_ok name hr
  have hsa : bytes = bytes' := by
    have hl' := ht'.left
    rw [ht.left] at hl'
    exact append_inj_left hl' hle.symm
  subst hsa
  rw [hv] at hr
  exact ⟨reader', hr, ht⟩

/-- The three header passes in front of anything that uses their result. -/
theorem headerOf_bind {header : List Byte} {α : Type} {f : ArchiveMember → ArchiveIo α} :
    (do
      Proc.ofExcept (verifyHeaderChecksum header)
      Proc.ofExcept (verifyFixedFields header)
      let member ← Proc.ofExcept (parseHeader header)
      f member : ArchiveIo α) = Proc.ofExcept (headerOf header) >>= f := by
  funext reader
  unfold headerOf
  cases verifyHeaderChecksum header with
  | error err => rfl
  | ok u =>
    cases verifyFixedFields header with
    | error err => rfl
    | ok u =>
      cases parseHeader header <;> rfl

/-- What a member behind its header does to what was found. -/
theorem parseMember_eq (header : List Byte) (found : Found) :
    parseMember env expected header found = Proc.ofExcept (headerOf header) >>= fun member => do
      let reader ← Proc.state
      let entry : ArchiveEntry := ⟨member.name, member.kind, member.size, reader.bytesRead⟩
      if member.name == updatePolicyPath then do
        let valid ← readPolicy env member.kind member.size expected
        skipZeroPadding env (padding member.size) expected
        return ⟨found.entries ++ [entry], true, valid⟩
      else do
        skipData env member.size expected
        skipZeroPadding env (padding member.size) expected
        return { found with entries := found.entries ++ [entry] } :=
  headerOf_bind

theorem parseMember_ok {header : List Byte} {reader reader' : HashingReader}
    (hl : header.length = 512) (hs : reader.bytesRead = start + blockBytes)
    (h : parseMember env expected header found reader = (.ok found', reader')) :
    ∃ item : Item, item.Sound ∧ header = headerBytes item.1 ∧ Took reader reader' item.body ∧
      found' = found.add start item := by
  rw [parseMember_eq] at h
  obtain ⟨member, mid, hh, hmemberBody⟩ := Proc.bind_ok_iff.mp h
  obtain ⟨hmbr, rfl⟩ := Proc.ofExcept_ok hh
  obtain ⟨had, rfl⟩ := (headerOf_iff hl).mp hmbr
  obtain ⟨now, mid', hst, hb⟩ := Proc.bind_ok_iff.mp hmemberBody
  cases hst
  rw [hs] at hb
  unfold Found.add Item.isPolicy Item.entryAt
  split_ifs at hb with hpol
  · obtain ⟨valid, mid₁, hr, hb⟩ := Proc.bind_ok_iff.mp hb
    obtain ⟨u, mid₂, hsk, hd⟩ := Proc.bind_ok_iff.mp hb
    cases hd
    obtain ⟨bytes, ht, hc, hv⟩ := readPolicy_ok member.name hr
    refine ⟨(member, bytes), ⟨had, hc⟩, rfl, ht.trans (skipZeroPadding_ok hsk), ?_⟩
    rw [if_pos hpol, hv]
  · obtain ⟨u, mid₁, hr, hb⟩ := Proc.bind_ok_iff.mp hb
    obtain ⟨u', mid₂, hsk, hd⟩ := Proc.bind_ok_iff.mp hb
    cases hd
    obtain ⟨bytes, ht, hc⟩ := skipData_ok hr
    refine ⟨(member, bytes), ⟨had, hc⟩, rfl, ht.trans (skipZeroPadding_ok hsk), ?_⟩
    rw [if_neg hpol]

variable (expected) in
theorem parseMember_yields (hq : env.Quiet) (hs : item.Sound) (found : Found) (start : Nat) :
    Yields (parseMember env expected (headerBytes item.1) found) (start + blockBytes) item.body
      (found.add start item) := by
  have hl := length_headerBytes hs.admissible.short
  have hh := (headerOf_iff hl).mpr ⟨hs.admissible, rfl⟩
  rw [parseMember_eq]
  refine (yields_ofExcept _ hh).bind_nil (yields_state ?_)
  intro reader hrdr
  rw [hrdr]
  unfold Found.add Item.isPolicy Item.entryAt Item.body
  split_ifs with hpol
  · refine (readPolicy_yields hq item hs.content).bind ?_
    rw [← append_nil (zeros _)]
    exact (skipZeroPadding_yields expected hq _ _).bind (yields_pure _ _)
  · rw [← hs.content]
    refine (skipData_yields expected hq).bind ?_
    rw [← append_nil (zeros _)]
    exact (skipZeroPadding_yields expected hq _ _).bind (yields_pure _ _)

/-! ## The loop -/

theorem readTerminator_ok {reader reader' : HashingReader}
    (h : readTerminator env expected reader = (.ok (), reader')) :
    Took reader reader' (zeros blockBytes) ∧ reader'.left = [] := by
  obtain ⟨second, mid, hre, hr⟩ := Proc.bind_ok_iff.mp h
  obtain ⟨u, mid', hz, hbeh⟩ := Proc.bind_ok_iff.mp hr
  obtain ⟨hse, rfl⟩ := Proc.ofExcept_ok hz
  obtain ⟨trailing, mid₁, htr, hl⟩ := Proc.bind_ok_iff.mp hbeh
  obtain ⟨now, mid₂, hst, hl⟩ := Proc.bind_ok_iff.mp hl
  cases hst
  obtain ⟨ht, hlen⟩ := readExactCanonical_ok hre
  have hby : second = zeros blockBytes := by
    rw [allZero_iff.mp (require_ok.mp hse), hlen, zeros]
  obtain ⟨ht', -, hen⟩ := read_ok (Proc.mapError_ok htr)
  rw [hby] at ht
  split_ifs at hl with he hbe
  · cases hl
    obtain rfl : trailing = [] := List.isEmpty_iff.mp he
    have hle := ht'.left
    rw [hen one_ne_zero rfl] at hle
    refine ⟨?_, hle.symm⟩
    have h := ht.trans ht'
    rwa [append_nil] at h
  · cases hl
  · cases hl

variable (expected) in
theorem readTerminator_quiet (hq : env.Quiet) {reader : HashingReader} (hbd : reader.Bounded)
    (hl : reader.left = zeros blockBytes) :
    ∃ reader', readTerminator env expected reader = (.ok (), reader') := by
  have hl' : reader.left = zeros blockBytes ++ [] := by rw [hl, append_nil]
  obtain ⟨mid, hr, ht⟩ := readExactCanonical_quiet hq expected hbd hl'
    (length_replicate (n := blockBytes))
  have he : mid.left = [] := by
    have h := ht.left
    rw [hl'] at h
    exact (append_cancel_left h).symm
  obtain ⟨trailing, reader', htr⟩ := read_quiet hq (ht.bounded hbd) 1
  have hno : trailing = [] := by
    have h := (read_ok htr).1.left
    rw [he] at h
    exact (append_eq_nil_iff.mp h.symm).1
  refine ⟨reader', Proc.bind_ok_iff.mpr ⟨_, mid, hr, ?_⟩⟩
  have hz : require (allZero (zeros blockBytes))
      (UpdateError.archiveInvalid "archive must end with two zero blocks") = .ok () :=
    require_ok.mpr (by decide +kernel)
  refine Proc.bind_ok_iff.mpr ⟨(), mid, by rw [hz, Proc.ofExcept_run], ?_⟩
  refine Proc.bind_ok_iff.mpr ⟨trailing, reader', Proc.mapError_run_ok htr, ?_⟩
  refine Proc.bind_ok_iff.mpr ⟨reader', reader', rfl, ?_⟩
  rw [hno]
  rfl

theorem canonical_cons (item : Item) (items : List Item) :
    canonical (item :: items) = headerBytes item.1 ++ (item.body ++ canonical items) := by
  rw [canonical, image, flatMap_cons, Item.image, canonical, image]
  simp only [append_assoc]

theorem length_image (hs : item.Sound) : item.image.length = blockBytes + item.body.length := by
  rw [Item.image, length_append, length_headerBytes hs.admissible.short]

/-- The loop returns only on the archive of an admissible tree, with nothing behind it. -/
theorem parseLoop_ok {reader reader' : HashingReader}
    (h : parseLoop env expected turns found reader = (.ok found', reader')) :
    ∃ items : List Item, (∀ item ∈ items, item.Sound) ∧ Took reader reader' (canonical items) ∧
      reader'.left = [] ∧ found' = found.addAll reader.bytesRead items := by
  induction turns generalizing found reader with
  | zero => cases h
  | succ turns ih =>
    obtain ⟨header, mid, hre, hr⟩ := Proc.bind_ok_iff.mp h
    obtain ⟨ht, hl⟩ := readExactCanonical_ok hre
    split_ifs at hr with hz
    · obtain ⟨u, mid', hte, hd⟩ := Proc.bind_ok_iff.mp hr
      cases hd
      obtain ⟨ht', he⟩ := readTerminator_ok hte
      have hby : header = zeros blockBytes := by
        rw [allZero_iff.mp hz, hl, zeros]
      rw [hby] at ht
      exact ⟨[], nofun, ht.trans ht', he, rfl⟩
    · obtain ⟨found₁, mid', hmbr, hlo⟩ := Proc.bind_ok_iff.mp hr
      have hs : mid.bytesRead = reader.bytesRead + blockBytes := by rw [ht.counted, hl]
      obtain ⟨item, hso, rfl, ht', rfl⟩ := parseMember_ok hl hs hmbr
      obtain ⟨items, hit, ht₁, he, rfl⟩ := ih hlo
      have hn : mid'.bytesRead = reader.bytesRead + item.image.length := by
        rw [ht'.counted, hs, length_image hso, Nat.add_assoc]
      refine ⟨item :: items, ?_, ?_, he, ?_⟩
      · exact forall_mem_cons.mpr ⟨hso, hit⟩
      · have ha := (ht.trans ht').trans ht₁
        rwa [append_assoc, ← canonical_cons] at ha
      · rw [hn]
        rfl

/-- The loop returns on the archive of every admissible tree. -/
theorem parseLoop_quiet (hq : env.Quiet) {items : List Item}
    (hit : ∀ item ∈ items, item.Sound) (htu : items.length < turns) (found : Found)
    {reader : HashingReader} (hbd : reader.Bounded) (hl : reader.left = canonical items) :
    ∃ found' reader', parseLoop env expected turns found reader = (.ok found', reader') := by
  induction items generalizing turns found reader with
  | nil =>
    obtain ⟨turns, rfl⟩ : ∃ n, turns = n + 1 := ⟨turns - 1, by omega⟩
    rw [show canonical [] = zeros blockBytes ++ zeros blockBytes from rfl] at hl
    obtain ⟨mid, hr, ht⟩ := readExactCanonical_quiet hq expected hbd hl
      (length_replicate (n := blockBytes))
    have hmid : mid.left = zeros blockBytes := by
      have h := ht.left
      rw [hl] at h
      exact (append_cancel_left h).symm
    obtain ⟨reader', hte⟩ := readTerminator_quiet expected hq (ht.bounded hbd) hmid
    refine ⟨found, reader', Proc.bind_ok_iff.mpr ⟨_, mid, hr, ?_⟩⟩
    rw [if_pos (show allZero (zeros blockBytes) = true by decide +kernel)]
    exact Proc.bind_ok_iff.mpr ⟨(), reader', hte, rfl⟩
  | cons item items ih =>
    obtain ⟨turns, rfl⟩ : ∃ n, turns = n + 1 := ⟨turns - 1, by omega⟩
    obtain ⟨hs, hit⟩ := forall_mem_cons.mp hit
    rw [canonical_cons] at hl
    obtain ⟨mid, hr, ht⟩ := readExactCanonical_quiet hq expected hbd hl
      (length_headerBytes hs.admissible.short)
    have hmid : mid.left = item.body ++ canonical items := by
      have h := ht.left
      rw [hl] at h
      exact (append_cancel_left h).symm
    have hst : mid.bytesRead = reader.bytesRead + blockBytes := by
      rw [ht.counted, length_headerBytes hs.admissible.short]
    obtain ⟨mid', hmbr, ht'⟩ := parseMember_yields expected hq hs found
      reader.bytesRead mid _ hmid hst (ht.bounded hbd)
    have hmid' : mid'.left = canonical items := by
      have h := ht'.left
      rw [hmid] at h
      exact (append_cancel_left h).symm
    obtain ⟨found', reader', hlo⟩ := ih hit (by simpa using htu) _
      (ht'.bounded (ht.bounded hbd)) hmid'
    refine ⟨found', reader', Proc.bind_ok_iff.mpr ⟨_, mid, hr, ?_⟩⟩
    rw [headerBytes_not_zero, if_neg (by decide)]
    exact Proc.bind_ok_iff.mpr ⟨_, mid', hmbr, hlo⟩

end Body

end Keld.Archive
