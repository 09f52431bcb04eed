/-
# `Keld.Attempt.Codec` — a record is its bytes

`AttemptRecord.wire` is the magic and the fields in a row.  The writer puts
exactly these bytes into its buffer, the parser reads every record back from
them, and every body of the right length is the fields of some record, unless
its one byte lies outside a closed set (`body_cases`).  So decoding at a
position and encoding undo each other (`record_codec`), and the stream reader
is the slice decoder on the bytes it takes.
-/
import Keld.Attempt.Records

namespace Keld.Attempt

open List AttemptRecord

open Ipc (SessionToken Link Delivery ReadHalt readExactIo readExactIo_cases readExactIo_onlyRead
  arriving Steady)

/-! ## The bytes of a record -/

namespace AttemptRecord

def wire (record : AttemptRecord) : List Byte := record.kind.magic ++ record.fields.flatten

theorem length_pidBytes (pid : UInt32) : (pidBytes pid).length = pidLen := length_leBytes _ _

theorem length_transcript_fields (transcript : AttemptTranscript) :
    transcript.fields.flatten.length = 5 * idLen + 2 * pidLen := by
  simp [AttemptTranscript.fields, transcript.installationId.len, transcript.attemptId.len,
    transcript.healthChannelId.len, transcript.clientNonce.len, transcript.serverNonce.len,
    length_pidBytes, Ipc.sessionTokenLen, idLen, pidLen]

theorem length_fields (record : AttemptRecord) :
    magicLen + record.fields.flatten.length = record.kind.recordLen := by
  cases record with
  | claim c =>
    simp [fields, kind, AttemptRecordKind.recordLen, c.installationId.len, c.clientNonce.len,
      length_pidBytes, Ipc.sessionTokenLen, idLen, pidLen, magicLen]
  | challenge c =>
    simp [fields, kind, AttemptRecordKind.recordLen, c.attemptId.len, c.healthChannelId.len,
      c.serverNonce.len, length_pidBytes, Ipc.sessionTokenLen, idLen, pidLen, magicLen]
  | acknowledgement | receipt =>
    rw [fields, length_transcript_fields]
    rfl
  | bootAcknowledgement boot =>
    simp [fields, kind, AttemptRecordKind.recordLen, boot.attemptId.len,
      boot.healthChannelId.len, boot.healthReceiptDigest.len, idLen, magicLen]
  | ready | failure | healthResult => rfl

theorem length_wire (record : AttemptRecord) : record.wire.length = record.kind.recordLen := by
  rw [wire, length_append, record.kind.length_magic, record.length_fields]

theorem wire_take_magic (record : AttemptRecord) : record.wire.take magicLen = record.kind.magic :=
  take_left' record.kind.length_magic

theorem kind_eq_of_wire {record other : AttemptRecord} (h : record.wire = other.wire) :
    record.kind = other.kind := by
  apply AttemptRecordKind.magic_injective
  rw [← record.wire_take_magic, h, other.wire_take_magic]

/-- The writer stays inside its buffer and leaves the record at its front. -/
theorem encode_eq (record : AttemptRecord) :
    ∃ fits : record.wire.length ≤ maxRecordLen,
      record.encode = some ((RecordWriter.holding record.wire fits).bytes, record.kind.recordLen) := by
  have hf : record.wire.length ≤ maxRecordLen := by
    rw [record.length_wire]
    exact record.kind.recordLen_le
  have hfl : (record.kind.magic :: record.fields).flatten = record.wire := rfl
  have hpu : (RecordWriter.fresh maxRecordLen).putAll (record.kind.magic :: record.fields)
      = some (RecordWriter.holding record.wire hf) := RecordWriter.putAll_eq (by rwa [hfl])
  rw [RecordWriter.putAll, foldlM_cons] at hpu
  refine ⟨hf, ?_⟩
  unfold encode
  cases hfi : (RecordWriter.fresh maxRecordLen).put record.kind.magic with
  | none =>
    rw [hfi] at hpu
    cases hpu
  | some out =>
    rw [hfi] at hpu
    have hr : out.putAll record.fields = some (RecordWriter.holding record.wire hf) := hpu
    simp only [Option.bind_eq_bind, Option.bind_some, hr, Option.pure_def]
    rw [← record.length_wire]
    rfl

@[simp] theorem encoded_eq (record : AttemptRecord) : record.encoded = some record.wire := by
  obtain ⟨hf, h⟩ := record.encode_eq
  unfold encoded
  rw [h, ← record.length_wire]
  exact congrArg some (RecordWriter.holding_bytes_take hf)

end AttemptRecord

/-! ## Reading the fields back -/

/-- What a whole record of an admitted kind amounts to at a position. -/
def AttemptReadPosition.verdict (position : AttemptReadPosition) :
    AttemptRecord → Except AttemptRecordError AttemptRecord
  | .failure cls =>
    if position.admitsFailure cls then .ok (.failure cls)
    else .error (.failureClassNotAdmitted position cls)
  | record => .ok record

theorem AttemptReadPosition.verdict_ok {position : AttemptReadPosition}
    {record found : AttemptRecord} (h : position.verdict record = .ok found) : found = record := by
  cases record with
  | failure cls =>
    simp only [verdict] at h
    split_ifs at h with ha
    cases h
    rfl
  | claim | challenge | acknowledgement | receipt | bootAcknowledgement | ready | healthResult => cases h; rfl

section Fields

open FieldReader

/-- The bytes of a process ID as a field. -/
def pidChunk (pid : UInt32) : Chunk pidLen := ⟨pidBytes pid, length_pidBytes pid⟩

def tokenChunk (token : SessionToken) : Chunk idLen := ⟨token.bytes, token.len⟩

theorem u32Le_pidChunk (pid : UInt32) : u32Le (pidChunk pid).bytes = pid := u32Le_leBytes pid

theorem parseTranscript_takes (transcript : AttemptTranscript) :
    Takes parseTranscript transcript.fields.flatten transcript := by
  obtain ⟨installationId, attemptId, healthChannelId, clientNonce, serverNonce, clientPid,
    serverPid⟩ := transcript
  refine (takes_take installationId).bind ((takes_take attemptId).bind
    ((takes_take healthChannelId).bind ((takes_take (tokenChunk clientNonce)).bind
      ((takes_take (tokenChunk serverNonce)).bind ((takes_take (pidChunk clientPid)).bind
        ((takes_take (pidChunk serverPid)).bind ?_))))))
  rw [u32Le_pidChunk, u32Le_pidChunk]
  exact takes_pure _

theorem takeByte_takes (value : Byte) : Takes takeByte [value] value :=
  (takes_take (⟨[value], rfl⟩ : Chunk 1)).bind (takes_pure value)

/-- The fields of a record are read back as that record. -/
theorem parseFields_takes (position : AttemptReadPosition) (record : AttemptRecord) :
    Takes (parseFields position record.kind) record.fields.flatten (position.verdict record) := by
  cases record with
  | claim c =>
    obtain ⟨installationId, clientNonce, clientPid⟩ := c
    refine (takes_take installationId).bind ((takes_take (tokenChunk clientNonce)).bind
      ((takes_take (pidChunk clientPid)).bind ?_))
    rw [u32Le_pidChunk]
    exact takes_pure _
  | challenge c =>
    obtain ⟨attemptId, healthChannelId, serverNonce, serverPid⟩ := c
    refine (takes_take attemptId).bind ((takes_take healthChannelId).bind
      ((takes_take (tokenChunk serverNonce)).bind ((takes_take (pidChunk serverPid)).bind ?_)))
    rw [u32Le_pidChunk]
    exact takes_pure _
  | acknowledgement transcript | receipt transcript =>
    show Takes _ transcript.fields.flatten _
    rw [← append_nil transcript.fields.flatten]
    exact (parseTranscript_takes transcript).bind (takes_pure _)
  | bootAcknowledgement boot =>
    obtain ⟨attemptId, healthChannelId, healthReceiptDigest⟩ := boot
    exact (takes_take attemptId).bind ((takes_take healthChannelId).bind
      ((takes_take healthReceiptDigest).bind (takes_pure _)))
  | ready => exact takes_pure _
  | failure cls =>
    refine (takeByte_takes cls.toByte).bind ?_
    rw [AttemptFailureClass.fromByte_toByte]
    simp only [AttemptReadPosition.verdict]
    split_ifs with ha <;> exact takes_pure _
  | healthResult result =>
    refine (takeByte_takes result.toByte).bind ?_
    rw [AttemptHealthResult.fromByte_toByte]
    exact takes_pure _

/-- A byte outside the closed set its kind has. -/
def OutOfSet (kind : AttemptRecordKind) (value : Byte) : Prop :=
  kind = .failure ∧ AttemptFailureClass.fromByte value = none ∨
    kind = .healthResult ∧ AttemptHealthResult.fromByte value = none

theorem parseFields_outOfSet (position : AttemptReadPosition) {kind : AttemptRecordKind}
    {value : Byte} (h : OutOfSet kind value) :
    Takes (parseFields position kind) [value] (.error (.valueOutOfSet kind value)) := by
  rcases h with ⟨rfl, h⟩ | ⟨rfl, h⟩
  · refine (takeByte_takes value).bind ?_
    rw [h]
    exact takes_pure _
  · refine (takeByte_takes value).bind ?_
    rw [h]
    exact takes_pure _

theorem pidBytes_u32Le (field : Chunk pidLen) : pidBytes (u32Le field.bytes) = field.bytes :=
  leBytes_u32Le field.len

variable {body : List Byte}

theorem exists_transcript (h : body.length = 5 * idLen + 2 * pidLen) :
    ∃ transcript : AttemptTranscript, transcript.fields.flatten = body := by
  have hsum : body.length = idLen + (idLen + (idLen + (idLen + (idLen + (pidLen + pidLen))))) := h
  obtain ⟨installationId, _, rfl, h₁⟩ := exists_field hsum
  obtain ⟨attemptId, _, rfl, h₂⟩ := exists_field h₁
  obtain ⟨healthChannelId, _, rfl, h₃⟩ := exists_field h₂
  obtain ⟨clientNonce, _, rfl, h₄⟩ := exists_field h₃
  obtain ⟨serverNonce, _, rfl, h₅⟩ := exists_field h₄
  obtain ⟨clientPid, serverPid, rfl, h₆⟩ := exists_field h₅
  refine ⟨⟨installationId, attemptId, healthChannelId, tokenFromBytes clientNonce,
    tokenFromBytes serverNonce, u32Le clientPid.bytes, u32Le serverPid⟩, ?_⟩
  simp only [AttemptTranscript.fields, flatten_cons, flatten_nil, append_nil,
    tokenFromBytes, pidBytes_u32Le, pidBytes_u32Le ⟨serverPid, h₆⟩]

theorem body_singleton (h : magicLen + body.length = magicLen + 1) : ∃ value, body = [value] := by
  rw [← length_eq_one_iff]
  omega

/-- Bytes of the length of a record's body are the body of a record, or one byte outside a set. -/
theorem body_cases {kind : AttemptRecordKind} (h : magicLen + body.length = kind.recordLen) :
    (∃ record : AttemptRecord, record.kind = kind ∧ record.fields.flatten = body) ∨
      ∃ value, body = [value] ∧ OutOfSet kind value := by
  cases kind with
  | claim =>
    have hsum : body.length = idLen + (idLen + pidLen) := Nat.add_left_cancel h
    obtain ⟨installationId, _, rfl, h₁⟩ := exists_field hsum
    obtain ⟨clientNonce, clientPid, rfl, h₂⟩ := exists_field h₁
    refine .inl ⟨.claim ⟨installationId, tokenFromBytes clientNonce, u32Le clientPid⟩, rfl, ?_⟩
    simp only [fields, flatten_cons, flatten_nil, append_nil,
      tokenFromBytes, pidBytes_u32Le ⟨clientPid, h₂⟩]
  | challenge =>
    have hsum : body.length = idLen + (idLen + (idLen + pidLen)) := Nat.add_left_cancel h
    obtain ⟨attemptId, _, rfl, h₁⟩ := exists_field hsum
    obtain ⟨healthChannelId, _, rfl, h₂⟩ := exists_field h₁
    obtain ⟨serverNonce, serverPid, rfl, h₃⟩ := exists_field h₂
    refine .inl ⟨.challenge ⟨attemptId, healthChannelId, tokenFromBytes serverNonce,
      u32Le serverPid⟩, rfl, ?_⟩
    simp only [fields, flatten_cons, flatten_nil, append_nil,
      tokenFromBytes, pidBytes_u32Le ⟨serverPid, h₃⟩]
  | acknowledgement =>
    obtain ⟨transcript, h⟩ := exists_transcript (Nat.add_left_cancel h)
    exact .inl ⟨.acknowledgement transcript, rfl, h⟩
  | receipt =>
    obtain ⟨transcript, h⟩ := exists_transcript (Nat.add_left_cancel h)
    exact .inl ⟨.receipt transcript, rfl, h⟩
  | bootAcknowledgement =>
    have hsum : body.length = idLen + (idLen + idLen) := Nat.add_left_cancel h
    obtain ⟨attemptId, _, rfl, h₁⟩ := exists_field hsum
    obtain ⟨healthChannelId, digest, rfl, h₂⟩ := exists_field h₁
    refine .inl ⟨.bootAcknowledgement ⟨attemptId, healthChannelId, ⟨digest, h₂⟩⟩, rfl, ?_⟩
    simp only [fields, flatten_cons, flatten_nil, append_nil]
  | ready =>
    have he : body = [] := length_eq_zero_iff.mp (Nat.add_left_cancel h)
    exact .inl ⟨.ready, rfl, he.symm⟩
  | failure =>
    obtain ⟨value, rfl⟩ := body_singleton h
    cases hva : AttemptFailureClass.fromByte value with
    | none => exact .inr ⟨value, rfl, .inl ⟨rfl, hva⟩⟩
    | some cls =>
      refine .inl ⟨.failure cls, rfl, ?_⟩
      simp only [fields, AttemptFailureClass.fromByte_some hva, flatten_singleton]
  | healthResult =>
    obtain ⟨value, rfl⟩ := body_singleton h
    cases hva : AttemptHealthResult.fromByte value with
    | none => exact .inr ⟨value, rfl, .inr ⟨rfl, hva⟩⟩
    | some result =>
      refine .inl ⟨.healthResult result, rfl, ?_⟩
      simp only [fields, AttemptHealthResult.fromByte_some hva, flatten_singleton]

end Fields

/-! ## The slice decoder -/

/-- A whole record at the front of its buffer. -/
def padded (bytes : List Byte) (h : bytes.length ≤ maxRecordLen) : Chunk maxRecordLen :=
  (RecordWriter.holding bytes h).bytes

theorem copyAt_zero {bytes : List Byte} (h : bytes.length ≤ maxRecordLen) :
    (Chunk.zero maxRecordLen).copyAt 0 bytes = some (padded bytes h) := by
  have he : ([] : List Byte).length ≤ maxRecordLen := Nat.zero_le maxRecordLen
  exact RecordWriter.copyAt_holding he h

variable {rest : List Byte}

theorem copyAt_padded {magic : List Byte} (hl : magic.length = magicLen)
    (hma : magic.length ≤ maxRecordLen) (h : (magic ++ rest).length ≤ maxRecordLen) :
    (padded magic hma).copyAt magicLen rest = some (padded (magic ++ rest) h) := by
  rw [← hl]
  exact RecordWriter.copyAt_holding hma h

section Decode

variable {position : AttemptReadPosition} {kind : AttemptRecordKind}

theorem admittedKind_ok {magic : List Byte} :
    admittedKind position magic = .ok kind ↔ magic = kind.magic ∧ position.admits kind = true := by
  unfold admittedKind
  rw [orElseError_ok, Option.filter_eq_some_iff]
  constructor
  · rintro ⟨h, ha⟩
    exact ⟨AttemptRecordKind.fromMagic_some h, ha⟩
  · rintro ⟨rfl, ha⟩
    exact ⟨AttemptRecordKind.fromMagic_magic kind, ha⟩

/-- Any buffer parses, and the reader stops right behind the record. -/
theorem parseFields_stops (position : AttemptReadPosition) (kind : AttemptRecordKind)
    (record : Chunk maxRecordLen) :
    ∃ result next, parseFields position kind ⟨record, magicLen⟩ = some (result, next) ∧
      next.pos = kind.recordLen := by
  have hma := kind.magicLen_le_recordLen
  have hl : record.bytes.length = magicLen + (maxRecordLen - magicLen) := record.len
  obtain ⟨magic, behind, hr, hbeh⟩ := exists_field hl
  have hsum : behind.length = (kind.recordLen - magicLen) + (maxRecordLen - kind.recordLen) := by
    have := kind.recordLen_le
    omega
  obtain ⟨body, rest, rfl, -⟩ := exists_field hsum
  have hah : FieldReader.Ahead ⟨record, magicLen⟩ (body.bytes ++ rest) := by
    refine ⟨(by decide : magicLen ≤ maxRecordLen), ?_⟩
    rw [hr, drop_left' magic.len]
  have hb : magicLen + body.bytes.length = kind.recordLen := by
    rw [body.len]
    omega
  rcases body_cases hb with ⟨found, rfl, hf⟩ | ⟨value, hva, ho⟩
  · rw [← hf] at hah
    exact ⟨_, _, parseFields_takes position found _ _ hah, found.length_fields⟩
  · rw [hva] at hah
    refine ⟨_, _, parseFields_outOfSet position ho _ _ hah, ?_⟩
    rw [hva] at hb
    exact hb

variable {body : List Byte}

theorem parse_takes {result : Except AttemptRecordError AttemptRecord}
    (h : FieldReader.Takes (parseFields position kind) body result)
    (hf : (kind.magic ++ body).length ≤ maxRecordLen) :
    parse position kind (padded (kind.magic ++ body) hf) = some result := by
  have hah : FieldReader.Ahead ⟨padded (kind.magic ++ body) hf, magicLen⟩
      (body ++ List.replicate (maxRecordLen - (kind.magic ++ body).length) 0) := by
    refine ⟨(by decide : magicLen ≤ maxRecordLen), ?_⟩
    show List.drop magicLen (kind.magic ++ body ++ _) = _
    rw [append_assoc, drop_left' kind.length_magic]
  unfold parse
  rw [h _ _ hah, Option.map_some]

theorem parse_cases (position : AttemptReadPosition) (h : magicLen + body.length = kind.recordLen)
    (hf : (kind.magic ++ body).length ≤ maxRecordLen) :
    (∃ record : AttemptRecord, record.kind = kind ∧ record.fields.flatten = body ∧
      parse position kind (padded (kind.magic ++ body) hf) = some (position.verdict record)) ∨
    ∃ value, parse position kind (padded (kind.magic ++ body) hf)
      = some (.error (.valueOutOfSet kind value)) := by
  rcases body_cases h with ⟨record, rfl, rfl⟩ | ⟨value, rfl, hva⟩
  · exact .inl ⟨record, rfl, rfl, parse_takes (parseFields_takes position record) hf⟩
  · exact .inr ⟨value, parse_takes (parseFields_outOfSet position hva) hf⟩

/-- On a whole record of an admitted kind the slice decoder is the parser. -/
theorem decode_whole (ha : position.admits kind = true)
    (h : magicLen + body.length = kind.recordLen)
    (hf : (kind.magic ++ body).length ≤ maxRecordLen) :
    decode position (kind.magic ++ body)
      = parse position kind (padded (kind.magic ++ body) hf) := by
  have hle : (kind.magic ++ body).length = kind.recordLen := by
    rw [length_append, kind.length_magic, h]
  have hl : ¬ kind.recordLen < magicLen := Nat.not_lt.mpr kind.magicLen_le_recordLen
  have hk : admittedKind position ((kind.magic ++ body).take magicLen) = .ok kind := by
    rw [take_left' kind.length_magic]
    exact admittedKind_ok.mpr ⟨rfl, ha⟩
  unfold decode
  rw [hle, if_neg hl, hk]
  simp only [lt_irrefl, if_false, copyAt_zero hf, Option.bind_eq_bind, Option.bind_some]

/-- The slice decoder refuses by itself, or its bytes are a whole record of an admitted kind. -/
theorem decode_cases (position : AttemptReadPosition) (bytes : List Byte) :
    (∃ err, decode position bytes = some (.error err)) ∨
      ∃ kind body, position.admits kind = true ∧ bytes = kind.magic ++ body ∧
        magicLen + body.length = kind.recordLen := by
  by_cases hsh : bytes.length < magicLen
  · left
    unfold decode
    rw [if_pos hsh]
    exact ⟨_, rfl⟩
  cases hk : admittedKind position (bytes.take magicLen) with
  | error err =>
    left
    unfold decode
    rw [if_neg hsh, hk]
    exact ⟨_, rfl⟩
  | ok kind =>
    obtain ⟨hma, ha⟩ := admittedKind_ok.mp hk
    rcases lt_trichotomy bytes.length kind.recordLen with hl | hl | hl
    · left
      unfold decode
      rw [if_neg hsh, hk]
      simp only [if_pos hl]
      exact ⟨_, rfl⟩
    · right
      refine ⟨kind, bytes.drop magicLen, ha, ?_, ?_⟩
      · rw [← hma, take_append_drop]
      · rw [length_drop, hl]
        omega
    · left
      unfold decode
      rw [if_neg hsh, hk]
      simp only [if_neg (Nat.not_lt.mpr hl.le), if_pos hl]
      exact ⟨_, rfl⟩

theorem fits_of_body (h : magicLen + body.length = kind.recordLen) :
    (kind.magic ++ body).length ≤ maxRecordLen := by
  rw [length_append, kind.length_magic, h]
  exact kind.recordLen_le

theorem decode_ne_none (position : AttemptReadPosition) (bytes : List Byte) :
    decode position bytes ≠ none := by
  rcases decode_cases position bytes with ⟨err, h⟩ | ⟨kind, body, ha, rfl, hl⟩
  · rw [h]
    exact Option.some_ne_none _
  · rw [decode_whole ha hl (fits_of_body hl)]
    rcases parse_cases position hl (fits_of_body hl) with ⟨record, -, -, h⟩ | ⟨value, h⟩
    · rw [h]
      exact Option.some_ne_none _
    · rw [h]
      exact Option.some_ne_none _

/-- Accepted bytes are the record's own. -/
theorem decode_ok {bytes : List Byte} {record : AttemptRecord}
    (h : decode position bytes = some (.ok record)) :
    record.wire = bytes ∧ position.admits record.kind = true ∧
      position.verdict record = .ok record := by
  rcases decode_cases position bytes with ⟨err, he⟩ | ⟨kind, body, ha, rfl, hl⟩
  · rw [he] at h
    cases h
  · rw [decode_whole ha hl (fits_of_body hl)] at h
    rcases parse_cases position hl (fits_of_body hl) with
      ⟨found, rfl, rfl, hpa⟩ | ⟨value, hpa⟩
    · rw [hpa] at h
      have hf : position.verdict found = .ok record := Option.some.inj h
      obtain rfl := position.verdict_ok hf
      exact ⟨rfl, ha, hf⟩
    · rw [hpa] at h
      cases h

theorem decode_wire {record : AttemptRecord} (h : position.admits record.kind = true) :
    decode position record.wire = some (position.verdict record) := by
  have hl := record.length_fields
  have hf := fits_of_body hl
  show decode position (record.kind.magic ++ record.fields.flatten) = _
  rw [decode_whole h hl hf]
  exact parse_takes (parseFields_takes position record) hf

end Decode

/-! ## The stream reader -/

/-- Fewer bytes than the magic, or than the record the magic announces. -/
def Short (position : AttemptReadPosition) (bytes : List Byte) : Prop :=
  bytes.length < magicLen ∨
    ∃ kind, admittedKind position (bytes.take magicLen) = .ok kind ∧ bytes.length < kind.recordLen

/-- How the stream reader can end on a link: cut off or short of bytes, at a magic that is not
admitted and nothing read behind it, or as the slice decoder does on the record's bytes. -/
inductive StreamRead (position : AttemptReadPosition) (link : Link) :
    Except RecordHalt AttemptRecord × Link → Prop
  | cut {halt : ReadHalt} {link' : Link}
      (why : ¬ Steady false link.script ∨ Short position (arriving link.script)) :
      StreamRead position link (.error (.ofRead halt), link')
  | refused {err : AttemptRecordError} {link' : Link}
      (enough : magicLen ≤ (arriving link.script).length)
      (magic : admittedKind position ((arriving link.script).take magicLen) = .error err)
      (consumed : arriving link'.script = (arriving link.script).drop magicLen) :
      StreamRead position link (.error (.refused err), link')
  | decoded {kind : AttemptRecordKind} {link' : Link}
      (magic : admittedKind position ((arriving link.script).take magicLen) = .ok kind)
      (enough : kind.recordLen ≤ (arriving link.script).length)
      (consumed : arriving link'.script = (arriving link.script).drop kind.recordLen) :
      StreamRead position link
        (RecordHalt.outcome (decode position ((arriving link.script).take kind.recordLen)), link')

/-- The buffer is filled inside its bounds, and parsing it is decoding the record's bytes. -/
theorem parse_read {position : AttemptReadPosition} {kind : AttemptRecordKind}
    (ha : position.admits kind = true) (hl : magicLen + rest.length = kind.recordLen) :
    (do
      let record ← (Chunk.zero maxRecordLen).copyAt 0 kind.magic
      let record ← record.copyAt magicLen rest
      parse position kind record) = decode position (kind.magic ++ rest) := by
  have hf := fits_of_body hl
  have hma : kind.magic.length ≤ maxRecordLen := by
    rw [kind.length_magic]
    decide
  rw [decode_whole ha hl hf, copyAt_zero hma, Option.bind_eq_bind, Option.bind_some,
    copyAt_padded kind.length_magic hma hf, Option.bind_some]

theorem readFrom_streamRead (position : AttemptReadPosition) (link : Link) :
    StreamRead position link (readFrom position link) := by
  unfold readFrom
  rcases readExactIo_cases magicLen link with
    ⟨magic, link₁, hr, hl, harr, hst⟩ | ⟨halt, link₁, hr, hwhy⟩
  · rw [Proc.bind_run_ok (Proc.mapError_run_ok hr)]
    have hta : (arriving link.script).take magicLen = magic := by
      rw [harr, take_left' hl]
    have hd : (arriving link.script).drop magicLen = arriving link₁.script := by
      rw [harr, drop_left' hl]
    have hto : (arriving link.script).length = magicLen + (arriving link₁.script).length := by
      rw [harr, length_append, hl]
    rcases hk : admittedKind position magic with err | kind
    · refine .refused ?_ (by rw [hta, hk]) hd.symm
      rw [hto]
      exact Nat.le_add_right _ _
    · show StreamRead position link (((readExactIo (kind.recordLen - magicLen)).mapError
        RecordHalt.ofRead >>= _) link₁)
      obtain ⟨rfl, ha⟩ := admittedKind_ok.mp hk
      have hma := kind.magicLen_le_recordLen
      rcases readExactIo_cases (kind.recordLen - magicLen) link₁ with
        ⟨rest, link₂, hr₂, hl₂, harr₂, -⟩ | ⟨halt, link₂, hr₂, hwhy⟩
      · rw [Proc.bind_run_ok (Proc.mapError_run_ok hr₂), Proc.ofExcept_run,
          parse_read ha (by omega)]
        have hfr : arriving link.script = kind.magic ++ rest ++ arriving link₂.script := by
          rw [harr, harr₂, append_assoc]
        have hwh : (kind.magic ++ rest).length = kind.recordLen := by
          rw [length_append, kind.length_magic, hl₂]
          omega
        have hre : (arriving link.script).take kind.recordLen = kind.magic ++ rest := by
          rw [hfr, take_left' hwh]
        rw [← hre]
        refine .decoded (by rw [hta, hk]) ?_ ?_
        · rw [hto, harr₂, length_append, hl₂]
          omega
        · rw [hfr, drop_left' hwh]
      · rw [Proc.bind_run_error (Proc.mapError_run_error hr₂)]
        refine .cut ?_
        rcases hwhy with hwhy | hwhy
        · exact .inl (hwhy ∘ hst)
        · refine .inr (.inr ⟨kind, by rw [hta, hk], ?_⟩)
          omega
  · rw [Proc.bind_run_error (Proc.mapError_run_error hr)]
    refine .cut ?_
    rcases hwhy with hwhy | hwhy
    · exact .inl hwhy
    · exact .inr (.inl hwhy)

theorem StreamRead.ne_panicked {position : AttemptReadPosition} {link : Link}
    {res : Except RecordHalt AttemptRecord × Link} (h : StreamRead position link res) :
    res.1 ≠ .error .panicked := by
  cases h with
  | @cut halt _ _ => cases halt <;> exact nofun
  | refused _ _ _ => exact nofun
  | @decoded kind link' _ _ _ =>
    intro h
    rcases hde : decode position ((arriving link.script).take kind.recordLen) with _ | r
    · exact decode_ne_none _ _ hde
    · rw [hde] at h
      cases r <;> cases h

/-! ## What a read and a write leave behind -/

section Records

variable {position : AttemptReadPosition} {record : AttemptRecord} {link link' : Link}

/-- A record that was read stood at the front of the stream. -/
theorem readFrom_ok (h : readFrom position link = (.ok record, link')) :
    arriving link.script = record.wire ++ arriving link'.script ∧
      position.admits record.kind = true := by
  have hr := readFrom_streamRead position link
  rw [h] at hr
  generalize hres : ((.ok record : Except RecordHalt AttemptRecord), link') = res at hr
  cases hr with
  | cut | refused => cases hres
  | @decoded kind link' magic enough consumed =>
    obtain ⟨hre, rfl⟩ := Prod.mk.inj hres
    rcases hde : decode position ((arriving link.script).take kind.recordLen) with _ | r
    · exact absurd hde (decode_ne_none _ _)
    rw [hde] at hre
    cases r with
    | error err => cases hre
    | ok found =>
      cases hre
      obtain ⟨hwi, ha, -⟩ := decode_ok hde
      rw [hwi, consumed, take_append_drop]
      exact ⟨rfl, ha⟩

/-- Reading a record writes nothing. -/
theorem readFrom_onlyRead (position : AttemptReadPosition) (link : Link) :
    Ipc.OnlyRead link (readFrom position link).2 := by
  have hr : ∀ len, Proc.Keeps (Ipc.OnlyRead link)
      ((readExactIo len).mapError RecordHalt.ofRead) := by
    intro len
    refine Proc.Keeps.mapError (fun l hl => ?_) _
    exact hl.trans (readExactIo_onlyRead len l)
  have hke : Proc.Keeps (Ipc.OnlyRead link) (readFrom position) := by
    refine (hr _).bind fun magic => ?_
    refine (Proc.keeps_ofExcept _ _).bind fun kind => ?_
    exact (hr _).bind fun rest => Proc.keeps_ofExcept _ _
  exact hke link (.refl link)

/-- On the first bytes of an admitted record the reader is cut off, or returns that record. -/
theorem readFrom_front {more : List Byte} (ha : position.admits record.kind = true)
    (hvdt : position.verdict record = .ok record)
    (hfr : arriving link.script <+: record.wire ++ more) :
    (∃ halt, (readFrom position link).1 = .error (.ofRead halt)) ∨
      (readFrom position link).1 = .ok record ∧
        arriving link.script = record.wire ++ arriving (readFrom position link).2.script := by
  have hta : ∀ n, n ≤ (arriving link.script).length → n ≤ record.wire.length →
      (arriving link.script).take n = record.wire.take n := by
    intro n hle hwi
    obtain ⟨rest, hre⟩ := hfr
    rw [← take_append_of_le_length hle, hre, take_append_of_le_length hwi]
  have hma : magicLen ≤ record.wire.length := by
    rw [record.length_wire]
    exact record.kind.magicLen_le_recordLen
  have hk : admittedKind position record.kind.magic = .ok record.kind :=
    admittedKind_ok.mpr ⟨rfl, ha⟩
  have hr := readFrom_streamRead position link
  generalize readFrom position link = res at hr ⊢
  cases hr with
  | @cut halt link' why => exact .inl ⟨halt, rfl⟩
  | refused enough magic consumed =>
    rw [hta magicLen enough hma, record.wire_take_magic, hk] at magic
    cases magic
  | @decoded kind link' magic enough consumed =>
    have hl := kind.magicLen_le_recordLen
    rw [hta magicLen (hl.trans enough) hma, record.wire_take_magic, hk] at magic
    obtain rfl := Except.ok.inj magic
    have hwh := hta record.kind.recordLen enough record.length_wire.ge
    rw [← record.length_wire, take_length] at hwh
    right
    rw [← record.length_wire, hwh, decode_wire ha, hvdt]
    refine ⟨rfl, ?_⟩
    rw [consumed, ← record.length_wire]
    nth_rewrite 1 [← take_append_drop record.wire.length (arriving link.script)]
    rw [hwh]

variable {faults : Nat → Option Ipc.WriteFault}

theorem writeTo_ok (h : record.writeTo faults link = (.ok (), link')) :
    link'.written = link.written ++ record.wire ∧ link'.script = link.script := by
  unfold writeTo at h
  rw [record.encoded_eq] at h
  cases hfa : faults link.writes with
  | none =>
    simp only [hfa] at h
    cases h
    exact ⟨rfl, rfl⟩
  | some fault =>
    simp only [hfa] at h
    cases h

end Records

/-! ## The codec -/

/-- Encoding and decoding at a position undo each other, on slices and on streams. -/
structure RecordCodec (position : AttemptReadPosition) : Prop where
  /-- accepted bytes are the encoding of the record, whose kind is admitted -/
  encode_decode : ∀ bytes record, decode position bytes = some (.ok record) →
    record.encoded = some bytes ∧ position.admits record.kind = true
  /-- a record whose kind, and for a failure whose class, is admitted decodes to itself -/
  decode_encode : ∀ record : AttemptRecord, position.admits record.kind = true →
    (∀ cls, record = .failure cls → position.admitsFailure cls = true) →
    ∃ bytes, record.encoded = some bytes ∧ decode position bytes = some (.ok record)
  /-- a failure whose class is not admitted is refused by that class -/
  failure_refused : ∀ cls, position.admits .failure = true → position.admitsFailure cls = false →
    ∃ bytes, (failure cls).encoded = some bytes ∧
      decode position bytes = some (.error (.failureClassNotAdmitted position cls))
  /-- the stream reader on any link -/
  stream : ∀ link, StreamRead position link (readFrom position link)
  /-- no field read or write leaves its buffer, and each ends with the record -/
  writes_inside : ∀ record : AttemptRecord, ∃ buffer,
    record.encode = some (buffer, record.kind.recordLen)
  reads_inside : ∀ kind record, ∃ result next,
    parseFields position kind ⟨record, magicLen⟩ = some (result, next) ∧
      next.pos = kind.recordLen
  decode_inside : ∀ bytes, decode position bytes ≠ none
  stream_inside : ∀ link, (readFrom position link).1 ≠ .error .panicked
  /-- records of two kinds have different encodings -/
  kinds_apart : ∀ record other : AttemptRecord, record.encoded = other.encoded →
    record.kind = other.kind

theorem record_codec (position : AttemptReadPosition) : RecordCodec position where
  encode_decode := by
    intro bytes record h
    obtain ⟨rfl, ha, -⟩ := decode_ok h
    exact ⟨record.encoded_eq, ha⟩
  decode_encode := by
    intro record ha hcl
    refine ⟨record.wire, record.encoded_eq, ?_⟩
    rw [decode_wire ha]
    cases record with
    | failure cls => simp only [AttemptReadPosition.verdict, if_pos (hcl cls rfl)]
    | claim | challenge | acknowledgement | receipt | bootAcknowledgement | ready | healthResult => rfl
  failure_refused := by
    intro cls ha hcl
    refine ⟨_, encoded_eq _, ?_⟩
    rw [decode_wire ha]
    simp only [AttemptReadPosition.verdict, hcl, Bool.false_eq_true, if_false]
  stream := readFrom_streamRead position
  writes_inside := by
    intro record
    obtain ⟨hf, h⟩ := record.encode_eq
    exact ⟨_, h⟩
  reads_inside := parseFields_stops position
  decode_inside := decode_ne_none position
  stream_inside := fun link => (readFrom_streamRead position link).ne_panicked
  kinds_apart := by
    intro record other h
    rw [record.encoded_eq, other.encoded_eq] at h
    exact kind_eq_of_wire (Option.some.inj h)

/-- An application exit before Ready is a failure record, and before the boot acknowledgement it is
refused although failure records are admitted there. -/
theorem early_application_exit_refused :
    AttemptReadPosition.ownerBoot.admits
        (failure .applicationExitBeforeReady).kind = true ∧
      (failure .applicationExitBeforeReady).encoded.bind (decode .ownerBoot)
        = some (.error (.failureClassNotAdmitted .ownerBoot .applicationExitBeforeReady)) := by
  decide +kernel

end Keld.Attempt
