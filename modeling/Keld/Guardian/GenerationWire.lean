/-
# `Keld.Guardian.GenerationWire` — generation-control records on the wire

Every record is sent as 404 bytes: a header with the payload's length, the payload,
and zeros.  `decode_eq_ok_iff` says which bytes are a record.  The reader keeps what
it has of one between two polls and asks for no more than is missing, so polls return
the records that were sent, in order, whatever pieces they arrive in.
-/
import Keld.Lib.Layout
import Keld.Runtime.Lifecycle

namespace Keld.Guardian.GenerationControl

open Keld.Runtime List

/-! ## Records -/

def magic : List Byte := [0x4b, 0x47, 0x43, 0x31]
def payloadMax : ℕ := 384
def recordLen : ℕ := 404

/-- A record with its fields as wide as they are sent. -/
structure Record where
  kind : Byte
  cause : Byte
  attempt : UInt32
  pid : UInt32
  payload : List Byte
deriving DecidableEq, Repr

/-- `u32::to_be_bytes`. -/
def beBytes32 (n : UInt32) : List Byte := (leBytes 4 n.toNat).reverse

/-- `u32::from_be_bytes`. -/
def u32Be (bytes : List Byte) : UInt32 := u32Le bytes.reverse

/-- What the record's buffer holds, piece by piece; its last piece is what nothing writes. -/
def fields (record : Record) : List (List Byte) :=
  [magic, [1], [record.kind], [record.cause], [0], beBytes32 record.attempt,
    beBytes32 record.pid, (leBytes 2 record.payload.length).reverse, [0], [0], record.payload,
    replicate (payloadMax - record.payload.length) 0]

def widths (payloadLen : ℕ) : List ℕ :=
  [4, 1, 1, 1, 1, 4, 4, 2, 1, 1, payloadLen, payloadMax - payloadLen]

theorem fields_widths (record : Record) :
    (fields record).map length = widths record.payload.length := by
  simp [fields, widths, beBytes32, magic]

theorem widths_sum {payloadLen : ℕ} (h : payloadLen ≤ payloadMax) :
    (widths payloadLen).sum = recordLen := by
  simp only [widths, sum_cons, sum_nil, payloadMax, recordLen] at h ⊢
  omega

theorem length_fields {record : Record} (h : record.payload.length ≤ payloadMax) :
    (fields record).flatten.length = recordLen := by
  rw [length_flatten, fields_widths, widths_sum h]

/-- The bytes that `write_generation_control` sends; a length up to the bound fits in two bytes. -/
def encode (record : Record) : Except RuntimeError (Chunk recordLen) :=
  if h : record.payload.length ≤ payloadMax then
    .ok ⟨(fields record).flatten, length_fields h⟩
  else
    .error (lifecycleError "macOS guardian generation control encode" .invalidInput
      "generation-control payload exceeds its fixed bound")

def decodeError (text : String) : RuntimeError :=
  lifecycleError "macOS guardian generation control decode" .invalidData text

def decode (chunk : Chunk recordLen) : Except RuntimeError Record :=
  let bytes := chunk.bytes
  if slice bytes 0 4 ≠ magic ∨ bytes.getD 4 0 ≠ 1 ∨ bytes.getD 7 0 ≠ 0 ∨
      bytes.getD 18 0 ≠ 0 ∨ bytes.getD 19 0 ≠ 0 then
    .error (decodeError "generation-control header is malformed or unsupported")
  else
    let attempt := u32Be (slice bytes 8 4)
    let pid := u32Be (slice bytes 12 4)
    let payloadLen := leNat (slice bytes 16 2).reverse
    if payloadLen > payloadMax ∨ (bytes.drop (20 + payloadLen)).any (· != 0) then
      .error (decodeError "generation-control payload bound or padding is invalid")
    else
      .ok ⟨bytes.getD 5 0, bytes.getD 6 0, attempt, pid, slice bytes 20 payloadLen⟩

variable {record : Record} {chunk : Chunk recordLen}
  {field : List Byte}

theorem u32Be_eq_iff (h : field.length = 4) {n : UInt32} :
    u32Be field = n ↔ field = beBytes32 n := by
  have hr : field.reverse.length = 4 := by rw [length_reverse, h]
  constructor
  · rintro rfl
    rw [beBytes32, u32Be, leBytes_u32Le hr, reverse_reverse]
  · rintro rfl
    rw [u32Be, beBytes32, reverse_reverse, u32Le_leBytes]

theorem payloadLen_eq_iff (h : field.length = 2) {n : ℕ} (hn : n ≤ payloadMax) :
    leNat field.reverse = n ↔ field = (leBytes 2 n).reverse := by
  have hr : field.reverse.length = 2 := by rw [length_reverse, h]
  constructor
  · rintro rfl
    rw [leBytes_leNat hr, reverse_reverse]
  · rintro rfl
    exact (congrArg leNat (reverse_reverse _)).trans (leNat_leBytes (lt_of_le_of_lt hn (by decide)))

/-- Nothing but zeros follows. -/
theorem padding_iff (bytes : List Byte) {start len : ℕ} (h : start + len = bytes.length) :
    ¬ (bytes.drop start).any (· != 0) ↔ slice bytes start len = replicate len 0 := by
  have ha : slice bytes start len = bytes.drop start :=
    take_of_length_le (by rw [length_drop]; omega)
  have hl : (bytes.drop start).length = len := by rw [length_drop]; omega
  rw [ha, eq_replicate_iff]
  simp [hl]

/-- The bytes of a record are the only ones that decode to it. -/
theorem decode_eq_ok_iff :
    decode chunk = .ok record ↔ record.payload.length ≤ payloadMax ∧
      chunk.bytes = (fields record).flatten := by
  obtain ⟨bytes, hl⟩ := chunk
  have hf (start len : ℕ) (h : start + len ≤ 404) : (slice bytes start len).length = len :=
    length_slice (hl.symm ▸ h)
  have ho (start : ℕ) (h : start < 404) (byte : Byte) :
      slice bytes start 1 = [byte] ↔ bytes.getD start 0 = byte := by
    rw [slice_one (hl.symm ▸ h), cons.injEq, and_iff_left rfl]
  have hpd {len : ℕ} (h : len ≤ payloadMax) : 20 + len + (payloadMax - len) = bytes.length := by
    rw [hl, Nat.add_assoc, Nat.add_sub_cancel' h]
    rfl
  have hcut (h : record.payload.length ≤ payloadMax) :=
    slices_eq_iff (hl.trans (widths_sum h).symm) (fields_widths record)
  simp only [widths, fields, slices, cons.injEq, Nat.zero_add, Nat.reduceAdd, and_true] at hcut
  rw [ho 4 (by decide), ho 5 (by decide), ho 6 (by decide), ho 7 (by decide),
    ho 18 (by decide), ho 19 (by decide), ← u32Be_eq_iff (hf 8 4 (by decide)),
    ← u32Be_eq_iff (hf 12 4 (by decide))] at hcut
  constructor
  · intro hde
    unfold decode at hde
    dsimp only at hde
    split_ifs at hde with hh hpa
    cases hde
    simp only [not_or, not_not] at hh
    obtain ⟨hma, hver, hre, hlow, hhi⟩ := hh
    rw [not_or, Nat.not_lt] at hpa
    obtain ⟨hle, hze⟩ := hpa
    have hpay := hf 20 _ (Nat.add_le_add_left hle 20)
    refine ⟨hpay.symm ▸ hle, (hcut (hpay.symm ▸ hle)).mp ?_⟩
    simp only [hpay]
    refine ⟨hma, hver, trivial, trivial, hre, trivial, trivial, ?_, hlow, hhi,
      trivial, ?_⟩
    · exact (payloadLen_eq_iff (hf 16 2 (by decide)) hle).mp rfl
    · exact (padding_iff bytes (hpd hle)).mp hze
  · rintro ⟨hle, hby⟩
    obtain ⟨hma, hver, hk, hca, hre, hatt, hpid, hpa, hlow, hhi, hpay, hze⟩ := (hcut hle).mpr hby
    have hc := (payloadLen_eq_iff (hf 16 2 (by decide)) hle).mpr hpa
    have hpad := (padding_iff bytes (hpd hle)).mpr hze
    unfold decode
    rw [if_neg, hc, if_neg, hk, hca, hatt, hpid, hpay]
    · rw [not_or]
      exact ⟨Nat.not_lt.mpr hle, hpad⟩
    · simp only [not_or, not_not]
      exact ⟨hma, hver, hre, hlow, hhi⟩

/-! ## The reader -/

/-- `held` is the beginning of the buffer that is filled; `started` whether a record's time runs. -/
structure Reader where
  held : List Byte
  started : Bool
deriving DecidableEq, Repr

def Reader.new : Reader := ⟨[], false⟩

/-- What the next read finds; `late` when the deadline of the record has passed by then. -/
inductive Arrival where
  /-- bytes, of which the read takes what it has room for; none at the end of the stream -/
  | bytes (chunk : List Byte) (late : Bool)
  | interrupted
  /-- nothing, for now -/
  | wouldBlock (late : Bool)
  /-- any other error -/
  | failed (source : IoError)
deriving DecidableEq, Repr

def readPhase : String := "macOS guardian generation control read"

def lateError : RuntimeError :=
  lifecycleError readPhase .timedOut "generation-control record exceeded its read deadline"

def closedError : RuntimeError :=
  lifecycleError readPhase .unexpectedEof "generation-control peer closed mid-session"

/-- What is left of a chunk is there for the next read, which begins a record. -/
def leave (chunk : List Byte) (rest : List Arrival) : List Arrival :=
  if chunk = [] then rest else .bytes chunk false :: rest

/-- One `poll`; a stream that has nothing more would block. -/
def poll (reader : Reader) :
    List Arrival → Except RuntimeError (Option Record) × Reader × List Arrival
  | [] => (.ok none, reader, [])
  | .interrupted :: rest => poll reader rest
  | .wouldBlock late :: rest =>
    (if reader.started && late then .error lateError else .ok none, reader, rest)
  | .failed source :: rest => (.error (.lifecycle readPhase source), reader, rest)
  | .bytes chunk late :: rest =>
    let room := recordLen - reader.held.length
    let held := reader.held ++ chunk.take room
    let left := leave (chunk.drop room) rest
    if held.length = reader.held.length then (.error closedError, reader, left)
    else if late then (.error lateError, ⟨held, true⟩, left)
    else if h : held.length = recordLen then ((decode ⟨held, h⟩).map some, .new, left)
    else poll ⟨held, true⟩ rest

/-- The answers to so many polls. -/
def polls : ℕ → Reader → List Arrival →
    List (Except RuntimeError (Option Record)) × Reader × List Arrival
  | 0, reader, script => ([], reader, script)
  | n + 1, reader, script =>
    let (answer, reader, script) := poll reader script
    let (answers, reader, script) := polls n reader script
    (answer :: answers, reader, script)

/-! ## What is sent and what is read -/

/-- No deadline passes, and the stream neither ends nor fails. -/
def Arrival.Quiet : Arrival → Prop
  | .bytes chunk late => chunk ≠ [] ∧ late = false
  | .interrupted => True
  | .wouldBlock late => late = false
  | .failed _ => False

def Arrival.data : Arrival → List Byte
  | .bytes chunk _ => chunk
  | _ => []

def delivered (script : List Arrival) : List Byte := script.flatMap Arrival.data

def wire (records : List Record) : List Byte :=
  records.flatMap fun record => (fields record).flatten

/-- What the reader holds and what will arrive are these records. -/
structure Sent (records : List Record) (reader : Reader) (script : List Arrival) : Prop where
  bytes : reader.held ++ delivered script = wire records
  room : reader.held.length < recordLen
  fit : ∀ record ∈ records, record.payload.length ≤ payloadMax
  quiet : ∀ arrival ∈ script, arrival.Quiet

/-- How many polls the script keeps busy, at most. -/
def size (script : List Arrival) : ℕ := script.length + (delivered script).length

variable {records : List Record} {reader : Reader} {script rest : List Arrival}

theorem wire_cons : wire (record :: records) = (fields record).flatten ++ wire records :=
  flatMap_cons

theorem delivered_cons {arrival : Arrival} :
    delivered (arrival :: rest) = arrival.data ++ delivered rest := flatMap_cons

theorem size_cons {arrival : Arrival} :
    size (arrival :: rest) = size rest + 1 + arrival.data.length := by
  rw [size, size, delivered_cons, length_cons, length_append]
  omega

theorem delivered_leave (chunk : List Byte) :
    delivered (leave chunk rest) = chunk ++ delivered rest := by
  unfold leave
  split_ifs with hn
  · rw [hn, nil_append]
  · exact delivered_cons

theorem length_leave (chunk : List Byte) (rest : List Arrival) :
    (leave chunk rest).length ≤ rest.length + 1 := by
  unfold leave
  split_ifs
  · exact Nat.le_succ _
  · exact Nat.le_refl _

theorem leave_quiet (hq : ∀ arrival ∈ rest, arrival.Quiet) (chunk : List Byte) :
    ∀ arrival ∈ leave chunk rest, arrival.Quiet := by
  unfold leave
  split_ifs with hn
  · exact hq
  · exact forall_mem_cons.mpr ⟨⟨hn, rfl⟩, hq⟩

/-- A record is returned with its last byte, and nothing behind it is held. -/
theorem poll_some {reader' : Reader}
    (h : poll reader script = (.ok (some record), reader', rest)) : reader' = .new := by
  induction script generalizing reader with
  | nil => cases h
  | cons arrival script ih =>
    cases arrival with
    | interrupted => exact ih h
    | wouldBlock late =>
      rw [poll] at h
      split_ifs at h <;> cases h
    | failed source => cases h
    | bytes chunk late =>
      rw [poll] at h
      split_ifs at h
      · cases h
      · cases h
      · exact (congrArg (·.2.1) h).symm
      · exact ih h

/-- A full buffer is the first record. -/
theorem Sent.full (h : Sent records reader script) {held : List Byte}
    (hl : held.length = recordLen) {more : List Byte} (hby : held ++ more = wire records) :
    ∃ record left, records = record :: left ∧ decode ⟨held, hl⟩ = .ok record ∧
      more = wire left := by
  cases records with
  | nil =>
    rw [(append_eq_nil_iff.mp hby).1] at hl
    cases hl
  | cons record left =>
    have hf := h.fit record mem_cons_self
    rw [wire_cons] at hby
    obtain ⟨hhe, hmo⟩ := append_inj hby (hl.trans (length_fields hf).symm)
    exact ⟨record, left, rfl, decode_eq_ok_iff.mpr ⟨hf, hhe⟩, hmo⟩

/-- The poll answers with the next record or with none, and nothing is lost. -/
def Answered (records : List Record) (reader : Reader) (script : List Arrival) : Prop :=
  ∃ answer left reader' script', poll reader script = (.ok answer, reader', script') ∧
    records = answer.toList ++ left ∧ Sent left reader' script' ∧ size script' ≤ size script - 1

theorem Answered.skip {reader' : Reader} (h : Answered records reader' rest)
    {arrival : Arrival} (hpo : poll reader (arrival :: rest) = poll reader' rest) :
    Answered records reader (arrival :: rest) := by
  obtain ⟨answer, left, reader'', script', hr, hl, hse, hs⟩ := h
  refine ⟨answer, left, reader'', script', hpo.trans hr, hl, hse, hs.trans ?_⟩
  rw [size_cons]
  omega

theorem Sent.answered (h : Sent records reader script) : Answered records reader script := by
  induction script generalizing reader with
  | nil => exact ⟨none, records, reader, [], rfl, rfl, h, Nat.le_refl _⟩
  | cons arrival rest ih =>
    obtain ⟨hhe, hq⟩ := forall_mem_cons.mp h.quiet
    have hby := h.bytes
    rw [delivered_cons] at hby
    cases arrival with
    | interrupted => exact (ih ⟨hby, h.room, h.fit, hq⟩).skip rfl
    | failed source => exact hhe.elim
    | wouldBlock late =>
      cases (show late = false from hhe)
      refine ⟨none, records, reader, rest, ?_, rfl, ⟨hby, h.room, h.fit, hq⟩, ?_⟩
      · rw [poll, Bool.and_false]
        rfl
      · rw [size_cons]
        exact Nat.le_refl _
    | bytes chunk late =>
      obtain ⟨hch, rfl⟩ := hhe
      have hpos := length_pos_iff.mpr hch
      have hro := h.room
      have hp := length_take (i := recordLen - reader.held.length) (l := chunk)
      have hl := length_drop (i := recordLen - reader.held.length) (l := chunk)
      have hcut := take_append_drop (recordLen - reader.held.length) chunk
      generalize hta : chunk.take _ = part at hcut hp
      generalize hd : chunk.drop _ = later at hcut hl
      have hs : (reader.held ++ part).length ≠ reader.held.length := by
        rw [length_append]
        omega
      have hr : reader.held ++ part ++ (later ++ delivered rest) = wire records := by
        rw [append_assoc, ← append_assoc part, hcut]
        exact hby
      by_cases hfu : (reader.held ++ part).length = recordLen
      · obtain ⟨record, left, rfl, hde, hmo⟩ := h.full hfu hr
        refine ⟨some record, left, .new, leave later rest, ?_, rfl,
          ⟨?_, by decide, ?_, leave_quiet hq _⟩, ?_⟩
        · rw [poll, hta, hd, if_neg hs, if_neg Bool.false_ne_true, dif_pos hfu, hde]
          rfl
        · rw [delivered_leave, hmo]
          rfl
        · exact fun record hre => h.fit record (mem_cons_of_mem _ hre)
        · have hle := length_leave later rest
          rw [size, size_cons, delivered_leave, length_append, size]
          dsimp only [Arrival.data]
          omega
      · have hn : later = [] := by
          rw [length_append] at hfu
          exact length_eq_zero_iff.mp (by omega)
        have hsh : (reader.held ++ part).length < recordLen := by
          rw [length_append] at hfu ⊢
          omega
        rw [hn, nil_append] at hr
        refine (@ih ⟨reader.held ++ part, true⟩ ⟨hr, hsh, h.fit, hq⟩).skip ?_
        rw [poll, hta, if_neg hs, if_neg Bool.false_ne_true, dif_neg hfu]

/-- So do any number of polls. -/
theorem Sent.answers (h : Sent records reader script) (n : ℕ) :
    ∃ (answers : List (Option Record)) (left : List Record) (reader' : Reader)
      (script' : List Arrival), polls n reader script = (answers.map .ok, reader', script') ∧
      records = answers.reduceOption ++ left ∧ Sent left reader' script' ∧
        size script' ≤ size script - n := by
  induction n generalizing records reader script with
  | zero => exact ⟨[], records, reader, script, rfl, rfl, h, Nat.le_refl _⟩
  | succ n ih =>
    obtain ⟨answer, left, reader', script', hpoll, rfl, hse, hs⟩ := h.answered
    obtain ⟨answers, left', reader'', script'', hpo, rfl, hse', hs'⟩ := ih hse
    refine ⟨answer :: answers, left', reader'', script'', ?_, ?_, hse', by omega⟩
    · rw [polls, hpoll]
      dsimp only
      rw [hpo]
      rfl
    · cases answer with
      | none => rfl
      | some record => rfl

theorem length_wire (h : ∀ record ∈ records, record.payload.length ≤ payloadMax) :
    (wire records).length = recordLen * records.length := by
  induction records with
  | nil => rfl
  | cons record records ih =>
    obtain ⟨hf, hr⟩ := forall_mem_cons.mp h
    rw [wire_cons, length_append, length_fields hf, ih hr, length_cons, Nat.mul_succ, Nat.add_comm]

/-- With nothing more to come everything sent was returned. -/
theorem Sent.finished (h : Sent records reader script) (hn : size script = 0) :
    records = [] ∧ reader.held = [] := by
  obtain ⟨hscr, -⟩ := Nat.add_eq_zero_iff.mp hn
  rw [length_eq_zero_iff] at hscr
  have hby := h.bytes
  rw [hscr, delivered, flatMap_nil, append_nil] at hby
  have hl := (congrArg length hby).trans (length_wire h.fit)
  have hro := h.room
  cases records with
  | nil => exact ⟨rfl, hby⟩
  | cons record records =>
    rw [length_cons, Nat.mul_succ] at hl
    omega

structure WireLaw : Prop where
  decoded : ∀ record : Record, record.payload.length ≤ payloadMax →
    ∃ chunk, encode record = .ok chunk ∧ decode chunk = .ok record
  encoded : ∀ chunk record, decode chunk = .ok record → encode record = .ok chunk
  alone : ∀ reader script record reader' rest,
    poll reader script = (.ok (some record), reader', rest) → reader' = .new
  /-- After any number of polls what is held is the beginning of the next record. -/
  polled : ∀ records script, (∀ record ∈ records, record.payload.length ≤ payloadMax) →
    (∀ arrival ∈ script, arrival.Quiet) → delivered script = wire records →
      ∀ n, ∃ (answers : List (Option Record)) (left : List Record) (reader : Reader)
        (rest : List Arrival), polls n .new script = (answers.map .ok, reader, rest) ∧
        records = answers.reduceOption ++ left ∧
        reader.held ++ delivered rest = wire left ∧ reader.held.length < recordLen ∧
        (reader.held = [] ↔ recordLen ∣ (delivered rest).length) ∧
        (size script ≤ n → left = [] ∧ reader.held = [])

theorem generation_control_wire : WireLaw where
  decoded record h := ⟨⟨(fields record).flatten, length_fields h⟩, dif_pos h,
    decode_eq_ok_iff.mpr ⟨h, rfl⟩⟩
  encoded chunk record h := by
    obtain ⟨hf, hby⟩ := decode_eq_ok_iff.mp h
    exact (dif_pos hf).trans (congrArg Except.ok (Chunk.ext hby.symm))
  alone _ _ _ _ _ h := poll_some h
  polled records script hfit hq hse n := by
    have hne : Sent records .new script := ⟨hse, by decide, hfit, hq⟩
    obtain ⟨answers, left, reader, rest, hpo, hre, hh, hs⟩ := hne.answers n
    refine ⟨answers, left, reader, rest, hpo, hre, hh.bytes, hh.room, ?_,
      fun hd => hh.finished (by omega)⟩
    have hl := (congrArg length hh.bytes).trans (length_wire hh.fit)
    rw [length_append] at hl
    constructor
    · intro hn
      rw [hn, length_nil, Nat.zero_add] at hl
      exact ⟨_, hl⟩
    · intro hdvd
      have hp := (Nat.dvd_add_left hdvd).mp ⟨_, hl⟩
      exact length_eq_zero_iff.mp (Nat.eq_zero_of_dvd_of_lt hp hh.room)

end Keld.Guardian.GenerationControl
