/-
# `Keld.Ipc.RoundTrip` — what is written is read back

`writeFrame` puts a header and its payload on the wire; each of the three frame
readers takes exactly them off again, whatever the chunking, as long as no
deadline is reached and no stop is requested.  `frame_stream_round_trip`
repeats this over a list of frames.
-/
import Keld.Ipc.Stream

namespace Keld.Ipc

open List FrameHeader Proc Frame

/-- The link still has exactly these bytes in front of it. -/
structure Ahead (polls : Bool) (data : List Byte) (link : Link) : Prop where
  steady : Steady polls link.script
  data : arriving link.script = data

/-- What a frame is on the wire. -/
def Frame.bytes (frame : Frame) : List Byte := frame.header.encode ++ frame.payload

/-- The length `writeFrame` accepts. -/
def Frame.Fits (frame : Frame) : Prop := frame.payload.length ≤ maxFrameLen

theorem Frame.Fits.len {frame : Frame} (h : frame.Fits) :
    frame.header.len.toNat = frame.payload.length := by
  have hlt : frame.payload.length < 2 ^ 32 := Nat.lt_of_le_of_lt h (by decide)
  show (UInt32.ofNat frame.payload.length).toNat = frame.payload.length
  rw [UInt32.toNat_ofNat', Nat.mod_eq_of_lt hlt]

theorem decodeBounded_ok {bytes : List Byte} {header : FrameHeader} :
    decodeBounded bytes = .ok header ↔
      decode bytes = .ok header ∧ header.len.toNat ≤ maxFrameLen := by
  unfold decodeBounded ensurePayloadLen
  cases decode bytes with
  | error err =>
    constructor
    · intro h
      cases h
    · rintro ⟨h, -⟩
      cases h
  | ok found =>
    simp only [Except.mapError, bind_ok]
    constructor
    · rintro ⟨_, h, ⟨⟩, hl, hret⟩
      cases h
      cases hret
      exact ⟨rfl, of_decide_eq_true (require_ok.mp hl)⟩
    · rintro ⟨h, hl⟩
      cases h
      exact ⟨_, rfl, (), require_ok.mpr (decide_eq_true hl), rfl⟩

theorem decodeBounded_header {frame : Frame} (h : frame.Fits) :
    decodeBounded frame.header.encode = .ok frame.header := by
  refine decodeBounded_ok.mpr ⟨decode_encode _, ?_⟩
  rw [h.len]
  exact h

/-! ## Writing -/

variable {link' : Link} {α : Type} {r : Except IpcError α} {a : α} {frames : List Frame}
  {polls : Bool} {escape : Link → Prop}

theorem writeAll_ok {env : Env} {bytes : List Byte} {link : Link}
    (h : writeAll env bytes link = (.ok (), link')) :
    link'.written = link.written ++ bytes := by
  unfold writeAll at h
  cases hf : env.writeFault link.writes with
  | none =>
    simp only [hf] at h
    cases h
    rfl
  | some fault =>
    simp only [hf] at h
    cases h

theorem orFail_ok {link : Link} (h : orFail r link = (.ok a, link')) :
    r = .ok a ∧ link' = link := by
  cases r with
  | error err => cases h
  | ok b =>
    cases h
    exact ⟨rfl, rfl⟩

theorem orFail_error {halt : Halt} {link : Link} (h : orFail r link = (.error halt, link')) :
    ∃ err, halt = .failed err ∧ r = .error err ∧ link' = link := by
  cases r with
  | error err =>
    cases h
    exact ⟨err, rfl, rfl, rfl⟩
  | ok b => cases h

/-- A frame that was written went out whole. -/
theorem writeFrame_ok {env : Env} {frame : Frame} {link : Link}
    (h : writeFrame env frame link = (.ok (), link')) :
    frame.Fits ∧ link'.written = link.written ++ frame.bytes := by
  unfold writeFrame at h
  rw [bind_ok_iff] at h
  obtain ⟨⟨⟩, link₁, hl, h⟩ := h
  obtain ⟨hl', rfl⟩ := orFail_ok hl
  have hf : frame.Fits := of_decide_eq_true (p := frame.payload.length ≤ maxFrameLen)
    (require_ok.mp hl')
  rw [bind_ok_iff] at h
  obtain ⟨⟨⟩, link₂, hh, h⟩ := h
  rw [bind_ok_iff] at h
  obtain ⟨⟨⟩, link₃, hpay, h⟩ := h
  have hpay : link₃.written = link₂.written ++ frame.payload := by
    split_ifs at hpay with he
    · cases hpay
      rw [he, append_nil]
    · exact writeAll_ok hpay
  refine ⟨hf, ?_⟩
  rw [writeAll_ok h, hpay, writeAll_ok hh, bytes, append_nil, append_assoc]

/-- Writes frames one after another. -/
def writeFrames (env : Env) : List Frame → Io Unit
  | [] => pure ()
  | frame :: frames => do
    writeFrame env frame
    writeFrames env frames

theorem writeFrames_ok {env : Env} {link : Link} (h : writeFrames env frames link = (.ok (), link'))
    :
    (∀ frame ∈ frames, frame.Fits) ∧ link'.written = link.written ++ frames.flatMap bytes := by
  induction frames generalizing link with
  | nil =>
    cases h
    simp
  | cons frame frames ih =>
    unfold writeFrames at h
    rw [bind_ok_iff] at h
    obtain ⟨⟨⟩, link₁, hf, h⟩ := h
    obtain ⟨hfi, hw⟩ := writeFrame_ok hf
    obtain ⟨ha, hr⟩ := ih h
    refine ⟨forall_mem_cons.mpr ⟨hfi, ha⟩, ?_⟩
    rw [hr, hw, flatMap_cons, append_assoc]

/-! ## Reading -/

theorem Ahead.orFail {data : List Byte} {link : Link} (h : Ahead polls data link) (hr : r = .ok a) :
    Proc.Gives escape (Ipc.orFail r) link (fun b link' => b = a ∧ Ahead polls data link') := by
  subst hr
  exact .inr ⟨a, link, rfl, rfl, h⟩

/-- A loop that is a read takes the next bytes off, unless it gives up. -/
theorem ReadsAs.takes {stops : Link → Prop} {bytesOf : α → Option (List Byte)}
    {front tail : List Byte} {link : Link} {res : Except Halt α × Link} {fin : ReadEnd}
    (hpos : front ≠ []) (h : Ahead polls (front ++ tail) link)
    (hr : ReadsAs polls stops bytesOf link.script [] front.length link res fin) :
    stops res.2 ∨
      ∃ a link', res = (.ok a, link') ∧ bytesOf a = some front ∧ Ahead polls tail link' := by
  by_cases hfin : fin = .gaveUp
  · exact .inl (hr.cause hfin)
  · right
    have hl : front.length ≤ (arriving link.script).length := by
      rw [h.data, length_append]
      omega
    have hfu := hr.reads.fills (length_pos_iff.mpr hpos) h.steady hl hfin
    rw [h.data, nil_append, take_left] at hfu
    subst hfu
    obtain ⟨a, ha, hby⟩ := hr.outcome
    refine ⟨a, res.2, Prod.ext ha rfl, hby, (hr.reads.steady h.steady).2 hfin, ?_⟩
    rw [hr.reads.full.2.2, h.data, drop_left]

section Readers

variable {env : Env} {front tail : List Byte} {link : Link}

theorem readExact_gives (h : Ahead false (front ++ tail) link) :
    Proc.Gives (fun _ => False) (readExact front.length) link
      (fun bytes link' => bytes = front ∧ Ahead false tail link') := by
  by_cases he : front = []
  · subst he
    exact .inr ⟨[], link, rfl, rfl, h⟩
  · have hl : front.length ≠ 0 := fun h => he (length_eq_zero_iff.mp h)
    unfold Proc.Gives readExact mapError readExactIo
    rw [if_neg hl]
    obtain ⟨fin, hr⟩ := readExactLoop_reads link.script link [] front.length
    rcases hr.takes he h with hla | ⟨a, link', hres, ha, h'⟩
    · exact .inl hla
    · exact .inr ⟨a, link', hres, Option.some.inj ha, h'⟩

theorem readExactStalledWith_gives (env : Env) (limit : Duration) (stall : Option Instant)
    (h : Ahead false (front ++ tail) link) :
    Proc.Gives Lapsed (readExactStalledWith env limit front.length stall) link
      (fun r link' => r.1 = front ∧ Ahead false tail link') := by
  by_cases he : front = []
  · subst he
    exact .inr ⟨([], stall), link, rfl, rfl, h⟩
  · have hl : front.length ≠ 0 := fun h => he (length_eq_zero_iff.mp h)
    unfold Proc.Gives readExactStalledWith
    rw [if_neg hl]
    obtain ⟨fin, hr⟩ := readExactStalledLoop_reads env limit link.script link stall [] front.length
    rcases hr.takes he h with hla | ⟨a, link', hres, ha, h'⟩
    · exact .inl hla
    · exact .inr ⟨a, link', hres, Option.some.inj ha, h'⟩

theorem readExactInterruptible_gives (env : Env) (deadlines : Deadlines)
    (limit : Duration) (stall : Option Instant) (h : Ahead true (front ++ tail) link) :
    Proc.Gives env.Ended (readExactInterruptible env deadlines limit front.length stall) link
      (fun r link' => (∃ stall', r = some (front, stall')) ∧ Ahead true tail link') := by
  by_cases he : front = []
  · subst he
    exact .inr ⟨some ([], stall), link, rfl, ⟨stall, rfl⟩, h⟩
  · have hl : front.length ≠ 0 := fun h => he (length_eq_zero_iff.mp h)
    unfold Proc.Gives readExactInterruptible
    rw [if_neg hl]
    obtain ⟨fin, hr⟩ :=
      readExactInterruptibleLoop_reads env deadlines limit link.script link stall [] front.length
    rcases hr.takes he h with hla | ⟨a, link', hres, ha, h'⟩
    · exact .inl hla
    · obtain ⟨⟨bytes, stall'⟩, rfl, hby⟩ := Option.map_eq_some_iff.mp ha
      exact .inr ⟨_, link', hres, ⟨stall', by rw [show bytes = front from hby]⟩, h'⟩

/-! A reader never takes a lapse back. -/

theorem readExactStalledWith_keeps (limit : Duration) (len : Nat) (stall : Option Instant) :
    Proc.Keeps Lapsed (readExactStalledWith env limit len stall) := by
  intro link h
  unfold readExactStalledWith
  split_ifs
  · exact h
  · obtain ⟨fin, hr⟩ := readExactStalledLoop_reads env limit link.script link stall [] len
    exact hr.onlyRead.lapsed h

theorem readExactInterruptible_keeps (deadlines : Deadlines) (limit : Duration) (len : Nat)
    (stall : Option Instant) :
    Proc.Keeps env.Ended (readExactInterruptible env deadlines limit len stall) := by
  intro link h
  unfold readExactInterruptible
  split_ifs
  · exact h
  · obtain ⟨fin, hr⟩ :=
      readExactInterruptibleLoop_reads env deadlines limit link.script link stall [] len
    exact h.imp_right hr.onlyRead.lapsed

theorem orFail_keeps {α : Type} {P : Link → Prop} (r : Except IpcError α) :
    Proc.Keeps P (orFail r) :=
  keeps_ofExcept _ _

/-! ## One frame -/

variable {frame : Frame}

theorem readFrame_gives (hf : frame.Fits) (h : Ahead false (frame.bytes ++ tail) link) :
    Proc.Gives (fun _ => False) readFrame link
      (fun r link' => r = (frame.header, frame.payload) ∧ Ahead false tail link') := by
  rw [bytes, append_assoc] at h
  have hh := readExact_gives h
  rw [length_encode] at hh
  refine hh.bind (fun _ _ => id) ?_
  rintro bytes link₁ ⟨rfl, h₁⟩
  refine (h₁.orFail (decodeBounded_header hf)).bind (fun _ _ => id) ?_
  rintro header link₂ ⟨rfl, h₂⟩
  rw [hf.len]
  refine (readExact_gives h₂).bind (fun _ _ => id) ?_
  rintro payload link₃ ⟨rfl, h₃⟩
  exact gives_pure ⟨rfl, h₃⟩

theorem readValidatedFrame_keeps (policy : ReceivePolicy) :
    Proc.Keeps Lapsed (readValidatedFrame env policy) :=
  (readExactStalledWith_keeps _ _ _).bind fun _ => (orFail_keeps _).bind fun _ =>
    (orFail_keeps _).bind fun _ => (readExactStalledWith_keeps _ _ _).bind fun _ =>
      keeps_pure _ _

theorem readValidatedFrame_gives {policy : ReceivePolicy} (hf : frame.Fits)
    (hac : policy.check frame.header = .ok ())
    (h : Ahead false (frame.bytes ++ tail) link) :
    Proc.Gives Lapsed (readValidatedFrame env policy) link
      (fun r link' => (r.1.header, r.2) = (frame.header, frame.payload) ∧
        Ahead false tail link') := by
  rw [bytes, append_assoc] at h
  have hh := readExactStalledWith_gives env appLinkIoDeadline none h
  rw [length_encode] at hh
  refine hh.bind (fun _ => (orFail_keeps _).bind fun _ => (orFail_keeps _).bind fun _ =>
    (readExactStalledWith_keeps _ _ _).bind fun _ => keeps_pure _ _) ?_
  rintro ⟨bytes, stall⟩ link₁ ⟨rfl, h₁⟩
  refine (h₁.orFail (decodeBounded_header hf)).bind (fun _ => (orFail_keeps _).bind fun _ =>
    (readExactStalledWith_keeps _ _ _).bind fun _ => keeps_pure _ _) ?_
  rintro header link₂ ⟨rfl, h₂⟩
  have hv : validateReceivedHeader policy frame.header = .ok ⟨frame.header, policy, hac⟩ :=
    validateReceivedHeader_ok.mpr ⟨hac, rfl⟩
  refine (h₂.orFail hv).bind
    (fun _ => (readExactStalledWith_keeps _ _ _).bind fun _ => keeps_pure _ _) ?_
  rintro validated link₃ ⟨rfl, h₃⟩
  rw [hf.len]
  refine (readExactStalledWith_gives env _ _ h₃).bind (fun _ => keeps_pure _ _) ?_
  rintro ⟨payload, stall'⟩ link₄ ⟨rfl, h₄⟩
  exact gives_pure ⟨rfl, h₄⟩

section Interruptible

variable {τ : Type} {deadlines : Deadlines} {limit : Duration}
variable {validate : FrameHeader → Except IpcError τ}

/-- What follows the header of an interruptible read. -/
theorem interruptible_tail_keeps (header : Option (List Byte × Option Instant)) :
    Proc.Keeps env.Ended (match header with
      | none => (pure none : Io (Option (τ × List Byte)))
      | some (bytes, stall) => do
        let header ← orFail (decodeBounded bytes)
        let validated ← orFail (validate header)
        match ← readExactInterruptible env { deadlines with idle := none } limit
          header.len.toNat stall with
        | none => return none
        | some (payload, _) => return some (validated, payload)) := by
  cases header with
  | none => exact keeps_pure _ _
  | some r =>
    refine (orFail_keeps _).bind fun _ => (orFail_keeps _).bind fun _ =>
      (readExactInterruptible_keeps _ _ _ _).bind fun payload => ?_
    cases payload <;> exact keeps_pure _ _

theorem readFrameInterruptibleValidatedWith_keeps :
    Proc.Keeps env.Ended (readFrameInterruptibleValidatedWith env deadlines limit validate) :=
  (readExactInterruptible_keeps _ _ _ _).bind interruptible_tail_keeps

theorem readFrameInterruptibleValidatedWith_gives {value : τ}
    (hf : frame.Fits) (hac : validate frame.header = .ok value)
    (h : Ahead true (frame.bytes ++ tail) link) :
    Proc.Gives env.Ended (readFrameInterruptibleValidatedWith env deadlines limit validate) link
      (fun r link' => r = some (value, frame.payload) ∧ Ahead true tail link') := by
  rw [bytes, append_assoc] at h
  have hh := readExactInterruptible_gives env deadlines limit none h
  rw [length_encode] at hh
  refine hh.bind interruptible_tail_keeps ?_
  rintro _ link₁ ⟨⟨stall, rfl⟩, h₁⟩
  have hke : ∀ (validated : τ) (payload : Option (List Byte × Option Instant)),
      Proc.Keeps env.Ended (match payload with
        | none => (pure none : Io (Option (τ × List Byte)))
        | some (payload, _) => pure (some (validated, payload))) := by
    intro validated payload
    cases payload <;> exact keeps_pure _ _
  refine (h₁.orFail (decodeBounded_header hf)).bind (fun _ => (orFail_keeps _).bind fun _ =>
    (readExactInterruptible_keeps _ _ _ _).bind (hke _)) ?_
  rintro header link₂ ⟨rfl, h₂⟩
  refine (h₂.orFail hac).bind (fun _ => (readExactInterruptible_keeps _ _ _ _).bind (hke _)) ?_
  rintro validated link₃ ⟨rfl, h₃⟩
  rw [hf.len]
  refine (readExactInterruptible_gives env _ _ _ h₃).bind (hke _) ?_
  rintro _ link₄ ⟨⟨stall', rfl⟩, h₄⟩
  exact gives_pure ⟨rfl, h₄⟩

/-- Minting the typed header validates a second time, with the same result. -/
theorem readValidatedFrameInterruptible_gives {hard : Option Instant} {policy : ReceivePolicy}
    (hfi : frame.Fits) (hac : policy.check frame.header = .ok ())
    (h : Ahead true (frame.bytes ++ tail) link) :
    Proc.Gives env.Ended (readValidatedFrameInterruptible env hard policy) link
      (fun r link' => r.map (fun v => (v.1.header, v.2)) = some (frame.header, frame.payload) ∧
        Ahead true tail link') := by
  have hv : validateReceivedHeader policy frame.header = .ok ⟨frame.header, policy, hac⟩ :=
    validateReceivedHeader_ok.mpr ⟨hac, rfl⟩
  have hf : (do let _ ← validateReceivedHeader policy frame.header; return frame.header) =
      Except.ok frame.header := by
    rw [hv]
    rfl
  have hmi : mintValidated policy (some (frame.header, frame.payload)) =
      .ok (some (⟨frame.header, policy, hac⟩, frame.payload)) := by
    rw [mintValidated, hv]
    rfl
  refine (readFrameInterruptibleValidatedWith_gives hfi hf h).bind (fun _ => orFail_keeps _) ?_
  rintro _ link' ⟨rfl, h'⟩
  refine (h'.orFail hmi).imp id ?_
  rintro ⟨r, link'', hr, rfl, h''⟩
  exact ⟨_, link'', hr, rfl, h''⟩

end Interruptible

end Readers

/-! ## A list of frames -/

/-- A list of frames lies in front of the link, and each of them is acceptable to the reader. -/
def Queued (polls : Bool) (accepts : Frame → Prop) (frames : List Frame) (link : Link) : Prop :=
  (∀ frame ∈ frames, frame.Fits ∧ accepts frame) ∧ Ahead polls (frames.flatMap bytes) link

/-- A reader that takes one acceptable frame off a link takes any queue of them off. -/
theorem Queued.read_all {accepts : Frame → Prop} {reader : Io α} {rel : Frame → α → Prop}
    (hke : Proc.Keeps escape reader)
    (ho : ∀ {frame : Frame} {tail : List Byte} {link : Link}, frame.Fits → accepts frame →
      Ahead polls (frame.bytes ++ tail) link →
      Proc.Gives escape reader link (fun r link' => rel frame r ∧ Ahead polls tail link'))
    {link : Link} (h : Queued polls accepts frames link)
    (hca : ¬ escape (reader.times frames.length link).2) :
    ∃ rs link', reader.times frames.length link = (.ok rs, link') ∧
      List.Forall₂ rel frames rs ∧ arriving link'.script = [] := by
  have hs : ∀ frame rest link, Queued polls accepts (frame :: rest) link →
      Proc.Gives escape reader link
        (fun r link' => rel frame r ∧ Queued polls accepts rest link') := by
    rintro frame rest link ⟨ha, hah⟩
    rw [forall_mem_cons] at ha
    rw [flatMap_cons] at hah
    refine (ho ha.1.1 ha.1.2 hah).imp id ?_
    rintro ⟨r, link', hr, hrel, h'⟩
    exact ⟨r, link', hr, hrel, ha.2, h'⟩
  rcases Proc.Gives.times hke hs frames h with hes | ⟨rs, link', hr, hrel, h'⟩
  · exact absurd hes hca
  · exact ⟨rs, link', hr, hrel, h'.2.data⟩

/-- What each reader returns of a frame. -/
def Frame.parts (frame : Frame) : FrameHeader × List Byte := (frame.header, frame.payload)

theorem map_eq_of_forall₂ {β γ : Type} {f : α → γ} {g : β → γ} {as : List α} {bs : List β}
    (h : List.Forall₂ (fun a b => g b = f a) as bs) : bs.map g = as.map f := by
  induction h with
  | nil => rfl
  | cons hab _ ih => rw [map_cons, map_cons, hab, ih]

/-- Frames that were written and cut into any runs of bytes are read back one by one, in order and
to the last byte, by each of the three readers, unless a deadline is reached or a stop requested;
and the header codec is a bijection onto the headers it accepts. -/
theorem frame_stream_round_trip :
    (∀ header : FrameHeader, decode header.encode = .ok header) ∧
    (∀ bytes header, bytes.length = headerLen → decode bytes = .ok header →
      header.encode = bytes) ∧
    ∀ (writer : Env) (frames : List Frame) (sent : Link),
      writeFrames writer frames (.fresh []) = (.ok (), sent) →
      ∀ (env : Env) (script : List Delivery), arriving script = sent.written →
        (Steady false script →
          ∃ link', readFrame.times frames.length (.fresh script) =
              (.ok (frames.map parts), link') ∧ arriving link'.script = []) ∧
        (∀ policy : ReceivePolicy, Steady false script →
          (∀ frame ∈ frames, policy.check frame.header = .ok ()) →
          ¬ Lapsed ((readValidatedFrame env policy).times frames.length (.fresh script)).2 →
          ∃ rs link', (readValidatedFrame env policy).times frames.length (.fresh script) =
              (.ok rs, link') ∧
            rs.map (fun r => (r.1.header, r.2)) = frames.map parts ∧
            arriving link'.script = []) ∧
        (∀ (τ : Type) (validate : FrameHeader → Except IpcError τ) (deadlines : Deadlines)
            (limit : Duration), Steady true script → ¬ env.Stops →
          (∀ frame ∈ frames, ∃ value, validate frame.header = .ok value) →
          ¬ Lapsed ((readFrameInterruptibleValidatedWith env deadlines limit validate).times
            frames.length (.fresh script)).2 →
          ∃ rs link', (readFrameInterruptibleValidatedWith env deadlines limit validate).times
              frames.length (.fresh script) = (.ok rs, link') ∧
            List.Forall₂ (fun frame r => ∃ value, validate frame.header = .ok value ∧
              r = some (value, frame.payload)) frames rs ∧
            arriving link'.script = []) ∧
        (∀ (policy : ReceivePolicy) (hard : Option Instant), Steady true script → ¬ env.Stops →
          (∀ frame ∈ frames, policy.check frame.header = .ok ()) →
          ¬ Lapsed ((readValidatedFrameInterruptible env hard policy).times frames.length
            (.fresh script)).2 →
          ∃ rs link', (readValidatedFrameInterruptible env hard policy).times frames.length
              (.fresh script) = (.ok rs, link') ∧
            rs.map (fun r => r.map (fun v => (v.1.header, v.2))) =
              frames.map (fun frame => some frame.parts) ∧
            arriving link'.script = []) := by
  refine ⟨decode_encode, fun _ _ => encode_decode, ?_⟩
  intro writer frames sent hse env script hscr
  obtain ⟨hfi, hw⟩ := writeFrames_ok hse
  have hda : arriving script = frames.flatMap bytes := by
    rw [hscr, hw]
    rfl
  have hqu : ∀ {polls : Bool} {accepts : Frame → Prop}, Steady polls script →
      (∀ frame ∈ frames, accepts frame) → Queued polls accepts frames (.fresh script) :=
    fun hst hac => ⟨fun f hf => ⟨hfi f hf, hac f hf⟩, hst, hda⟩
  refine ⟨?_, ?_, ?_, ?_⟩
  · intro hst
    have ha : Queued false (fun _ => True) frames (.fresh script) :=
      hqu hst (fun _ _ => trivial)
    obtain ⟨rs, link', hru, hrel, hre⟩ :=
      ha.read_all (fun _ => id) (fun hfi _ h => readFrame_gives hfi h) id
    rw [map_eq_of_forall₂ (f := parts) (g := id) hrel |>.symm, map_id]
    exact ⟨link', hru, hre⟩
  · intro policy hst hac hca
    obtain ⟨rs, link', hru, hrel, hre⟩ := (hqu hst hac).read_all
      (readValidatedFrame_keeps policy)
      (fun hfi hac h => readValidatedFrame_gives hfi hac h) hca
    exact ⟨rs, link', hru, map_eq_of_forall₂ hrel, hre⟩
  · intro τ validate deadlines limit hst hs hac hca
    refine (hqu hst hac).read_all readFrameInterruptibleValidatedWith_keeps ?_
      (fun h => h.elim hs hca)
    rintro frame tail link hfi ⟨value, hva⟩ h
    refine (readFrameInterruptibleValidatedWith_gives hfi hva h).imp id ?_
    rintro ⟨r, link', hru, hr, h'⟩
    exact ⟨r, link', hru, ⟨value, hva, hr⟩, h'⟩
  · intro policy hard hst hs hac hca
    obtain ⟨rs, link', hru, hrel, hre⟩ := (hqu hst hac).read_all
      (readFrameInterruptibleValidatedWith_keeps.bind fun _ => orFail_keeps _)
      (fun hfi hac h => readValidatedFrameInterruptible_gives hfi hac h)
      (fun h => h.elim hs hca)
    exact ⟨rs, link', hru, map_eq_of_forall₂ hrel, hre⟩

/-- A probe and a call, and the bytes of both cut inside the first header. -/
def sampleFrames : List Frame :=
  [⟨.ping, 0, ⟨0⟩, ⟨0⟩, []⟩, ⟨.call, 0, echo.id, ⟨7⟩, [1, 2, 3]⟩]

def sampleScript : List Delivery :=
  unread ((sampleFrames.flatMap bytes).take 5)
    (.failed .interrupted :: unread ((sampleFrames.flatMap bytes).drop 5) [])

/-- A machine whose clock stands still and whose writes all succeed. -/
def calmEnv : Env := ⟨fun _ => 0, 2 ^ 64, fun _ => false, fun _ => none⟩

theorem frame_stream_round_trip_sample :
    ∃ rs link', (readValidatedFrame calmEnv .primaryAppReceiver).times 2 (.fresh sampleScript) =
        (.ok rs, link') ∧
      rs.map (fun r => (r.1.header, r.2)) = sampleFrames.map parts ∧
      arriving link'.script = [] := by
  obtain ⟨-, -, hro⟩ := frame_stream_round_trip
  have hok : (writeFrames calmEnv sampleFrames (.fresh [])).1.isOk = true := by decide +kernel
  obtain ⟨sent, hse⟩ := returned_of_isOk hok
  have hscr : arriving sampleScript = sent.written := by
    rw [(writeFrames_ok hse).2]
    decide +kernel
  obtain ⟨-, hva, -⟩ := hro calmEnv sampleFrames sent hse calmEnv sampleScript hscr
  refine hva .primaryAppReceiver ?_ ?_ ?_
  · unfold Steady
    decide +kernel
  · decide +kernel
  · unfold Lapsed
    decide +kernel

end Keld.Ipc
