/-
# `Keld.Ipc.Staged` — a header is decided before its payload

Every validated reader is the same program over two reads: fill a header buffer,
decide the header, fill a payload buffer.  `Fill` is the pair of reads and
`Fill.read` the program, over any state, so that it can also be run with a
record of the buffers it allocates.  The readers of the link are instances
(`ValidatedReader.read_eq`), the one that mints its typed header included: the
second validation has the first one's result (`mint_validated_ok`).

The law says where a refusal leaves the stream: behind the sixteen bytes of the
header, whichever of the three decisions refused it.
-/
import Keld.Ipc.Handshake
import Keld.Ipc.Turns

namespace Keld.Ipc

open Proc FrameHeader

/-- An error of the stream or of a clock. -/
def IpcError.Transport : IpcError → Prop
  | .io _ => True
  | .timeout => True
  | _ => False

theorem IpcError.ofIo_transport (kind : ErrorKind) : (IpcError.ofIo kind).Transport := by
  cases kind <;> trivial

/-! ## The staged program -/

/-- How a reader fills the buffer of a header, and one of a declared length. -/
structure Fill (σ : Type) where
  header : Proc σ Halt (Option (List Byte × Option Instant))
  payload : Nat → Option Instant → Proc σ Halt (Option (List Byte × Option Instant))

/-- An error of the pure part, over any state. -/
def decided {σ α : Type} (r : Except IpcError α) : Proc σ Halt α :=
  ofExcept (r.mapError .failed)

namespace Fill

variable {σ τ : Type}

/-- Header, decision, payload. -/
def read (fill : Fill σ) (verdict : FrameHeader → Except IpcError τ) :
    Proc σ Halt (Option (τ × List Byte)) := do
  match ← fill.header with
  | none => return none
  | some (bytes, stall) =>
    let header ← decided (decodeBounded bytes)
    let value ← decided (verdict header)
    match ← fill.payload header.len.toNat stall with
    | none => return none
    | some (body, _) => return some (value, body)

/-- The same reads, with the length of every buffer that was allocated for one. -/
def recorded (fill : Fill σ) : Fill (σ × List Nat) where
  header := fun s => ((fill.header s.1).1, (fill.header s.1).2, s.2 ++ [headerLen])
  payload len stall := fun s =>
    ((fill.payload len stall s.1).1, (fill.payload len stall s.1).2, s.2 ++ [len])

/-- The buffers a read allocates. -/
def buffers (fill : Fill σ) (verdict : FrameHeader → Except IpcError τ) (s : σ) : List Nat :=
  (fill.recorded.read verdict (s, [])).2.2

/-- How a header is refused: its syntax is looked at first, then its declared length, then the
policy. -/
inductive Refuses (verdict : FrameHeader → Except IpcError τ) (bytes : List Byte) : IpcError → Prop
  | malformed {err : HeaderError} (undecoded : decode bytes = .error err) :
      Refuses verdict bytes (.header err)
  | oversized {header : FrameHeader} (decoded : decode bytes = .ok header)
      (large : maxFrameLen < header.len.toNat) : Refuses verdict bytes .payloadTooLarge
  | unadmitted {header : FrameHeader} {err : IpcError}
      (decoded : decode bytes = .ok header) (fits : header.len.toNat ≤ maxFrameLen)
      (refused : verdict header = .error err) : Refuses verdict bytes err

/-- How it is admitted. -/
structure Admits (verdict : FrameHeader → Except IpcError τ) (bytes : List Byte)
    (header : FrameHeader) (value : τ) : Prop where
  decoded : decode bytes = .ok header
  fits : header.len.toNat ≤ maxFrameLen
  admitted : verdict header = .ok value

theorem decodeBounded_malformed {bytes : List Byte} {err : HeaderError}
    (h : decode bytes = .error err) : decodeBounded bytes = .error (.header err) := by
  unfold decodeBounded
  rw [h]
  rfl

theorem decodeBounded_oversized {bytes : List Byte} {header : FrameHeader}
    (h : decode bytes = .ok header) (hla : maxFrameLen < header.len.toNat) :
    decodeBounded bytes = .error .payloadTooLarge := by
  have hen : ensurePayloadLen header.len.toNat = .error .payloadTooLarge := by
    unfold ensurePayloadLen
    rw [decide_eq_false (Nat.not_le.mpr hla)]
    rfl
  unfold decodeBounded
  rw [h]
  show (ensurePayloadLen header.len.toNat >>= fun _ => Except.ok header) = _
  rw [hen]
  rfl

theorem refuses_or_admits (verdict : FrameHeader → Except IpcError τ) (bytes : List Byte) :
    (∃ err, Refuses verdict bytes err) ∨ ∃ header value, Admits verdict bytes header value := by
  rcases hde : decode bytes with err | header
  · exact .inl ⟨_, .malformed hde⟩
  rcases Nat.lt_or_ge maxFrameLen header.len.toNat with hla | hf
  · exact .inl ⟨_, .oversized hde hla⟩
  rcases hvdt : verdict header with err | value
  · exact .inl ⟨_, .unadmitted hde hf hvdt⟩
  · exact .inr ⟨header, value, hde, hf, hvdt⟩

section Stages

variable {fill : Fill σ} {verdict : FrameHeader → Except IpcError τ} {s s' : σ}
variable {bytes : List Byte} {stall : Option Instant}

variable {α : Type} {r : Except IpcError α}

theorem decided_ok {a : α} (h : r = .ok a) (s : σ) :
    (decided r : Proc σ Halt α) s = (.ok a, s) := by
  rw [h]
  rfl

theorem decided_error {err : IpcError} (h : r = .error err) (s : σ) :
    (decided r : Proc σ Halt α) s = (.error (.failed err), s) := by
  rw [h]
  rfl

theorem read_unheard {halt : Halt} (h : fill.header s = (.error halt, s')) :
    fill.read verdict s = (.error halt, s') := bind_run_error h

theorem read_stopped (h : fill.header s = (.ok none, s')) :
    fill.read verdict s = (.ok none, s') := bind_run_ok h

/-- A refused header ends the read. -/
theorem read_refused (h : fill.header s = (.ok (some (bytes, stall)), s')) {err : IpcError}
    (href : Refuses verdict bytes err) : fill.read verdict s = (.error (.failed err), s') := by
  refine (bind_run_ok h).trans ?_
  cases href with
  | malformed undecoded =>
    exact bind_run_error (decided_error (decodeBounded_malformed undecoded) s')
  | oversized decoded large =>
    exact bind_run_error (decided_error (decodeBounded_oversized decoded large) s')
  | unadmitted decoded fits refused =>
    exact (bind_run_ok (decided_ok (decodeBounded_ok.mpr ⟨decoded, fits⟩) s')).trans
      (bind_run_error (decided_error refused s'))

theorem read_admitted (h : fill.header s = (.ok (some (bytes, stall)), s')) {header : FrameHeader}
    {value : τ} (ha : Admits verdict bytes header value) :
    fill.read verdict s =
      (fill.payload header.len.toNat stall >>= fun payload =>
        match payload with
        | none => pure none
        | some (body, _) => pure (some (value, body))) s' :=
  (bind_run_ok h).trans
    ((bind_run_ok (decided_ok (decodeBounded_ok.mpr ⟨ha.decoded, ha.fits⟩) s')).trans
      (bind_run_ok (decided_ok ha.admitted s')))

theorem recorded_header {r : Except Halt (Option (List Byte × Option Instant))}
    (h : fill.header s = (r, s')) (sizes : List Nat) :
    fill.recorded.header (s, sizes) = (r, (s', sizes ++ [headerLen])) := by
  show ((fill.header s).1, (fill.header s).2, sizes ++ [headerLen]) = _
  rw [h]

theorem recorded_payload {r : Except Halt (Option (List Byte × Option Instant))} {len : Nat}
    (h : fill.payload len stall s = (r, s')) (sizes : List Nat) :
    fill.recorded.payload len stall (s, sizes) = (r, (s', sizes ++ [len])) := by
  show ((fill.payload len stall s).1, (fill.payload len stall s).2, sizes ++ [len]) = _
  rw [h]

/-- The record changes nothing, and it holds the header's buffer and, for an admitted header, one
of the length it declares. -/
theorem recorded_read (fill : Fill σ) (verdict : FrameHeader → Except IpcError τ) (s : σ) :
    ((fill.recorded.read verdict (s, [])).1, (fill.recorded.read verdict (s, [])).2.1) =
        fill.read verdict s ∧
      (fill.buffers verdict s = [headerLen] ∨
        ∃ bytes stall s' header value, fill.header s = (.ok (some (bytes, stall)), s') ∧
          Admits verdict bytes header value ∧
          fill.buffers verdict s = [headerLen, header.len.toNat]) := by
  unfold buffers
  rcases hh : fill.header s with ⟨halt | _ | ⟨bytes, stall⟩, s'⟩
  · rw [read_unheard (recorded_header hh []), read_unheard hh]
    exact ⟨rfl, .inl rfl⟩
  · rw [read_stopped (recorded_header hh []), read_stopped hh]
    exact ⟨rfl, .inl rfl⟩
  rcases refuses_or_admits verdict bytes with ⟨err, hre⟩ | ⟨header, value, ha⟩
  · rw [read_refused (recorded_header hh []) hre, read_refused hh hre]
    exact ⟨rfl, .inl rfl⟩
  rw [read_admitted (recorded_header hh []) ha, read_admitted hh ha]
  rcases hb : fill.payload header.len.toNat stall s' with ⟨halt | _ | ⟨body, stall'⟩, s''⟩
  · rw [bind_run_error (recorded_payload hb _), bind_run_error hb]
    exact ⟨rfl, .inr ⟨bytes, stall, s', header, value, rfl, ha, rfl⟩⟩
  · rw [bind_run_ok (recorded_payload hb _), bind_run_ok hb]
    exact ⟨rfl, .inr ⟨bytes, stall, s', header, value, rfl, ha, rfl⟩⟩
  · rw [bind_run_ok (recorded_payload hb _), bind_run_ok hb]
    exact ⟨rfl, .inr ⟨bytes, stall, s', header, value, rfl, ha, rfl⟩⟩

/-- What is done with an admitted frame is as good as a part of its admission. -/
theorem read_post {τ' : Type} {verdict' : FrameHeader → Except IpcError τ'}
    {post : Option (τ × List Byte) → Proc σ Halt (Option (τ' × List Byte))}
    (hn : post none = pure none)
    (href : ∀ header err, verdict header = .error err → verdict' header = .error err)
    (had : ∀ header value, verdict header = .ok value →
      ∃ value', verdict' header = .ok value' ∧ ∀ body, post (some (value, body)) = pure (some (value', body))) :
    fill.read verdict >>= post = fill.read verdict' := by
  funext s
  rcases hh : fill.header s with ⟨halt | _ | ⟨bytes, stall⟩, s'⟩
  · exact (bind_run_error (read_unheard hh)).trans (read_unheard hh).symm
  · rw [bind_run_ok (read_stopped hh), hn, read_stopped hh]
    rfl
  rcases refuses_or_admits verdict bytes with ⟨err, hre⟩ | ⟨header, value, ha⟩
  · have hre' : Refuses verdict' bytes err := by
      cases hre with
      | malformed undecoded => exact .malformed undecoded
      | oversized decoded large => exact .oversized decoded large
      | unadmitted decoded fits refused => exact .unadmitted decoded fits (href _ _ refused)
    exact (bind_run_error (read_refused hh hre)).trans (read_refused hh hre').symm
  obtain ⟨value', hva', hp⟩ := had header value ha.admitted
  have ha' : Admits verdict' bytes header value' := ⟨ha.decoded, ha.fits, hva'⟩
  rw [read_admitted hh ha']
  rcases hb : fill.payload header.len.toNat stall s' with ⟨halt | _ | ⟨body, stall'⟩, s''⟩
  · have hr : fill.read verdict s = (.error halt, s'') :=
      (read_admitted hh ha).trans (bind_run_error hb)
    rw [bind_run_error hr, bind_run_error hb]
  · have hr : fill.read verdict s = (.ok none, s'') := (read_admitted hh ha).trans (bind_run_ok hb)
    rw [bind_run_ok hr, hn, bind_run_ok hb]
  · have hr : fill.read verdict s = (.ok (some (value, body)), s'') :=
      (read_admitted hh ha).trans (bind_run_ok hb)
    rw [bind_run_ok hr, hp, bind_run_ok hb]

end Stages

/-! ## Reads of a link -/

/-- What the reads of a link rely on: a buffer that was filled holds the next bytes of the stream,
and what fails is the transport. -/
structure Lawful (fill : Fill Link) : Prop where
  header : ∀ {link bytes stall link'}, fill.header link = (.ok (some (bytes, stall)), link') →
    bytes.length = headerLen ∧ arriving link.script = bytes ++ arriving link'.script
  headerFails : ∀ {link err link'}, fill.header link = (.error (.failed err), link') →
    err.Transport
  payload : ∀ {len stall link body stall' link'},
    fill.payload len stall link = (.ok (some (body, stall')), link') →
    body.length = len ∧ arriving link.script = body ++ arriving link'.script
  payloadFails : ∀ {len stall link err link'},
    fill.payload len stall link = (.error (.failed err), link') → err.Transport

variable {τ : Type} {fill : Fill Link} {verdict : FrameHeader → Except IpcError τ} {link : Link}

/-- A failure that is not the transport's refused the header, behind it. -/
theorem Lawful.refused (hlaw : fill.Lawful) {err : IpcError}
    (he : (fill.read verdict link).1 = .error (.failed err)) (hnot : ¬ err.Transport) :
    ∃ bytes, bytes.length = headerLen ∧
      arriving link.script = bytes ++ arriving (fill.read verdict link).2.script ∧
      Refuses verdict bytes err := by
  rcases hh : fill.header link with ⟨halt | _ | ⟨bytes, stall⟩, link'⟩
  · rw [read_unheard hh] at he
    cases he
    exact absurd (hlaw.headerFails hh) hnot
  · rw [read_stopped hh] at he
    cases he
  obtain ⟨hl, hfr⟩ := hlaw.header hh
  rcases refuses_or_admits verdict bytes with ⟨err', hre⟩ | ⟨header, value, ha⟩
  · rw [read_refused hh hre] at he ⊢
    cases he
    exact ⟨bytes, hl, hfr, hre⟩
  · rw [read_admitted hh ha] at he
    rcases hb : fill.payload header.len.toNat stall link' with
      ⟨halt | _ | ⟨body, stall'⟩, link''⟩
    · rw [bind_run_error hb] at he
      cases he
      exact absurd (hlaw.payloadFails hb) hnot
    · rw [bind_run_ok hb] at he
      cases he
    · rw [bind_run_ok hb] at he
      cases he

/-- A frame that was returned was admitted and taken whole. -/
theorem Lawful.returned (hlaw : fill.Lawful) {value : τ} {payload : List Byte}
    (hok : (fill.read verdict link).1 = .ok (some (value, payload))) :
    ∃ bytes header, bytes.length = headerLen ∧ Admits verdict bytes header value ∧
      payload.length = header.len.toNat ∧
      arriving link.script = bytes ++ payload ++ arriving (fill.read verdict link).2.script := by
  rcases hh : fill.header link with ⟨halt | _ | ⟨bytes, stall⟩, link'⟩
  · rw [read_unheard hh] at hok
    cases hok
  · rw [read_stopped hh] at hok
    cases hok
  obtain ⟨hl, hfr⟩ := hlaw.header hh
  rcases refuses_or_admits verdict bytes with ⟨err', hre⟩ | ⟨header, value', ha⟩
  · rw [read_refused hh hre] at hok
    cases hok
  · rw [read_admitted hh ha] at hok ⊢
    rcases hb : fill.payload header.len.toNat stall link' with
      ⟨halt | _ | ⟨body, stall'⟩, link''⟩
    · rw [bind_run_error hb] at hok
      cases hok
    · rw [bind_run_ok hb] at hok
      cases hok
    · rw [bind_run_ok hb] at hok ⊢
      cases hok
      obtain ⟨hbodyLen, hbodyFront⟩ := hlaw.payload hb
      refine ⟨bytes, header, hl, ha, hbodyLen, ?_⟩
      rw [hfr, hbodyFront, List.append_assoc]
      rfl

end Fill

/-! ## The loops are lawful -/

section Loops

variable {env : Env} {limit : Duration}

variable {deadlines : Deadlines}

theorem Turn.Ends.transport {turn : Turn} {err : IpcError} {link : Link}
    (h : turn.Ends env deadlines limit (.error (.failed err), link)) : err.Transport := by
  cases h with
  | failed begins met other unexpired => exact IpcError.ofIo_transport _
  | late | stalled | eof | endless | stalledPoll => trivial

theorem readExactInterruptible_failed {len : Nat} {stall : Option Instant} {link link' : Link}
    {err : IpcError}
    (h : readExactInterruptible env deadlines limit len stall link = (.error (.failed err), link'))
    : err.Transport := by
  unfold readExactInterruptible at h
  split_ifs at h with hl
  · cases h
  · obtain ⟨last, -, he⟩ := Turn.run_ends env deadlines limit ⟨link, stall, [], len, link.script⟩
    have hr : Turn.run env deadlines limit ⟨link, stall, [], len, link.script⟩ =
        (.error (.failed err), link') := h
    rw [hr] at he
    exact he.transport

theorem readExactStalledLoop_failed {script : List Delivery} {link link' : Link}
    {stall : Option Instant} {filled : List Byte} {need : Nat} {err : IpcError}
    (h : readExactStalledLoop env limit link stall filled need script =
      (.error (.failed err), link')) : err.Transport := by
  induction script generalizing link stall filled need with
  | nil =>
    unfold readExactStalledLoop at h
    split_ifs at h with hla
    · cases h
      trivial
    · cases h
  | cons delivery rest ih =>
    unfold readExactStalledLoop at h
    split_ifs at h with hla
    · cases h
      trivial
    cases delivery with
    | eof =>
      cases h
      trivial
    | bytes first more =>
      dsimp only at h
      split at h
      · cases h
        trivial
      · split_ifs at h with heno
        · cases h
        · exact ih h
    | failed kind =>
      dsimp only at h
      split_ifs at h
      · exact ih h
      · cases h
        exact IpcError.ofIo_transport kind

theorem readExactStalledWith_transport {len : Nat} {stall : Option Instant} {link link' : Link}
    {err : IpcError}
    (h : readExactStalledWith env limit len stall link = (.error (.failed err), link')) :
    err.Transport := by
  unfold readExactStalledWith at h
  split_ifs at h with hl
  · cases h
  · exact readExactStalledLoop_failed h

/-- The reads of `read_validated_frame`. -/
def stalledFill (env : Env) : Fill Link where
  header := do return some (← readExactStalledWith env appLinkIoDeadline headerLen none)
  payload len stall := do return some (← readExactStalledWith env appLinkIoDeadline len stall)

/-- The reads of the interruptible readers. -/
def interruptibleFill (env : Env) (deadlines : Deadlines) : Fill Link where
  header := readExactInterruptible env deadlines appLinkIoDeadline headerLen none
  payload := readExactInterruptible env { deadlines with idle := none } appLinkIoDeadline

theorem stalledFill_run {len : Nat} {stall : Option Instant} {link link' : Link}
    {bytes : List Byte} {stall' : Option Instant}
    (h : (do return some (← readExactStalledWith env appLinkIoDeadline len stall) :
      Io (Option (List Byte × Option Instant))) link = (.ok (some (bytes, stall')), link')) :
    bytes.length = len ∧ arriving link.script = bytes ++ arriving link'.script := by
  obtain ⟨r, link₁, hr, hpu⟩ := bind_ok_iff.mp h
  cases hpu
  exact readExactStalledWith_ok hr

theorem stalledFill_fails {len : Nat} {stall : Option Instant} {link link' : Link} {err : IpcError}
    (h : (do return some (← readExactStalledWith env appLinkIoDeadline len stall) :
      Io (Option (List Byte × Option Instant))) link = (.error (.failed err), link')) :
    err.Transport := by
  rcases bind_error_iff.mp h with hr | ⟨r, link₁, hr, hpu⟩
  · exact readExactStalledWith_transport hr
  · cases hpu

theorem stalledFill_lawful (env : Env) : (stalledFill env).Lawful where
  header := fun h => stalledFill_run h
  headerFails := fun h => stalledFill_fails h
  payload := fun h => stalledFill_run h
  payloadFails := fun h => stalledFill_fails h

theorem interruptibleFill_lawful (env : Env) (deadlines : Deadlines) :
    (interruptibleFill env deadlines).Lawful where
  header := fun h => readExactInterruptible_ok h
  headerFails := by
    intro link err link' h
    exact readExactInterruptible_failed
      (show readExactInterruptible env deadlines appLinkIoDeadline headerLen none link = _ from h)
  payload := fun h => readExactInterruptible_ok h
  payloadFails := fun h => readExactInterruptible_failed h

end Loops

/-! ## The readers -/

/-- `read_primary_app_frame_interruptible_with_admission`. -/
def readPrimaryAppFrame (env : Env) (pending : Option CorrelationId) (calls : List ChannelEntry)
    (admission : ChannelEntry → CorrelationId → GuardedCallAdmission) :
    Io (Option ((ValidatedFrameHeader × GuardedCallAdmission) × List Byte)) :=
  readFrameInterruptibleValidatedWith env ⟨none, none⟩ appLinkIoDeadline
    (validatePrimaryAppAdmission pending calls admission)

/-- `read_quit_drain_frame_with_privileged_calls`; its stop flag is never set. -/
def readQuitDrainFrame (env : Env) (calls : List ChannelEntry) (idle hard : Instant) :
    Io (Option (ValidatedFrameHeader × List Byte)) :=
  readFrameInterruptibleValidatedWith { env with stop := fun _ => false } ⟨some hard, some idle⟩
    appLinkIoDeadline (validatePrimaryAppHeaderWithPrivilegedCalls none calls)

/-- The readers that validate a header before its payload. -/
inductive ValidatedReader
  | validated (policy : ReceivePolicy)
  | interruptible (hard : Option Instant) (policy : ReceivePolicy)
  | primary (pending : Option CorrelationId) (calls : List ChannelEntry)
      (admission : ChannelEntry → CorrelationId → GuardedCallAdmission)
  | quitDrain (calls : List ChannelEntry) (idle hard : Instant)

namespace ValidatedReader

/-- A frame whose reader asks no owner of a guarded channel. -/
def plain (frame : ValidatedFrameHeader × List Byte) :
    (ValidatedFrameHeader × GuardedCallAdmission) × List Byte := ((frame.1, .admitted), frame.2)

def read (env : Env) :
    ValidatedReader → Io (Option ((ValidatedFrameHeader × GuardedCallAdmission) × List Byte))
  | validated policy => do return some (plain (← readValidatedFrame env policy))
  | interruptible hard policy => do
    return (← readValidatedFrameInterruptible env hard policy).map plain
  | primary pending calls admission => readPrimaryAppFrame env pending calls admission
  | quitDrain calls idle hard => do
    return (← readQuitDrainFrame env calls idle hard).map plain

/-- The decision on a header that was decoded and is not too long. -/
def verdict : ValidatedReader → FrameHeader →
    Except IpcError (ValidatedFrameHeader × GuardedCallAdmission)
  | validated policy, header => do return (← validateReceivedHeader policy header, .admitted)
  | interruptible _ policy, header => do return (← validateReceivedHeader policy header, .admitted)
  | primary pending calls admission, header =>
    validatePrimaryAppAdmission pending calls admission header
  | quitDrain calls _ _, header => do
    return (← validatePrimaryAppHeaderWithPrivilegedCalls none calls header, .admitted)

def fill (env : Env) : ValidatedReader → Fill Link
  | validated _ => stalledFill env
  | interruptible hard _ => interruptibleFill env ⟨hard, none⟩
  | primary _ _ _ => interruptibleFill env ⟨none, none⟩
  | quitDrain _ idle hard =>
    interruptibleFill { env with stop := fun _ => false } ⟨some hard, some idle⟩

theorem fill_lawful (env : Env) (reader : ValidatedReader) : (reader.fill env).Lawful := by
  cases reader with
  | validated policy => exact stalledFill_lawful env
  | interruptible | primary => exact interruptibleFill_lawful env _
  | quitDrain calls idle hard => exact interruptibleFill_lawful _ _

variable {α : Type} {header : FrameHeader} {v : ValidatedFrameHeader}

theorem orFail_eq (r : Except IpcError α) : orFail r = decided r := by
  cases r <;> rfl

theorem orFail_bind_congr {β : Type} (r : Except IpcError α) {f g : α → Proc Link Halt β}
    (h : ∀ a, f a = g a) : orFail r >>= f = decided r >>= g :=
  (congrArg (· >>= f) (orFail_eq r)).trans (bind_congr h)

/-- The interruptible frame reader is the staged program. -/
theorem interruptible_eq {τ : Type} (env : Env) (deadlines : Deadlines)
    (validate : FrameHeader → Except IpcError τ) :
    readFrameInterruptibleValidatedWith env deadlines appLinkIoDeadline validate =
      (interruptibleFill env deadlines).read validate := by
  refine bind_congr fun header => ?_
  rcases header with _ | ⟨bytes, stall⟩
  · rfl
  refine orFail_bind_congr _ fun header => orFail_bind_congr _ fun value => ?_
  refine bind_congr fun payload => ?_
  rcases payload with _ | ⟨body, stall'⟩ <;> rfl

theorem stalled_eq (env : Env) (policy : ReceivePolicy) :
    (do return some (← readValidatedFrame env policy)) =
      (stalledFill env).read (validateReceivedHeader policy) := by
  unfold readValidatedFrame Fill.read stalledFill
  simp only [bind_assoc, pure_bind, orFail_eq]

theorem mint_validated_ok {policy : ReceivePolicy}
    (h : validateReceivedHeader policy header = .ok v) (payload : List Byte) :
    mintValidated policy (some (header, payload)) = .ok (some (v, payload)) := by
  unfold mintValidated
  dsimp only
  rw [h]
  rfl

/-- Admission without an owner to ask. -/
theorem plain_read (fill : Fill Link)
    (verdict : FrameHeader → Except IpcError ValidatedFrameHeader) :
    (do return (← fill.read verdict).map plain) =
      fill.read fun header => do return (← verdict header, .admitted) := by
  refine Fill.read_post rfl ?_ ?_
  · intro header err h
    rw [h]
    rfl
  · intro header v h
    refine ⟨(v, .admitted), ?_, fun body => rfl⟩
    rw [h]
    rfl

/-- The reader that mints is the staged program of its policy. -/
theorem minting_eq (env : Env) (hard : Option Instant) (policy : ReceivePolicy) :
    readValidatedFrameInterruptible env hard policy =
      (interruptibleFill env ⟨hard, none⟩).read (validateReceivedHeader policy) := by
  unfold readValidatedFrameInterruptible
  rw [interruptible_eq]
  refine Fill.read_post rfl ?_ ?_
  · intro header err h
    rcases hv : validateReceivedHeader policy header with err' | v
    · rw [hv] at h
      cases h
      rfl
    · rw [hv] at h
      cases h
  · intro header kept h
    obtain ⟨v, hv, hk⟩ := bind_ok.mp h
    cases hk
    exact ⟨v, hv, fun body => by rw [mint_validated_ok hv]; rfl⟩

/-- Every validated reader is the staged program over its own reads. -/
theorem read_eq (env : Env) (reader : ValidatedReader) :
    reader.read env = (reader.fill env).read reader.verdict := by
  cases reader with
  | validated policy =>
    refine Eq.trans ?_ (plain_read (stalledFill env) (validateReceivedHeader policy))
    rw [← stalled_eq]
    simp only [bind_assoc, pure_bind]
    rfl
  | interruptible hard policy =>
    refine Eq.trans ?_ (plain_read (interruptibleFill env ⟨hard, none⟩)
      (validateReceivedHeader policy))
    rw [← minting_eq]
    rfl
  | primary pending calls admission => exact interruptible_eq env _ _
  | quitDrain calls idle hard =>
    refine Eq.trans ?_ (plain_read (interruptibleFill { env with stop := fun _ => false }
      ⟨some hard, some idle⟩) (validatePrimaryAppHeaderWithPrivilegedCalls none calls))
    rw [← interruptible_eq]
    rfl

theorem primary_header {pending : Option CorrelationId} {calls : List ChannelEntry}
    (h : validatePrimaryAppHeaderWithPrivilegedCalls pending calls header = .ok v) :
    v.header = header := by
  have hk : ∀ {policy}, validateReceivedHeader policy header = .ok v → v.header = header :=
    fun hv => (validateReceivedHeader_ok.mp hv).2
  unfold validatePrimaryAppHeaderWithPrivilegedCalls at h
  split at h
  · split at h
    · cases h
    · exact hk h
  · split at h
    · cases h
    · exact hk h
  · split_ifs at h with hw
    · exact hk h
    · split at h
      · obtain ⟨policy, -, hv⟩ := bind_ok.mp h
        exact hk hv
      · exact hk h
  · exact hk h

/-- An admission keeps the header it was asked about, and passes no session rejection on. -/
theorem verdict_ok {reader : ValidatedReader} {outcome : GuardedCallAdmission}
    (h : reader.verdict header = .ok (v, outcome)) :
    v.header = header ∧ outcome ≠ .rejectSession := by
  cases reader with
  | validated | interruptible =>
    obtain ⟨v', hv, hpa⟩ := bind_ok.mp h
    cases hpa
    exact ⟨(validateReceivedHeader_ok.mp hv).2, nofun⟩
  | primary pending calls admission =>
    obtain ⟨v', hv, hr⟩ := bind_ok.mp h
    obtain ⟨hre, hpa⟩ := bind_unit_ok.mp hr
    cases hpa
    exact ⟨primary_header hv, bne_iff_ne.mp (require_ok.mp hre)⟩
  | quitDrain calls idle hard =>
    obtain ⟨v', hv, hpa⟩ := bind_ok.mp h
    cases hpa
    exact ⟨primary_header hv, nofun⟩

/-- Whatever the stream and its chunking, a validated reader that fails for another reason than the
transport refused a header and has taken exactly its sixteen bytes; every header refused in one of
the three ways, tried in this order, is refused so; no buffer is allocated but the header's and one
of the declared length, at most `MAX_FRAME_LEN`, for an admitted header; a frame that is returned,
at capacity or not, was taken whole; and minting a validated frame cannot fail. -/
theorem staged_rejection (env : Env) (reader : ValidatedReader) (link : Link) :
    let result := reader.read env link
    (∀ err, result.1 = .error (.failed err) → ¬ err.Transport →
      ∃ bytes, bytes.length = headerLen ∧
        arriving link.script = bytes ++ arriving result.2.script ∧
        Fill.Refuses reader.verdict bytes err) ∧
    (∀ bytes stall link', (reader.fill env).header link = (.ok (some (bytes, stall)), link') →
      bytes.length = headerLen ∧ arriving link.script = bytes ++ arriving link'.script ∧
      ∀ err, Fill.Refuses reader.verdict bytes err →
        result = (.error (.failed err), link') ∧
        (reader.fill env).buffers reader.verdict link = [headerLen]) ∧
    ((reader.fill env).buffers reader.verdict link = [headerLen] ∨
      ∃ bytes header admitted, bytes <+: arriving link.script ∧ bytes.length = headerLen ∧
        Fill.Admits reader.verdict bytes header admitted ∧
        (reader.fill env).buffers reader.verdict link = [headerLen, header.len.toNat]) ∧
    (∀ v outcome payload, result.1 = .ok (some ((v, outcome), payload)) →
      reader.verdict v.header = .ok (v, outcome) ∧ outcome ≠ .rejectSession ∧
      payload.length = v.header.len.toNat ∧ payload.length ≤ maxFrameLen ∧
      arriving link.script = v.header.encode ++ payload ++ arriving result.2.script) ∧
    ∀ hard policy header payload link',
      readFrameInterruptibleValidatedWith env ⟨hard, none⟩ appLinkIoDeadline
        (fun header => do
          let _ ← validateReceivedHeader policy header
          return header) link = (.ok (some (header, payload)), link') →
      ∃ v, mintValidated policy (some (header, payload)) = .ok (some (v, payload)) ∧
        v.header = header := by
  intro result
  have hres : result = (reader.fill env).read reader.verdict link :=
    congrFun (read_eq env reader) link
  have hlaw := reader.fill_lawful env
  refine ⟨?_, ?_, ?_, ?_, ?_⟩
  · intro err he hnot
    rw [hres] at he ⊢
    exact hlaw.refused he hnot
  · intro bytes stall link' hh
    obtain ⟨hl, hfr⟩ := hlaw.header hh
    refine ⟨hl, hfr, fun err hre => ⟨?_, ?_⟩⟩
    · rw [hres]
      exact Fill.read_refused hh hre
    · have hrecd := Fill.read_refused (Fill.recorded_header hh []) hre
      exact congrArg (fun r => r.2.2) hrecd
  · obtain ⟨-, ho | ⟨bytes, stall, link', header, admitted, hh, ha, htwo⟩⟩ :=
      (reader.fill env).recorded_read reader.verdict link
    · exact .inl ho
    · obtain ⟨hl, hfr⟩ := hlaw.header hh
      exact .inr ⟨bytes, header, admitted, ⟨_, hfr.symm⟩, hl, ha, htwo⟩
  · intro v outcome payload hok
    rw [hres] at hok ⊢
    obtain ⟨bytes, header, hl, ha, hpay, hfr⟩ := hlaw.returned hok
    obtain ⟨rfl, hou⟩ := verdict_ok ha.admitted
    have hf := ha.fits
    rw [encode_decode hl ha.decoded]
    exact ⟨ha.admitted, hou, hpay, hpay ▸ hf, hfr⟩
  · intro hard policy header payload link' hr
    rw [interruptible_eq] at hr
    obtain ⟨bytes, declared, -, ha, -⟩ :=
      (interruptibleFill_lawful env ⟨hard, none⟩).returned (congrArg Prod.fst hr)
    obtain ⟨v, hv, hk⟩ := bind_ok.mp ha.admitted
    cases hk
    exact ⟨v, mint_validated_ok hv payload, (validateReceivedHeader_ok.mp hv).2⟩

end ValidatedReader

end Keld.Ipc
