/-
# `Keld.Session.QuitDrain` — calls that arrive after an accepted Quit

The drain reads on until the role ends the link, and answers each CALL on a
channel that declares ERR with `KELD-IPC-024`.  It reads under the policy of the
live session, except that no echo reply is pending any more: the REPLY or ERR of
a host echo call that was in flight is not admitted, and ends the drain.

What the role sent is a list of frames and a script that carries their bytes in
any chunking.  A poll that expires between two frames is a pause.  `Heard` is
what one read makes of the frames that are left, and `Drained` what the drain
makes of all of them, by induction on its turns.
-/
import Keld.Auth.Registry
import Keld.Ipc.Deadlines
import Keld.Ipc.Staged
import Keld.Lib.Postcard
import Keld.Lib.Text

namespace Keld.Session

open List Ipc

open Auth (CallError)

open Ipc.FrameTurn (Reaches)

/-! ## The drain -/

/-- `APP_LINK_READER_POLL`, 200 milliseconds. -/
def appLinkReaderPoll : Duration := 200 * 1000000

def hostAnswerBudget : Duration := appLinkReaderPoll

/-- `CallError::quit_drained`. -/
def quitDrained : CallError where
  code := "KELD-IPC-024"
  message := "KELD-IPC-024: session ended by an accepted Quit before this call completed. " ++
    "The application is quitting: do not issue new work; finish only the shutdown path."

def encodeText (text : String) : List Byte := leb128 (utf8 text).length ++ utf8 text

/-- `encode` of a `CallError`: its two texts. -/
def encodeError (error : CallError) : List Byte :=
  encodeText error.code ++ encodeText error.message

/-- The frame of `write_call_error`. -/
def callErrorFrame (error : CallError) (call : ChannelId × CorrelationId) : Frame :=
  ⟨.err, 0, call.1, call.2, encodeError error⟩

/-- What the drain finds around it. -/
structure Host where
  env : Env
  /-- the session has its filesystem service -/
  fs : Bool
  /-- and its auth service, on macOS -/
  auth : Bool
  /-- after so many readings of the clock, the attempt is still the current one -/
  current : Nat → Bool
  /-- and the writer takes a new write deadline -/
  deadlineSet : Nat → Bool

inductive QuitDrainEnd
  | peerClosed
  | idleBackstop
  | deadline
  | notAdmitted
  | answerLost
  | generationGone
deriving DecidableEq

namespace Host

variable (host : Host)

def privilegedCalls : List ChannelEntry :=
  if host.auth then
    if host.fs then [Ipc.fs, Ipc.auth] else [Ipc.auth]
  else if host.fs then [Ipc.fs] else []

def declaresErr (header : FrameHeader) : Bool :=
  header.channel == lifecycle.id || header.channel == window.id ||
    host.privilegedCalls.any (·.id == header.channel)

/-- The answers of `write_best_effort_answers`; none is attempted after one that failed. -/
def writeAnswers (error : CallError) : List (ChannelId × CorrelationId) → Link → Bool × Link
  | [], link => (true, link)
  | call :: calls, link =>
    match writeFrame host.env (callErrorFrame error call) link with
    | (.ok (), link) => writeAnswers error calls link
    | (.error _, link) => (false, link)

def writeBestEffortAnswers (calls : List (ChannelId × CorrelationId)) (error : CallError)
    (link : Link) : Bool × Link :=
  if host.deadlineSet link.readings then host.writeAnswers error calls link else (false, link)

/-- `drain_calls_after_quit`, for so many turns of its loop; it has not ended when they run out or
a read does not return. -/
def drainCallsAfterQuit (idle hard : Instant) : Nat → Link → Option QuitDrainEnd × Link
  | 0, link => (none, link)
  | fuel + 1, link =>
    match readQuitDrainFrame host.env host.privilegedCalls idle hard link with
    | (.ok none, link) => (some .idleBackstop, link)
    | (.error .waiting, link) => (none, link)
    | (.error (.failed (.io _)), link) => (some .peerClosed, link)
    | (.error (.failed .timeout), link) => (some .deadline, link)
    | (.error (.failed _), link) => (some .notAdmitted, link)
    | (.ok (some (validated, _)), link) =>
      let header := validated.header
      if header.kind ≠ .call ∨ ¬ host.declaresErr header then
        drainCallsAfterQuit idle hard fuel link
      else if ¬ host.current link.readings then (some .generationGone, link)
      else
        match host.writeBestEffortAnswers [(header.channel, header.corr)] quitDrained link with
        | (true, link) => drainCallsAfterQuit idle hard fuel link
        | (false, link) => (some .answerLost, link)

/-- The stop flag of the drain is never set. -/
def quiet : Env := { host.env with stop := fun _ => false }

/-- The deadlines that `answer_calls_after_quit` gives a drain that starts now. -/
def deadlines (started : Instant) : Deadlines :=
  ⟨some (started + appLinkIoDeadline), some (started + hostAnswerBudget)⟩

def verdict : FrameHeader → Except IpcError ValidatedFrameHeader :=
  validatePrimaryAppHeaderWithPrivilegedCalls none host.privilegedCalls

/-- One read of such a drain. -/
abbrev read (started : Instant) : Io (Option (ValidatedFrameHeader × List Byte)) :=
  readQuitDrainFrame host.env host.privilegedCalls (started + hostAnswerBudget)
    (started + appLinkIoDeadline)

/-- The drain under these deadlines. -/
abbrev drain (started : Instant) : Nat → Link → Option QuitDrainEnd × Link :=
  host.drainCallsAfterQuit (started + hostAnswerBudget) (started + appLinkIoDeadline)

/-- The turns of one read. -/
abbrev Turns (started : Instant) (link : Link) : FrameTurn ValidatedFrameHeader → Prop :=
  Reaches host.quiet (deadlines started) appLinkIoDeadline host.verdict link

end Host

/-! ## Scripts -/

/-- A delivery that brings no bytes. -/
def Control : Delivery → Prop
  | .bytes _ _ => False
  | _ => True

/-- The controls of the later script are those of the earlier one. -/
def Onward (script script' : List Delivery) : Prop :=
  ∀ d rest, Control d → d :: rest <:+ script' → d :: rest <:+ script

/-- The script behind one more delivery, of which some bytes may be left. -/
def Advances (script script' : List Delivery) : Prop :=
  ∃ d bytes rest, script = d :: rest ∧ script' = unread bytes rest

section Scripts

variable {d : Delivery} {rest script script' : List Delivery}

theorem control_unread (hd : Control d) (bytes : List Byte) :
    d :: rest <:+ unread bytes script ↔ d :: rest <:+ script := by
  cases bytes with
  | nil => exact Iff.rfl
  | cons first more =>
    refine suffix_cons_iff.trans (or_iff_right fun h => ?_)
    cases h
    exact hd

theorem Advances.onward (h : Advances script script') : Onward script script' := by
  obtain ⟨met, bytes, left, rfl, rfl⟩ := h
  intro d rest hd hs
  exact ((control_unread hd _).mp hs).trans (suffix_cons _ _)

theorem Advances.kept (h : Advances script script') (hd : Control d)
    (hs : d :: rest <:+ script) : d :: rest = script ∨ d :: rest <:+ script' := by
  obtain ⟨met, bytes, left, rfl, rfl⟩ := h
  exact (suffix_cons_iff.mp hs).imp_right (control_unread hd _).mpr

theorem arriving_suffix (h : script' <:+ script) :
    (arriving script').length ≤ (arriving script).length := by
  obtain ⟨front, rfl⟩ := h
  rw [arriving_append, length_append]
  exact Nat.le_add_left _ _

variable {τ : Type} {env : Env} {deadlines : Deadlines} {limit : Duration} {turn turn' : Turn}
variable {validate : FrameHeader → Except IpcError τ} {frame frame' : FrameTurn τ} {link : Link}

theorem turn_advances (h : turn.Next env deadlines limit turn') :
    Advances turn.script turn'.script := by
  cases h with
  | bytes begins met | interrupted begins met | polled begins met => exact ⟨_, [], _, met, rfl⟩

theorem full_advances {r : List Byte × Option Instant}
    (h : turn.Ends env deadlines limit (.ok (some r), link)) :
    Advances turn.script link.script := by
  cases h with
  | full begins met => exact ⟨_, _, _, met, rfl⟩

theorem next_advances (h : FrameTurn.Next env deadlines limit validate frame frame') :
    Advances frame.turn.script frame'.turn.script := by
  cases h with
  | header next | payload next => exact turn_advances next
  | admitted full => exact full_advances full

theorem reaches_onward (h : Reaches env deadlines limit validate link frame) :
    Onward link.script frame.turn.script := by
  induction h with
  | refl => exact fun _ _ _ => id
  | tail turns next ih =>
    exact fun d rest hd hs => ih d rest hd ((next_advances next).onward d rest hd hs)

theorem reaches_met (h : Reaches env deadlines limit validate link frame) (hd : Control d)
    (hm : frame.turn.script = d :: rest) : d :: rest <:+ link.script :=
  reaches_onward h d rest hd (hm.symm ▸ suffix_rfl)

end Scripts

/-! ## What the role sent -/

/-- The frames but the answers to a call of the host. -/
def Ordinary (frame : Frame) : Prop := frame.kind ≠ .reply ∧ frame.kind ≠ .err

/-- A poll expires in front of exactly these frames. -/
def PausedBefore (frames : List Frame) (script : List Delivery) : Prop :=
  ∃ kind rest, Turn.Expired kind ∧ .failed kind :: rest <:+ script ∧
    arriving rest = frames.flatMap Frame.bytes

/-- The role ended the link. -/
def Closed (script : List Delivery) : Prop := ∃ d, d.retried true = false ∧ [d] <:+ script

/-- In front of these frames, in time and admissible with this echo call in flight. -/
structure Ready (host : Host) (pending : Option CorrelationId) (started : Instant)
    (frames : List Frame) (link : Link) : Prop where
  fits : ∀ frame ∈ frames, frame.Fits
  admissible : ∀ frame ∈ frames, ∃ v,
    validatePrimaryAppHeaderWithPrivilegedCalls pending host.privilegedCalls frame.header = .ok v
  arrives : arriving link.script = frames.flatMap Frame.bytes
  /-- nothing follows the end of the link -/
  closes : ∀ d rest, d.retried true = false → d :: rest <:+ link.script → rest = []
  clock : ∀ n, link.readings ≤ n →
    started ≤ host.env.now n ∧ host.env.now n < started + appLinkIoDeadline
  horizon : started + appLinkIoDeadline + appLinkIoDeadline ≤ host.env.horizon
  /-- a poll between two frames expires only `APP_LINK_READER_POLL` after the last look at the
  clock -/
  patient : ∀ kind rest, .failed kind :: rest <:+ link.script → Turn.Expired kind →
    ∀ fuel here turn, host.drain started fuel link = (none, here) →
    host.Turns started here (.header turn) → turn.stall = none →
    turn.script = .failed kind :: rest →
    host.env.now turn.link.readings + appLinkReaderPoll ≤ host.env.now (turn.link.readings + 1)

section Reads

variable {host : Host} {pending : Option CorrelationId} {started : Instant} {frames : List Frame}
variable {link link' : Link} {seen later : List Frame} {kind : ErrorKind} {rest : List Delivery}
variable {frame frame' : FrameTurn ValidatedFrameHeader}

/-- No whole frame has arrived in a read that goes on. -/
theorem partly {τ : Type} {frame : FrameTurn τ} (hk : frame.Kept link)
    (hfi : ∀ sent ∈ seen, sent.Fits) (ha : frame.arrived = seen.flatMap Frame.bytes) :
    seen = [] := by
  rcases seen with _ | ⟨sent, seen⟩
  · rfl
  exfalso
  rw [flatMap_cons, Frame.bytes, append_assoc] at ha
  cases frame with
  | header turn =>
    have hb : turn.filled.length + turn.need = headerLen := hk.buffer
    have hne : 0 < turn.need := hk.needs
    have hl : turn.filled.length = _ := congrArg length ha
    rw [length_append, FrameHeader.length_encode] at hl
    omega
  | payload value declared turn =>
    have hb : turn.filled.length + turn.need = declared.len.toNat := hk.buffer.1
    have hne : 0 < turn.need := hk.needs
    obtain ⟨he, hp⟩ := append_inj (ha : declared.encode ++ turn.filled = _)
      (by rw [FrameHeader.length_encode, FrameHeader.length_encode])
    have hd : declared = sent.header := Except.ok.inj ((FrameHeader.decode_encode _).symm.trans
      ((congrArg FrameHeader.decode he).trans (FrameHeader.decode_encode _)))
    rw [hd, (hfi sent mem_cons_self).len, hp, length_append] at hb
    omega

namespace Ready

variable (h : Ready host pending started frames link)
include h

/-- A read does not go on behind a pause. -/
theorem pauses (hr : host.Turns started link frame) (hm : frame.turn.script = .failed kind :: rest)
    (hx : Turn.Expired kind) (ha : frame.arrived = [])
    (next : FrameTurn.Next host.quiet (Host.deadlines started) appLinkIoDeadline host.verdict
      frame frame') : False := by
  have hst : frame.turn.stall = none := hr.kept.clock.mpr ha
  cases next with
  | payload next => exact FrameTurn.encode_ne_nil _ (append_eq_nil_iff.mp ha).1
  | admitted full =>
    obtain ⟨-, ⟨_, _, _, hb⟩, -⟩ := full.full_stall
    cases hm.symm.trans hb
  | header next =>
    cases next with
    | bytes begins met => cases hm.symm.trans met
    | interrupted begins met =>
      cases hm.symm.trans met
      exact hx.not_interrupted rfl
    | polled begins met expired flowing wanted =>
      rename_i turn _ _
      have hla := h.patient kind rest (reaches_met hr trivial hm) hx 0 link turn rfl hr hst hm
      have hsr := (h.clock _ (FrameTurn.readings_start hr)).1
      have hi : turn.idle (Host.deadlines started) = some (started + hostAnswerBudget) :=
        if_pos ⟨ha, hst⟩
      have hrdg : (turn.polled host.quiet (Host.deadlines started)).readings =
          turn.link.readings + 1 := by
        unfold Turn.polled Turn.reading
        rw [show turn.stall = none from hst]
        rfl
      have hea := Link.not_passed wanted hi
      rw [hrdg] at hea
      exact Nat.not_lt.mpr ((Nat.add_le_add_right hsr _).trans hla) hea

/-- A pause between two frames is ahead as long as the read goes on. -/
theorem pause_kept (hr : host.Turns started link frame) (hx : Turn.Expired kind)
    (hs : .failed kind :: rest <:+ link.script) (hf : frames = seen ++ later)
    (hp : arriving rest = later.flatMap Frame.bytes) :
    .failed kind :: rest <:+ frame.turn.script := by
  induction hr with
  | refl => exact hs
  | tail turns next ih =>
    rename_i frame frame'
    refine ((next_advances next).kept (d := .failed kind) trivial ih).resolve_left fun hm => ?_
    -- a poll in front of whole frames is met between two of them
    have hk := Reaches.kept turns
    have hb := hk.bytes
    rw [← hm, h.arrives, hf, flatMap_append, ← hp] at hb
    have ha : frame.arrived = seen.flatMap Frame.bytes := append_cancel_right hb
    have hn : seen = [] := partly hk (fun sent hse => h.fits sent (hf ▸ mem_append_left _ hse)) ha
    rw [hn] at ha
    exact h.pauses turns hm.symm hx ha next

/-- The stall clock does not end before the hard deadline. -/
theorem flows {d : Instant} (hr : host.Turns started link frame)
    (hst : frame.turn.stall = some d) : started + appLinkIoDeadline ≤ d := by
  obtain ⟨first, hre, -, -, -, rfl⟩ := FrameTurn.stall_since hr hst
  exact Nat.add_le_add_right
    (h.clock _ ((FrameTurn.readings_start hre).trans Turn.readings_le_reading)).1 _

/-- A read fails only behind the last frame, where the link ends or is still quiet. -/
theorem closing {halt : Halt} (hr : host.Turns started link frame)
    (he : frame.turn.Ends host.quiet (frame.deadlines (Host.deadlines started))
      appLinkIoDeadline (.error halt, link')) :
    frames = [] ∧ link'.script = [] ∧
      (halt = .waiting ∨ (∃ kind, halt = .failed (.io kind)) ∧ Closed link.script) := by
  have hk := hr.kept
  have hst := FrameTurn.readings_start hr
  have hdo (hn : arriving frame.turn.script = []) : frames = [] := by
    have hb := hk.bytes
    rw [hn, append_nil, h.arrives] at hb
    exact partly hk h.fits hb
  have hfl {here : Link} (hle : frame.turn.link.readings ≤ here.readings) :
      here.passed host.quiet frame.turn.stall ≠ true := by
    intro hp
    obtain ⟨d, hd, hla⟩ := Link.passed_iff.mp hp
    exact Nat.not_lt.mpr ((h.flows hr hd).trans hla) (h.clock _ (hst.trans hle)).2
  cases he with
  | late running passed =>
    obtain ⟨hard, hha, hla⟩ := Link.passed_iff.mp passed
    cases FrameTurn.deadlines_hard.symm.trans hha
    exact absurd hla (Nat.not_le.mpr (h.clock _ hst).2)
  | stalled running inTime passed => exact absurd passed (hfl Turn.readings_le_capped)
  | stalledPoll begins met expired passed => exact absurd passed (hfl Turn.readings_le_reading)
  | endless begins met clock =>
    have hnow : host.quiet.now (frame.turn.reading host.quiet
        (frame.deadlines (Host.deadlines started))).readings < started + appLinkIoDeadline :=
      (h.clock _ (hst.trans Turn.readings_le_reading)).2
    unfold Link.stallFrom Env.checkedAdd at clock
    split at clock
    · cases clock
    · split_ifs at clock with hov
      exact absurd ((Nat.add_le_add_right hnow.le _).trans h.horizon) hov
  | waiting begins met => exact ⟨hdo (by rw [met]; rfl), rfl, .inl rfl⟩
  | eof begins met =>
    have hs := reaches_met hr (d := .eof) trivial met
    cases h.closes _ _ rfl hs
    exact ⟨hdo (by rw [met]; rfl), rfl, .inr ⟨⟨_, rfl⟩, _, rfl, hs⟩⟩
  | failed begins met other unexpired =>
    rename_i kind rest
    have hf : (Delivery.failed kind).retried true = false := by
      simpa [Delivery.retried, other] using not_or.mp unexpired
    have hs := reaches_met hr (d := .failed kind) trivial met
    cases h.closes _ _ hf hs
    refine ⟨hdo (by rw [met]; rfl), rfl, .inr ⟨⟨kind, ?_⟩, _, hf, hs⟩⟩
    cases kind <;> first | rfl | cases hf

variable {bytes tail payload : List Byte} {header : FrameHeader}

/-- Sixteen bytes of the stream are the header of the next frame. -/
theorem front (hl : bytes.length = headerLen) (hf : arriving link.script = bytes ++ tail) :
    ∃ sent later, frames = sent :: later ∧ bytes = sent.header.encode ∧
      tail = sent.payload ++ later.flatMap Frame.bytes := by
  rw [h.arrives] at hf
  rcases frames with _ | ⟨sent, later⟩
  · rw [(append_eq_nil_iff.mp hf.symm).1] at hl
    cases hl
  · rw [flatMap_cons, Frame.bytes, append_assoc] at hf
    obtain ⟨hb, ht⟩ := append_inj hf (hl ▸ FrameHeader.length_encode _)
    exact ⟨sent, later, rfl, hb.symm, ht.symm⟩

section Full

variable {full : List Byte × Option Instant} (hr : host.Turns started link frame)
  (he : frame.turn.Ends host.quiet (frame.deadlines (Host.deadlines started)) appLinkIoDeadline
    (.ok (some full), link'))
include hr he

/-- So it is behind a read that took bytes. -/
theorem pause_behind (hx : Turn.Expired kind) (hs : .failed kind :: rest <:+ link.script)
    (hf : frames = seen ++ later) (hp : arriving rest = later.flatMap Frame.bytes) :
    .failed kind :: rest <:+ link'.script := by
  refine ((full_advances he).kept (d := .failed kind) trivial
    (h.pause_kept hr hx hs hf hp)).resolve_left fun hm => ?_
  obtain ⟨-, ⟨_, _, _, hb⟩, -⟩ := he.full_stall
  cases hm.trans hb

theorem unpaused (hle : (arriving link'.script).length < (arriving link.script).length) :
    ¬ PausedBefore frames link.script := by
  rintro ⟨kind, rest, hx, hs, hp⟩
  have hb := arriving_suffix (h.pause_behind hr he hx hs (nil_append _).symm hp)
  rw [show arriving (.failed kind :: rest) = _ from hp.trans h.arrives.symm] at hb
  omega

end Full

end Ready

/-- What a read of the drain makes of the frames in front of it. -/
inductive Heard (frames : List Frame) (link : Link) :
    Except Halt (Option (ValidatedFrameHeader × List Byte)) × Link → Prop
  | waiting {link' : Link} (done : frames = []) (spent : link'.script = []) :
      Heard frames link (.error .waiting, link')
  | closed {kind : ErrorKind} {link' : Link} (done : frames = []) (spent : link'.script = [])
      (ended : Closed link.script) : Heard frames link (.error (.failed (.io kind)), link')
  | idled {link' : Link} (paused : PausedBefore frames link.script)
      (left : arriving link'.script = frames.flatMap Frame.bytes) :
      Heard frames link (.ok none, link')
  | refused {link' : Link} {sent : Frame} {later : List Frame} {detail : String}
      (head : frames = sent :: later) (answer : ¬ Ordinary sent)
      (unpaused : ¬ PausedBefore frames link.script) :
      Heard frames link (.error (.failed (.protocol detail)), link')
  | took {link' : Link} {sent : Frame} {later : List Frame} {v : ValidatedFrameHeader}
      {payload : List Byte} (head : frames = sent :: later) (plain : Ordinary sent)
      (header : v.header = sent.header) (unpaused : ¬ PausedBefore frames link.script)
      (left : arriving link'.script = later.flatMap Frame.bytes)
      (onward : Onward link.script link'.script)
      (pauses : ∀ seen tail, later = seen ++ tail → PausedBefore tail link.script →
        PausedBefore tail link'.script)
      (clock : link.readings ≤ link'.readings) :
      Heard frames link (.ok (some (v, payload)), link')

namespace Ready

variable (h : Ready host pending started frames link)
include h

omit h in
/-- Without a pending echo reply only the answers to a call of the host lose their admission. -/
theorem verdict_cases {sent : Frame} {v : ValidatedFrameHeader}
    (hv : validatePrimaryAppHeaderWithPrivilegedCalls pending host.privilegedCalls sent.header =
      .ok v) :
    (Ordinary sent ∧ host.verdict sent.header = .ok v) ∨
      ¬ Ordinary sent ∧ ∃ detail, host.verdict sent.header = .error (.protocol detail) := by
  unfold Host.verdict Ordinary
  unfold validatePrimaryAppHeaderWithPrivilegedCalls at hv ⊢
  have hk : sent.header.kind = sent.kind := rfl
  rw [hk] at hv ⊢
  generalize sent.kind = kind at hv ⊢
  cases kind with
  | reply => exact .inr ⟨fun h => h.1 rfl, _, rfl⟩
  | err => exact .inr ⟨fun h => h.2 rfl, _, rfl⟩
  | _ => exact .inl ⟨⟨nofun, nofun⟩, hv⟩

theorem took {v : ValidatedFrameHeader} {full : List Byte × Option Instant}
    (hr : host.Turns started link frame)
    (he : frame.turn.Ends host.quiet (frame.deadlines (Host.deadlines started)) appLinkIoDeadline
      (.ok (some full), link'))
    (hre : host.read started link = (.ok (some (v, payload)), link')) :
    Heard frames link (.ok (some (v, payload)), link') := by
  have hin : host.read started =
      (interruptibleFill host.quiet (Host.deadlines started)).read host.verdict :=
    ValidatedReader.interruptible_eq host.quiet _ host.verdict
  rw [hin] at hre
  obtain ⟨bytes, header, hl, ha, hpay, hf⟩ :=
    (interruptibleFill_lawful host.quiet (Host.deadlines started)).returned (congrArg Prod.fst hre)
  rw [hre, append_assoc] at hf
  dsimp only at hf
  obtain ⟨sent, later, hhe, rfl, ht⟩ := h.front hl hf
  have hse : sent ∈ frames := hhe ▸ mem_cons_self
  cases (FrameHeader.decode_encode sent.header).symm.trans ha.decoded
  obtain ⟨hp, hle⟩ := append_inj ht (hpay.trans (h.fits sent hse).len)
  obtain ⟨v', hv'⟩ := h.admissible sent hse
  rcases verdict_cases hv' with ⟨hpl, hv⟩ | ⟨-, detail, hv⟩
  · refine .took hhe hpl (ValidatedReader.primary_header ha.admitted) ?_ hle
      (fun d rest hd hs => reaches_onward hr d rest hd ((full_advances he).onward d rest hd hs)) ?_
      ((FrameTurn.readings_start hr).trans he.full_readings)
    · refine h.unpaused hr he ?_
      rw [hf, length_append, hl]
      have hpos : 0 < headerLen := by decide
      rw [length_append]
      omega
    · rintro seen tail hla ⟨kind, rest, hx, hs, hp⟩
      have hsp : frames = (sent :: seen) ++ tail := hhe.trans (congrArg (sent :: ·) hla)
      exact ⟨kind, rest, hx, h.pause_behind hr he hx hs hsp hp, hp⟩
  · cases hv.symm.trans ha.admitted

/-- Nothing else can happen to a read. -/
theorem heard : Heard frames link (host.read started link) := by
  obtain ⟨last, hr, he⟩ := FrameTurn.read_ends host.quiet (Host.deadlines started)
    appLinkIoDeadline host.verdict link
  change FrameTurn.Ends _ _ _ _ last (host.read started link) at he
  generalize hread : host.read started link = r at he ⊢
  cases he with
  | stopped ends =>
    rcases (FrameTurn.Ends.stopped ends).stops hr with ⟨_, -, -, hs⟩ | ⟨-, hl, -⟩
    · cases hs
    cases ends with
    | stopped stop => cases stop
    | idled begins met expired flowing passed =>
      rename_i kind rest
      have hs := reaches_met hr (d := .failed kind) trivial met
      exact .idled ⟨_, _, expired, hs, hl.trans h.arrives⟩ (hl.trans h.arrives)
  | failed ends =>
    obtain ⟨hdo, hsp, rfl | ⟨⟨kind, rfl⟩, hc⟩⟩ := h.closing hr ends
    · exact .waiting hdo hsp
    · exact .closed hdo hsp hc
  | refused full refused =>
    rename_i turn bytes stall link' err
    have hf := full.full_arrived.trans (Reaches.kept hr).bytes
    have hl := full.full_length.trans (Reaches.kept hr).buffer
    obtain ⟨sent, later, hhe, rfl, -⟩ := h.front hl hf.symm
    have hse : sent ∈ frames := hhe ▸ mem_cons_self
    rw [decodeBounded_header (h.fits sent hse)] at refused
    obtain ⟨v, hv⟩ := h.admissible sent hse
    rcases verdict_cases hv with ⟨-, hok⟩ | ⟨han, detail, herr⟩
    · cases hok.symm.trans refused
    · cases herr.symm.trans refused
      refine .refused hhe han (h.unpaused hr full ?_)
      rw [← hf, length_append, hl]
      exact Nat.lt_add_of_pos_left (by decide)
  | bare full | full full =>
    exact h.took hr full hread

end Ready

/-! ## The run of the drain -/

/-- What is written for a frame that was read. -/
def Host.answered (host : Host) (sent : Frame) : List Byte :=
  if sent.kind = .call ∧ host.declaresErr sent.header then
    (callErrorFrame quitDrained (sent.channel, sent.corr)).bytes
  else []

/-- Every answer can be written. -/
structure Answers (host : Host) : Prop where
  writes : ∀ n, host.env.writeFault n = none
  current : ∀ n, host.current n = true
  deadlineSet : ∀ n, host.deadlineSet n = true

/-- The frames that were read have their answers, in their order, and the drain has ended at a
pause in front of the others, or behind all of them where the role ended the link; or it still
reads there. -/
def Served (host : Host) (frames : List Frame) (script : List Delivery) (written : List Byte)
    (result : Option QuitDrainEnd × Link) : Prop :=
  ∃ seen later, frames = seen ++ later ∧
    result.2.written = written ++ seen.flatMap host.answered ∧
    arriving result.2.script = later.flatMap Frame.bytes ∧
    (result.1 = some .idleBackstop ∧ PausedBefore later script ∨
      later = [] ∧ result.2.script = [] ∧
        (result.1 = none ∨ result.1 = some .peerClosed ∧ Closed script))

/-- No answer to a call of the host comes before the first pause. -/
def Calm (frames : List Frame) (script : List Delivery) : Prop :=
  ∃ seen later, frames = seen ++ later ∧ (∀ sent ∈ seen, Ordinary sent) ∧
    (later = [] ∨ PausedBefore later script)

theorem writeFrame_faultless {env : Env} (hn : ∀ n, env.writeFault n = none) {sent : Frame}
    (hf : sent.Fits) (link : Link) :
    ∃ link', writeFrame env sent link = (.ok (), link') ∧ link'.script = link.script ∧
      link'.readings = link.readings := by
  have hall (bytes : List Byte) (link : Link) : writeAll env bytes link =
      (.ok (), { link with writes := link.writes + 1, written := link.written ++ bytes }) := by
    unfold writeAll
    rw [hn]
  have hlen : ensurePayloadLen sent.payload.length = .ok () := require_ok.mpr (decide_eq_true hf)
  unfold writeFrame
  rw [hlen, Proc.bind_run_ok (show orFail (.ok ()) link = (.ok (), link) from rfl),
    Proc.bind_run_ok (hall _ _)]
  split_ifs
  · exact ⟨_, (Proc.bind_run_ok rfl).trans (hall _ _), rfl, rfl⟩
  · exact ⟨_, (Proc.bind_run_ok (hall _ _)).trans (hall _ _), rfl, rfl⟩

theorem quitDrained_fits (call : ChannelId × CorrelationId) :
    (callErrorFrame quitDrained call).Fits :=
  show (encodeError quitDrained).length ≤ maxFrameLen by decide +kernel

variable {v : ValidatedFrameHeader} {payload : List Byte} {sent : Frame}

/-- A frame that was taken is answered, and the drain goes on. -/
theorem drain_took (ha : Answers host)
    (hre : host.read started link = (.ok (some (v, payload)), link'))
    (hv : v.header = sent.header) :
    ∃ after, after.script = link'.script ∧ after.readings = link'.readings ∧
      after.written = link'.written ++ host.answered sent ∧
      ∀ fuel, host.drain started (fuel + 1) link = host.drain started fuel after := by
  unfold Host.read at hre
  unfold Host.answered
  by_cases hc : sent.kind = .call ∧ host.declaresErr sent.header = true
  · obtain ⟨after, hw, hs, hr⟩ :=
      writeFrame_faultless ha.writes (quitDrained_fits (sent.channel, sent.corr)) link'
    refine ⟨after, hs, hr, ?_, fun fuel => ?_⟩
    · rw [if_pos hc]
      exact (writeFrame_ok hw).2
    · have hgo : ¬ (sent.header.kind ≠ .call ∨ ¬ host.declaresErr sent.header = true) := by
        rintro (h | h)
        · exact h hc.1
        · exact h hc.2
      rw [Host.drain, Host.drainCallsAfterQuit, hre]
      dsimp only
      rw [hv, if_neg hgo, if_neg (not_not.mpr (ha.current _)), Host.writeBestEffortAnswers,
        if_pos (ha.deadlineSet _), Host.writeAnswers]
      rw [show writeFrame host.env (callErrorFrame quitDrained
        (sent.header.channel, sent.header.corr)) link' = (.ok (), after) from hw]
      rfl
  · refine ⟨link', rfl, rfl, by rw [if_neg hc, append_nil], fun fuel => ?_⟩
    rw [Host.drain, Host.drainCallsAfterQuit, hre]
    dsimp only
    rw [hv]
    exact if_pos (not_and_or.mp hc)

theorem control_of_final {d : Delivery} (hd : d.retried true = false) : Control d := by
  cases d with
  | bytes => cases hd
  | eof | failed => trivial

theorem Onward.paused {script script' : List Delivery} (ho : Onward script script')
    (h : PausedBefore later script') : PausedBefore later script := by
  obtain ⟨kind, rest, hx, hs, hp⟩ := h
  exact ⟨kind, rest, hx, ho (.failed kind) rest trivial hs, hp⟩

theorem served_done {result : Option QuitDrainEnd × Link} (hdo : frames = [])
    (hw : result.2.written = link.written) (hsp : result.2.script = [])
    (hend : result.1 = none ∨ result.1 = some .peerClosed ∧ Closed link.script) :
    Served host frames link.script link.written result ∧ Calm frames link.script :=
  ⟨⟨[], [], hdo, hw.trans (append_nil _).symm, by rw [hsp]; rfl, .inr ⟨rfl, hsp, hend⟩⟩,
    [], [], hdo, forall_mem_nil _, .inl rfl⟩

theorem calm_cons {script script' : List Delivery} (hpl : Ordinary sent)
    (hun : ¬ PausedBefore (sent :: later) script)
    (ho : Onward script script')
    (hp : ∀ seen tail, later = seen ++ tail → PausedBefore tail script →
      PausedBefore tail script') : Calm (sent :: later) script ↔ Calm later script' := by
  constructor
  · rintro ⟨_ | ⟨first, seen⟩, tail, hs, hall, hend⟩
    · rw [nil_append] at hs
      subst hs
      exact absurd (hend.resolve_left (cons_ne_nil _ _)) hun
    · cases hs
      exact ⟨seen, tail, rfl, (forall_mem_cons.mp hall).2, hend.imp_right (hp seen tail rfl)⟩
  · rintro ⟨seen, tail, rfl, hall, hend⟩
    exact ⟨sent :: seen, tail, rfl, forall_mem_cons.mpr ⟨hpl, hall⟩, hend.imp_right ho.paused⟩

/-- The drain serves a calm role, and meets a frame it does not admit if the role is not. -/
def Drained (host : Host) (frames : List Frame) (link : Link)
    (result : Option QuitDrainEnd × Link) : Prop :=
  Served host frames link.script link.written result ∧ Calm frames link.script ∨
    result.1 = some .notAdmitted ∧ ¬ Calm frames link.script

theorem drain_law (ha : Answers host) {fuel : Nat} (h : Ready host pending started frames link)
    (hfu : frames.length < fuel) : Drained host frames link (host.drain started fuel link) := by
  induction fuel generalizing frames link with
  | zero => exact absurd hfu (Nat.not_lt_zero _)
  | succ fuel ih =>
    have hw : (host.read started link).2.written = link.written :=
      (readFrameInterruptibleValidatedWith_readsOnly host.quiet (Host.deadlines started)
        appLinkIoDeadline host.verdict link).written
    have hhe := h.heard
    generalize hre : host.read started link = r at hhe hw
    unfold Host.read at hre
    cases hhe with
    | waiting done spent =>
      rw [Host.drain, Host.drainCallsAfterQuit, hre]
      exact .inl (served_done done hw spent (.inl rfl))
    | closed done spent ended =>
      rw [Host.drain, Host.drainCallsAfterQuit, hre]
      exact .inl (served_done done hw spent (.inr ⟨rfl, ended⟩))
    | idled paused left =>
      rw [Host.drain, Host.drainCallsAfterQuit, hre]
      exact .inl ⟨⟨[], frames, rfl, hw.trans (append_nil _).symm, left, .inl ⟨rfl, paused⟩⟩,
        [], frames, rfl, forall_mem_nil _, .inr paused⟩
    | refused head answer unpaused =>
      subst head
      rw [Host.drain, Host.drainCallsAfterQuit, hre]
      refine .inr ⟨rfl, ?_⟩
      rintro ⟨_ | ⟨first, seen⟩, tail, hs, hall, hend⟩
      · rw [nil_append] at hs
        subst hs
        exact unpaused (hend.resolve_left (cons_ne_nil _ _))
      · cases hs
        exact answer (hall _ mem_cons_self)
    | took head plain header unpaused left onward pauses clock =>
      rename_i link' sent later v payload
      subst head
      obtain ⟨after, hs, hr, hwa, hgo⟩ := drain_took ha hre header
      rw [← hs] at left onward pauses
      have hne : Ready host pending started later after := {
        fits := (forall_mem_cons.mp h.fits).2
        admissible := (forall_mem_cons.mp h.admissible).2
        arrives := left
        closes := fun d rest hd hsuf =>
          h.closes d rest hd (onward d rest (control_of_final hd) hsuf)
        clock := fun n hn => h.clock n (clock.trans (hr ▸ hn))
        horizon := h.horizon
        patient := fun kind rest hsuf hx fuel here turn hrun =>
          h.patient kind rest (onward _ rest trivial hsuf) hx (fuel + 1) here turn
            ((hgo fuel).trans hrun) }
      have hca := calm_cons plain unpaused onward pauses
      unfold Drained
      rw [show host.drain started (fuel + 1) link = _ from hgo fuel, hca]
      refine (ih hne (Nat.lt_of_succ_lt_succ hfu)).imp_left (And.imp_left ?_)
      rintro ⟨seen, tail, rfl, hwr, hle, hend⟩
      refine ⟨sent :: seen, tail, rfl, ?_, hle, hend.imp (And.imp_right onward.paused) ?_⟩
      · rw [hwr, hwa, hw, flatMap_cons, append_assoc]
      · refine And.imp_right (And.imp_right (Or.imp_right (And.imp_right ?_)))
        rintro ⟨d, hd, hsuf⟩
        exact ⟨d, hd, onward d [] (control_of_final hd) hsuf⟩

theorem not_served {script : List Delivery} {written : List Byte}
    {result : Option QuitDrainEnd × Link} (hend : result.1 = some .notAdmitted) :
    ¬ Served host frames script written result := by
  rintro ⟨seen, later, -, -, -, ⟨he, -⟩ | ⟨-, -, he | ⟨he, -⟩⟩⟩ <;> cases hend.symm.trans he

/-- Whatever frames the role sent behind its accepted Quit and however they are cut, each call on
a channel that declares ERR is answered once, in order and with its own correlation, and nothing
else is, up to a pause or the end of the link, exactly if no answer to a call of the host comes
before the first pause between two frames. -/
theorem quit_drain_law (host : Host) (pending : Option CorrelationId) (started : Instant)
    (frames : List Frame) (link : Link) (fuel : Nat) (ha : Answers host)
    (h : Ready host pending started frames link) (hfu : frames.length < fuel) :
    Served host frames link.script link.written (host.drainCallsAfterQuit
      (started + hostAnswerBudget) (started + appLinkIoDeadline) fuel link) ↔
      Calm frames link.script := by
  rcases drain_law ha h hfu with ⟨hse, hca⟩ | ⟨hend, hca⟩
  · exact iff_of_true hse hca
  · exact iff_of_false (not_served hend) hca

end Reads

/-! ## A call behind an answer -/

/-- A host without guarded services whose clock stands still. -/
def stillHost : Host :=
  ⟨⟨fun _ => 0, 2 ^ 64, fun _ => false, fun _ => none⟩, false, false, fun _ => true,
    fun _ => true⟩

def echoReply : Frame := ⟨.reply, 0, echo.id, ⟨1⟩, encodeText "hi"⟩

def lateCall : Frame := ⟨.call, 0, lifecycle.id, ⟨2⟩, [0]⟩

/-- All the bytes in one run, and the end of the link. -/
def oneRun (frames : List Frame) : Link :=
  .fresh (unread (frames.flatMap Frame.bytes) [.eof])

theorem ready_oneRun {frames : List Frame} (hf : ∀ sent ∈ frames, sent.Fits)
    (ha : ∀ sent ∈ frames, ∃ v,
      validatePrimaryAppHeaderWithPrivilegedCalls (some ⟨1⟩) [] sent.header = .ok v) :
    Ready stillHost (some ⟨1⟩) 0 frames (oneRun frames) where
  fits := hf
  admissible := ha
  arrives := (arriving_unread _ _).trans (append_nil _)
  closes := by
    intro d rest hd hs
    have hend : d :: rest <:+ [.eof] := (control_unread (control_of_final hd) _).mp hs
    exact length_eq_zero_iff.mp (Nat.le_zero.mp (Nat.le_of_succ_le_succ hend.length_le))
  clock := fun n _ => ⟨Nat.le_refl _, show 0 < 0 + appLinkIoDeadline by decide⟩
  horizon := show 0 + appLinkIoDeadline + appLinkIoDeadline ≤ 2 ^ 64 by decide
  patient := by
    intro kind rest hs
    have hend : Delivery.failed kind :: rest <:+ [.eof] :=
      (control_unread (d := .failed kind) trivial _).mp hs
    rcases suffix_cons_iff.mp hend with he | he
    · cases he
    · cases suffix_nil.mp he

theorem answers_stillHost : Answers stillHost := ⟨fun _ => rfl, fun _ => rfl, fun _ => rfl⟩

theorem lateCall_fits : lateCall.Fits := show 1 ≤ maxFrameLen by decide

theorem admitted (policy : ReceivePolicy) (header : FrameHeader)
    (h : policy.check header = .ok ()) : ∃ v, validateReceivedHeader policy header = .ok v :=
  ⟨⟨header, policy, h⟩, validateReceivedHeader_ok.mpr ⟨h, rfl⟩⟩

theorem lateCall_admitted : ∃ v, validatePrimaryAppHeaderWithPrivilegedCalls (some ⟨1⟩) []
    lateCall.header = .ok v := admitted .primaryAppReceiver lateCall.header rfl

theorem echoReply_ready :
    Ready stillHost (some ⟨1⟩) 0 [echoReply, lateCall] (oneRun [echoReply, lateCall]) := by
  have hf : echoReply.Fits := show (encodeText "hi").length ≤ maxFrameLen by decide +kernel
  have ha : ∃ v, validatePrimaryAppHeaderWithPrivilegedCalls (some ⟨1⟩) []
      echoReply.header = .ok v := admitted (.primaryEchoReplyWaiter ⟨1⟩) echoReply.header rfl
  refine ready_oneRun ?_ ?_
  · exact forall_mem_cons.mpr ⟨hf, forall_mem_singleton.mpr lateCall_fits⟩
  · exact forall_mem_cons.mpr ⟨ha, forall_mem_singleton.mpr lateCall_admitted⟩

/-- The call behind the answer to the host's own call gets none. -/
theorem lateCall_unanswered :
    Answers stillHost ∧
    Ready stillHost (some ⟨1⟩) 0 [echoReply, lateCall] (oneRun [echoReply, lateCall]) ∧
    ¬ Served stillHost [echoReply, lateCall] (oneRun [echoReply, lateCall]).script []
      (stillHost.drainCallsAfterQuit (0 + hostAnswerBudget) (0 + appLinkIoDeadline) 3
        (oneRun [echoReply, lateCall])) := by
  refine ⟨answers_stillHost, echoReply_ready, not_served ?_⟩
  decide +kernel

theorem quit_drain_law_lateCall :
    Served stillHost [lateCall] (oneRun [lateCall]).script []
      (stillHost.drainCallsAfterQuit (0 + hostAnswerBudget) (0 + appLinkIoDeadline) 2
        (oneRun [lateCall])) := by
  have hre : Ready stillHost (some ⟨1⟩) 0 [lateCall] (oneRun [lateCall]) :=
    ready_oneRun (forall_mem_singleton.mpr lateCall_fits)
      (forall_mem_singleton.mpr lateCall_admitted)
  have hca : Calm [lateCall] (oneRun [lateCall]).script :=
    ⟨[lateCall], [], rfl, forall_mem_singleton.mpr ⟨nofun, nofun⟩, .inl rfl⟩
  exact (quit_drain_law stillHost (some ⟨1⟩) 0 [lateCall] (oneRun [lateCall]) 2
    answers_stillHost hre (by decide)).mpr hca

end Keld.Session
