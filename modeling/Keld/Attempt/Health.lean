/-
# `Keld.Attempt.Health` — the two ends of an accepted connection together

Owner and candidate are two processes that call their steps in any order.  A
call of one end reads a part of what the other end has written so far, in any
chunks and with any failure in between, and every write may fail half-way.
`HealthStep` is one completed call of either end; a call that is still waiting
for bytes has not completed.  `accept` writes first and then waits for the
candidate to close, so it is two steps.

The log keeps the owner's calls in order.  What it says about the candidate's
one good answer is `health_safety`.
-/
import Keld.Attempt.Channel
import Keld.Attempt.Codec
import Keld.Lib.Machine

namespace Keld.Attempt

open List

open Ipc (Instant Duration Env ErrorKind Link Delivery arriving)

/-! ## The calls of the owner -/

inductive OwnerCall
  | readBoot (digest : Id)
  | readReady
  | awaitHealthWindow (margin : Duration)
  | accept
  | rollBack
deriving DecidableEq

/-- What the owner still holds of its channel. -/
inductive OwnerEnd
  | open
  /-- in the second half of `accept` -/
  | closing
  | gone
deriving DecidableEq, Repr

/-- A call, with what is left of the channel when it returns a value. -/
def OwnerCall.run (env : Env) : OwnerCall → OwnerIo OwnerEnd
  | .readBoot digest => do
    OwnerChannel.readBoot digest
    return .open
  | .readReady => do
    OwnerChannel.readReady env
    return .open
  | .awaitHealthWindow margin => do
    OwnerChannel.awaitHealthWindow env margin
    return .open
  | .accept => do
    match ← OwnerChannel.acceptWrite env with
    | .ok () => return .closing
    | .error _ => return .gone
  | .rollBack => do
    let _ ← OwnerChannel.rollBack env
    return .gone

/-- What is left when it returns an error: `accept` consumes the channel. -/
def OwnerCall.leaves : OwnerCall → OwnerEnd
  | .accept | .rollBack => .gone
  | _ => .open

inductive OwnerEvent
  | done (call : OwnerCall)
  | failed (call : OwnerCall) (err : ExchangeError)
deriving DecidableEq

/-- The calls of the candidate. -/
inductive ClaimantCall
  | sendBoot (digest : Id)
  | sendReady
  | sendFailure (cls : AttemptFailureClass)
  | awaitHealthAccepted
deriving DecidableEq

def ClaimantCall.run (env : Env) : ClaimantCall → ClaimantIo Unit
  | .sendBoot digest => ClaimantChannel.sendBoot env digest
  | .sendReady => ClaimantChannel.sendReady env
  | .sendFailure cls => ClaimantChannel.sendFailure env cls
  | .awaitHealthAccepted => ClaimantChannel.awaitHealthAccepted

/-! ## The system -/

structure HealthSystem where
  owner : OwnerChannel
  ownerEnd : OwnerEnd
  candidate : ClaimantChannel
  /-- the candidate still holds its channel -/
  candidateOpen : Bool
  /-- how many of the candidate's bytes the owner has read -/
  taken : Nat
  /-- `await_health_accepted` returned `Ok` -/
  armed : Bool
  log : List OwnerEvent

/-- Both ends right after the receipt, with bytes counted from there. -/
def HealthSystem.start (pin : Pin) (transcript : AttemptTranscript) (queries : Nat) :
    HealthSystem where
  owner := ⟨.fresh [], pin, transcript, .accepted, queries⟩
  ownerEnd := .open
  candidate := ⟨.fresh [], transcript, .accepted⟩
  candidateOpen := true
  taken := 0
  armed := false
  log := []

/-- The channel with these deliveries in front of its next reads. -/
def OwnerChannel.facing (channel : OwnerChannel) (script : List Delivery) : OwnerChannel :=
  { channel with link := { channel.link with script := script } }

def ClaimantChannel.facing (channel : ClaimantChannel) (script : List Delivery) :
    ClaimantChannel := { channel with link := { channel.link with script := script } }

/-- How many bytes of a script were read. -/
def consumedBytes (script left : List Delivery) : Nat :=
  (arriving script).length - (arriving left).length

inductive HealthStep (ownerEnv candidateEnv : Env) : HealthSystem → HealthSystem → Prop
  | ownerDone {sys : HealthSystem} (call : OwnerCall) (script : List Delivery)
      {left : OwnerEnd} {channel : OwnerChannel} (held : sys.ownerEnd = .open)
      (delivered : arriving script <+: sys.candidate.link.written.drop sys.taken)
      (returned : call.run ownerEnv (sys.owner.facing script) = (.ok left, channel)) :
      HealthStep ownerEnv candidateEnv sys
        { sys with
          owner := channel
          ownerEnd := left
          taken := sys.taken + consumedBytes script channel.link.script
          log := sys.log ++ [.done call] }
  | ownerFailed {sys : HealthSystem} (call : OwnerCall) (script : List Delivery)
      {err : ExchangeError} {channel : OwnerChannel} (held : sys.ownerEnd = .open)
      (delivered : arriving script <+: sys.candidate.link.written.drop sys.taken)
      (returned : call.run ownerEnv (sys.owner.facing script) = (.error (.failed err), channel)) :
      HealthStep ownerEnv candidateEnv sys
        { sys with
          owner := channel
          ownerEnd := call.leaves
          taken := sys.taken + consumedBytes script channel.link.script
          log := sys.log ++ [.failed call err] }
  | closeWait {sys : HealthSystem} (script : List Delivery) {seen : CloseWait}
      {channel : OwnerChannel} (held : sys.ownerEnd = .closing)
      (delivered : arriving script <+: sys.candidate.link.written.drop sys.taken)
      (returned : OwnerChannel.closeWait (sys.owner.facing script) = (.ok seen, channel)) :
      HealthStep ownerEnv candidateEnv sys
        { sys with
          owner := channel
          ownerEnd := .gone
          taken := sys.taken + consumedBytes script channel.link.script }
  | ownerDrops {sys : HealthSystem} : HealthStep ownerEnv candidateEnv sys { sys with ownerEnd := .gone }
  | candidateSends {sys : HealthSystem} (call : ClaimantCall) {r : Except ExchangeHalt Unit}
      {channel : ClaimantChannel} (held : sys.candidateOpen = true)
      (sends : call ≠ .awaitHealthAccepted)
      (returned : call.run candidateEnv sys.candidate = (r, channel)) :
      HealthStep ownerEnv candidateEnv sys { sys with candidate := channel }
  | candidateAwaits {sys : HealthSystem} (script : List Delivery) {r : Except ExchangeHalt Unit}
      {channel : ClaimantChannel} (held : sys.candidateOpen = true)
      (delivered : arriving script <+: sys.owner.link.written)
      (returned : ClaimantChannel.awaitHealthAccepted (sys.candidate.facing script) = (r, channel))
      (finished : r ≠ .error .waiting) :
      HealthStep ownerEnv candidateEnv sys
        { sys with
          candidate := channel
          candidateOpen := false
          armed := r.isOk }
  | candidateDrops {sys : HealthSystem} :
      HealthStep ownerEnv candidateEnv sys { sys with candidateOpen := false }

/-! ## Steps out of phase -/

/-- The phase in which the owner's call is next. -/
def OwnerCall.Due : OwnerCall → OwnerPhase → Prop
  | .readBoot _, phase => phase = .accepted
  | .readReady, phase => phase = .booted
  | .awaitHealthWindow _, phase => ∃ readAt, phase = .ready readAt
  | .accept, phase => phase = .healthy
  | .rollBack, _ => True

def ExchangeError.OutOfSequence (err : ExchangeError) : Prop :=
  ∃ step phase, err = .outOfSequence step phase

/-- A call of the owner out of phase does nothing at all. -/
theorem OwnerCall.run_out_of_phase (env : Env) {call : OwnerCall} {channel : OwnerChannel}
    (h : ¬ call.Due channel.phase) :
    ∃ err, err.OutOfSequence ∧ call.run env channel = (.error (.failed err), channel) := by
  cases call with
  | readBoot digest =>
    have hr : OwnerChannel.readBoot digest channel
        = (.error (.failed (channel.outOfSequence "read KELD-AB1")), channel) := if_pos h
    exact ⟨_, ⟨_, _, rfl⟩, Proc.bind_run_error hr⟩
  | readReady =>
    have hr : OwnerChannel.readReady env channel
        = (.error (.failed (channel.outOfSequence "read KELD-AY1")), channel) := if_pos h
    exact ⟨_, ⟨_, _, rfl⟩, Proc.bind_run_error hr⟩
  | awaitHealthWindow margin =>
    have hr : OwnerChannel.awaitHealthWindow env margin channel
        = (.error (.failed (channel.outOfSequence "await the health window")), channel) := by
      unfold OwnerChannel.awaitHealthWindow
      split
      next readAt hph => exact absurd ⟨readAt, hph⟩ h
      next => exact rfl
    exact ⟨_, ⟨_, _, rfl⟩, Proc.bind_run_error hr⟩
  | accept =>
    have hr : OwnerChannel.acceptWrite env channel
        = (.error (.failed (channel.outOfSequence "write KELD-AK1 accepted")), channel) := if_pos h
    exact ⟨_, ⟨_, _, rfl⟩, Proc.bind_run_error hr⟩
  | rollBack => exact absurd trivial h

/-- The phase in which the candidate's call is next, and the class a failure may have there. -/
def ClaimantCall.Due : ClaimantCall → ClaimantPhase → Prop
  | .sendBoot _, phase => phase = .accepted
  | .sendReady, phase => phase = .booted
  | .sendFailure cls, phase =>
    ∃ position, ClaimantChannel.failurePosition phase = some position ∧
      position.admitsFailure cls = true
  | .awaitHealthAccepted, phase => phase = .reported

/-- A call of the candidate that is not due does nothing at all. -/
theorem ClaimantCall.run_out_of_phase (env : Env) {call : ClaimantCall}
    {channel : ClaimantChannel} (h : ¬ call.Due channel.phase) :
    ∃ err, call.run env channel = (.error (.failed err), channel) := by
  cases call with
  | sendBoot | sendReady | awaitHealthAccepted =>
    exact ⟨_, if_pos h⟩
  | sendFailure cls =>
    unfold ClaimantCall.run ClaimantChannel.sendFailure
    dsimp only
    cases hpos : ClaimantChannel.failurePosition channel.phase with
    | none => exact ⟨_, rfl⟩
    | some position =>
      have hcl : ¬ position.admitsFailure cls = true := fun ha => h ⟨position, hpos, ha⟩
      exact ⟨_, if_neg hcl⟩

/-! ## Steps in phase -/

/-- How a step in phase may fail: the candidate said so, the window, or the stream. -/
inductive ExchangeError.Expected : ExchangeError → Prop
  | candidateFailure (cls : AttemptFailureClass) : Expected (.candidateFailure cls)
  | io (source : ErrorKind) : Expected (.record (.io source))
  | bootMismatch : Expected (.record .bootMismatch)
  | healthWindow (failure : AttemptHealthWindowFailure) (source : Option ErrorKind) :
      Expected (.healthWindow failure source)

/-- A computation that only reads, and ends with a value, an expected failure or no end yet. -/
structure OnlyReads {α : Type} (link : Link) (res : Except ExchangeHalt α × Link) : Prop where
  onlyRead : Ipc.OnlyRead link res.2
  outcome : (∃ a, res.1 = .ok a) ∨ (∃ err, res.1 = .error (.failed err) ∧ err.Expected) ∨
    res.1 = .error .waiting

section Reads

variable {position : AttemptReadPosition} {record : AttemptRecord} {link : Link} {more : List Byte}

variable {α : Type}

/-- A reader that goes on with the record it reads, on the first bytes of an admitted one. -/
theorem readRecord_front (f : AttemptRecord → ExchangeIo α)
    (ha : position.admits record.kind = true) (hvdt : position.verdict record = .ok record)
    (hfr : arriving link.script <+: record.wire ++ more) :
    OnlyReads link ((readRecord position >>= f) link) ∧
        (∃ halt, ((readRecord position >>= f) link).1 = .error halt) ∨
      ∃ mid, Ipc.OnlyRead link mid ∧ arriving link.script = record.wire ++ arriving mid.script ∧
        (readRecord position >>= f) link = f record mid := by
  have hon := readFrom_onlyRead position link
  rcases hr : readFrom position link with ⟨r, mid⟩
  rw [hr] at hon
  rcases readFrom_front ha hvdt hfr with ⟨halt, hha⟩ | ⟨hok, harr⟩
  · rw [hr] at hha
    left
    have hru : readRecord position link = (.error (.ofRecord (.ofRead halt)), mid) := by
      refine Proc.mapError_run_error ?_
      rw [hr, show r = .error (.ofRead halt) from hha]
    rw [Proc.bind_run_error hru]
    refine ⟨⟨hon, ?_⟩, _, rfl⟩
    cases halt with
    | failed kind => exact .inr (.inl ⟨_, rfl, .io kind⟩)
    | waiting => exact .inr (.inr rfl)
  · rw [hr] at hok harr
    right
    have hru : readRecord position link = (.ok record, mid) := by
      refine Proc.mapError_run_ok ?_
      rw [hr, show r = .ok record from hok]
    exact ⟨mid, hon, harr, Proc.bind_run_ok hru⟩

theorem orEnd_reads {r : Except ExchangeError α} {mid : Link} (hmid : Ipc.OnlyRead link mid)
    (hr : ∀ err, r = .error err → err.Expected) :
    OnlyReads link (orEnd r mid) := by
  refine ⟨hmid, ?_⟩
  cases r with
  | ok a => exact .inl ⟨a, rfl⟩
  | error err => exact .inr (.inl ⟨err, rfl, hr err rfl⟩)

/-- A record is read and judged; a judgement in its favour leaves the bytes behind it. -/
theorem judge_front (judge : AttemptRecord → Except ExchangeError Unit)
    (ha : position.admits record.kind = true)
    (hvdt : position.verdict record = .ok record)
    (hfr : arriving link.script <+: record.wire ++ more)
    (hexp : ∀ err, judge record = .error err → err.Expected) :
    let res := (readRecord position >>= fun record => orEnd (judge record)) link
    OnlyReads link res ∧ (res.1 = .ok () → judge record = .ok () ∧
      arriving link.script = record.wire ++ arriving res.2.script) := by
  rcases readRecord_front (fun record => orEnd (judge record)) ha hvdt hfr with
    ⟨hre, halt, hha⟩ | ⟨mid, hmid, harr, hr⟩
  · refine ⟨hre, ?_⟩
    intro hok
    rw [hha] at hok
    cases hok
  · rw [hr]
    refine ⟨orEnd_reads hmid hexp, ?_⟩
    intro hok
    cases hju : judge record with
    | ok u => exact ⟨rfl, harr⟩
    | error err =>
      rw [hju] at hok
      cases hok

end Reads

/-! ## What a candidate can have to say -/

/-- Everything a candidate sends, if it gets to the end. -/
inductive Story
  | ready (boot : AttemptBootAcknowledgement)
  | failedEarly (cls : AttemptFailureClass)
  | failedLate (boot : AttemptBootAcknowledgement) (cls : AttemptFailureClass)

namespace Story

def bytes : Story → List Byte
  | ready boot => (AttemptRecord.bootAcknowledgement boot).wire ++ AttemptRecord.ready.wire
  | failedEarly cls => (AttemptRecord.failure cls).wire
  | failedLate boot cls =>
    (AttemptRecord.bootAcknowledgement boot).wire ++ (AttemptRecord.failure cls).wire

/-- A failure has a class that is admitted where the owner reads it. -/
def Allowed : Story → Prop
  | ready _ => True
  | failedEarly cls => AttemptReadPosition.ownerBoot.admitsFailure cls = true
  | failedLate _ cls => AttemptReadPosition.ownerReady.admitsFailure cls = true

end Story

/-- The length of a boot acknowledgement. -/
def bootLen : Nat := AttemptRecordKind.bootAcknowledgement.recordLen

theorem length_boot (boot : AttemptBootAcknowledgement) :
    (AttemptRecord.bootAcknowledgement boot).wire.length = bootLen :=
  AttemptRecord.length_wire _

theorem verdict_failure {position : AttemptReadPosition} {cls : AttemptFailureClass}
    (h : position.admitsFailure cls = true) :
    position.verdict (.failure cls) = .ok (.failure cls) := if_pos h

section OwnerReads

open OwnerChannel

variable {link : Link} {story : Story}

variable {expected boot : AttemptBootAcknowledgement}

theorem bootOutcome_expected {err : ExchangeError}
    (h : bootOutcome expected (.bootAcknowledgement boot) = .error err) :
    err.Expected := by
  unfold bootOutcome AttemptBootAcknowledgement.requireMatch require at h
  dsimp only at h
  split_ifs at h with hm
  · cases h
  · cases h
    exact .bootMismatch

theorem bootOutcome_ok (h : bootOutcome expected (.bootAcknowledgement boot) = .ok ()) :
    expected = boot := by
  unfold bootOutcome AttemptBootAcknowledgement.requireMatch require at h
  dsimp only at h
  split_ifs at h with hm
  · exact beq_iff_eq.mp hm
  · cases h

/-- The owner's first read on any part of a candidate's story; it reads no boot acknowledgement
but the one it expects. -/
theorem readBootRecord_reads (expected : AttemptBootAcknowledgement) (ha : story.Allowed)
    (hfr : arriving link.script <+: story.bytes) :
    let res := readBootRecord expected link
    OnlyReads link res ∧ (res.1 = .ok () → arriving link.script
      = (AttemptRecord.bootAcknowledgement expected).wire ++ arriving res.2.script) := by
  have hbo : ∀ {boot : AttemptBootAcknowledgement} {more : List Byte},
      arriving link.script <+: (AttemptRecord.bootAcknowledgement boot).wire ++ more →
      let res := readBootRecord expected link
      OnlyReads link res ∧ (res.1 = .ok () → arriving link.script
        = (AttemptRecord.bootAcknowledgement expected).wire ++ arriving res.2.script) := by
    intro boot more hfr
    obtain ⟨hre, hok⟩ := judge_front (bootOutcome expected)
      (show AttemptReadPosition.ownerBoot.admits _ = true from rfl) rfl hfr
      fun err => bootOutcome_expected
    refine ⟨hre, fun h => ?_⟩
    obtain ⟨hju, harr⟩ := hok h
    obtain rfl := bootOutcome_ok hju
    exact harr
  cases story with
  | ready | failedLate => exact hbo hfr
  | failedEarly cls =>
    rw [← append_nil (Story.bytes _)] at hfr
    obtain ⟨hre, hok⟩ := judge_front (bootOutcome expected)
      (show AttemptReadPosition.ownerBoot.admits _ = true from rfl) (verdict_failure ha)
      hfr (fun err h => by cases h; exact .candidateFailure cls)
    refine ⟨hre, fun h => ?_⟩
    have hju := (hok h).1
    cases hju

/-- The owner's second read, behind the boot acknowledgement. -/
theorem readReadyRecord_reads (env : Env) (ha : story.Allowed) (hl : bootLen ≤ story.bytes.length)
    (hfr : arriving link.script <+: story.bytes.drop bootLen) :
    let res := readReadyRecord env link
    OnlyReads link res ∧ ∀ readAt, res.1 = .ok readAt →
      arriving link.script = AttemptRecord.ready.wire ++ arriving res.2.script := by
  cases story with
  | failedEarly cls =>
    rw [Story.bytes, AttemptRecord.length_wire] at hl
    exact absurd hl (show ¬ bootLen ≤ AttemptRecordKind.failure.recordLen by decide)
  | ready boot =>
    rw [Story.bytes, drop_left' (length_boot boot), ← append_nil (AttemptRecord.wire _)]
      at hfr
    rcases readRecord_front (fun record => orEnd (readyOutcome record) >>=
      fun _ => readClock env) (show AttemptReadPosition.ownerReady.admits _ = true from rfl) rfl
      hfr with ⟨hre, halt, hha⟩ | ⟨mid, hmid, harr, hr⟩
    · refine ⟨hre, fun readAt hok => ?_⟩
      rw [show (readReadyRecord env link).1 = .error halt from hha] at hok
      cases hok
    · unfold readReadyRecord
      rw [hr]
      exact ⟨⟨hmid.trans ⟨rfl, rfl, id⟩, .inl ⟨_, rfl⟩⟩, fun _ _ => harr⟩
  | failedLate boot cls =>
    rw [Story.bytes, drop_left' (length_boot boot), ← append_nil (AttemptRecord.wire _)]
      at hfr
    rcases readRecord_front (fun record => orEnd (readyOutcome record) >>=
      fun _ => readClock env) (show AttemptReadPosition.ownerReady.admits _ = true from rfl)
      (verdict_failure ha) hfr with ⟨hre, halt, hha⟩ | ⟨mid, hmid, -, hr⟩
    · refine ⟨hre, fun readAt hok => ?_⟩
      rw [show (readReadyRecord env link).1 = .error halt from hha] at hok
      cases hok
    · unfold readReadyRecord
      rw [hr]
      exact ⟨⟨hmid, .inr (.inl ⟨_, rfl, .candidateFailure cls⟩)⟩, nofun⟩

/-- The window reads, and writes nothing. -/
theorem decideLoop_reads (env : Env) (window : HealthWindow) (exited : Except ErrorKind Bool)
    (script : List Delivery) :
    ∀ (step : WindowStep) (mid : Link), Ipc.OnlyRead link mid →
      OnlyReads link (decideLoop env window exited mid step script) := by
  have hla : ∀ err, launchOutcome exited = .error err → err.Expected := by
    intro err h
    rcases exited with source | _ | _
    · cases h
      exact .healthWindow _ _
    · cases h
    · cases h
      exact .healthWindow _ _
  induction script with
  | nil =>
    intro step mid hmid
    cases step with
    | read until_ => exact ⟨hmid, .inr (.inr rfl)⟩
    | checkLaunch => exact orEnd_reads hmid hla
    | refuse failure => exact ⟨hmid, .inr (.inl ⟨_, rfl, .healthWindow failure none⟩)⟩
  | cons delivery rest ih =>
    intro step mid hmid
    cases step with
    | checkLaunch => exact orEnd_reads hmid hla
    | refuse failure => exact ⟨hmid, .inr (.inl ⟨_, rfl, .healthWindow failure none⟩)⟩
    | read until_ =>
      have hl : Ipc.OnlyRead link { mid with script := (observe delivery rest).2 } :=
        hmid.trans (.script _ _)
      unfold decideLoop
      dsimp only
      cases (observe delivery rest).1 with
      | error source => exact ⟨hl, .inr (.inl ⟨_, rfl, .io source⟩)⟩
      | ok seen => exact ih _ _ (hl.trans ⟨rfl, rfl, id⟩)

theorem decideHealth_reads (env : Env) (readAt : Instant) (margin : Duration)
    (exited : Except ErrorKind Bool) (link : Link) :
    OnlyReads link (decideHealth env readAt margin exited link) := by
  unfold decideHealth
  cases HealthWindow.afterReady env readAt margin with
  | error failure => exact ⟨.refl link, .inr (.inl ⟨_, rfl, .healthWindow failure none⟩)⟩
  | ok window =>
    exact decideLoop_reads env window exited _ _ _ ⟨rfl, rfl, id⟩

end OwnerReads

/-! ## One call of the owner -/

/-- A reading call that completed in phase: it went on, or it failed as expected and ended. -/
structure Completed (next : OwnerPhase → Prop) (channel : OwnerChannel)
    (res : Except ExchangeHalt OwnerEnd × OwnerChannel) : Prop where
  onlyRead : Ipc.OnlyRead channel.link res.2.link
  outcome : (res.1 = .ok .open ∧ next res.2.phase) ∨
    (∃ err, res.1 = .error (.failed err) ∧ err.Expected ∧ ∃ eof, res.2.phase = .ended eof) ∨
    res.1 = .error .waiting

variable {next : OwnerPhase → Prop}

theorem Completed.ok {channel channel' : OwnerChannel} {left : OwnerEnd}
    (h : Completed next channel (.ok left, channel')) : left = .open ∧ next channel'.phase := by
  rcases h.outcome with ⟨ho, hn⟩ | ⟨err, he, -⟩ | hwa
  · exact ⟨Except.ok.inj ho, hn⟩
  · cases he
  · cases hwa

theorem Completed.failed {channel channel' : OwnerChannel} {err : ExchangeError}
    (h : Completed next channel (.error (.failed err), channel')) :
    err.Expected ∧ ∃ eof, channel'.phase = .ended eof := by
  rcases h.outcome with ⟨ho, -⟩ | ⟨err', her, hexp, he⟩ | hwa
  · cases ho
  · cases her
    exact ⟨hexp, he⟩
  · cases hwa

/-- A call that settles what it read. -/
theorem settle_completed {α : Type} {channel start : OwnerChannel} {next : α → OwnerPhase}
    {r : Except ExchangeHalt α × Link} {x : OwnerIo Unit} (h : OnlyReads start.link r)
    (hx : x start = channel.settle next r) :
    let res := (x >>= fun _ => pure OwnerEnd.open) start
    Completed (fun phase => ∃ a, r.1 = .ok a ∧ phase = next a) start res ∧ res.2.link = r.2 := by
  obtain ⟨r, link⟩ := r
  obtain ⟨hon, ⟨a, ha⟩ | ⟨err, he, hexp⟩ | hwa⟩ := h
  · obtain rfl : r = .ok a := ha
    rw [Proc.bind_run_ok (show x start = (.ok (), _) from hx)]
    exact ⟨⟨hon, .inl ⟨rfl, a, rfl, rfl⟩⟩, rfl⟩
  · obtain rfl : r = .error (.failed err) := he
    rw [Proc.bind_run_error (show x start = (.error (.failed err), _) from hx)]
    exact ⟨⟨hon, .inr (.inl ⟨err, rfl, hexp, _, rfl⟩)⟩, rfl⟩
  · obtain rfl : r = .error .waiting := hwa
    rw [Proc.bind_run_error (show x start = (.error .waiting, _) from hx)]
    exact ⟨⟨hon, .inr (.inr rfl)⟩, rfl⟩

section Calls

open OwnerChannel

variable {env : Env} {channel channel' : OwnerChannel} {story : Story}
variable {r : Except ExchangeHalt OwnerEnd}

theorem run_readBoot {digest : Id} (hph : channel.phase = .accepted)
    (hal : story.Allowed) (hfr : arriving channel.link.script <+: story.bytes)
    (hr : (OwnerCall.readBoot digest).run env channel = (r, channel')) :
    Completed (· = .booted) channel (r, channel') ∧ (r = .ok .open → arriving channel.link.script
      = (AttemptRecord.bootAcknowledgement (channel.expectedBoot digest)).wire
        ++ arriving channel'.link.script) := by
  obtain ⟨hre, hok⟩ := readBootRecord_reads (channel.expectedBoot digest) hal hfr
  have hse : readBoot digest channel = channel.settle (fun _ => .booted)
      (readBootRecord (channel.expectedBoot digest) channel.link) :=
    if_neg (not_not.mpr hph)
  obtain ⟨hco, hli⟩ := settle_completed hre hse
  rw [show (readBoot digest >>= fun _ => pure OwnerEnd.open) channel = (r, channel')
    from hr] at hco hli
  refine ⟨⟨hco.onlyRead, hco.outcome.imp_left ?_⟩, ?_⟩
  · rintro ⟨ho, a, -, hn⟩
    exact ⟨ho, hn⟩
  · rintro rfl
    obtain ⟨-, ⟨⟩, ha, -⟩ := hco.ok
    rw [show channel'.link = _ from hli]
    exact hok ha

theorem run_readReady (hph : channel.phase = .booted) (ha : story.Allowed)
    (hl : bootLen ≤ story.bytes.length)
    (hfr : arriving channel.link.script <+: story.bytes.drop bootLen)
    (hr : OwnerCall.readReady.run env channel = (r, channel')) :
    Completed (fun phase => ∃ readAt, phase = .ready readAt) channel (r, channel') ∧
      (r = .ok .open → arriving channel.link.script
        = AttemptRecord.ready.wire ++ arriving channel'.link.script) := by
  obtain ⟨hre, hok⟩ := readReadyRecord_reads env ha hl hfr
  have hse : readReady env channel = channel.settle .ready
      (readReadyRecord env channel.link) := if_neg (not_not.mpr hph)
  obtain ⟨hco, hli⟩ := settle_completed hre hse
  rw [show (readReady env >>= fun _ => pure OwnerEnd.open) channel = (r, channel')
    from hr] at hco hli
  refine ⟨⟨hco.onlyRead, hco.outcome.imp_left ?_⟩, ?_⟩
  · rintro ⟨ho, readAt, -, hn⟩
    exact ⟨ho, readAt, hn⟩
  · rintro rfl
    obtain ⟨-, readAt, hreadAt, -⟩ := hco.ok
    rw [show channel'.link = _ from hli]
    exact hok readAt hreadAt

theorem run_awaitHealthWindow {margin : Duration} {readAt : Instant}
    (hph : channel.phase = .ready readAt)
    (hr : (OwnerCall.awaitHealthWindow margin).run env channel = (r, channel')) :
    Completed (· = .healthy) channel (r, channel') := by
  have hre := decideHealth_reads env readAt margin (channel.pin.hasExited channel.queries)
    channel.link
  have hse : awaitHealthWindow env margin channel
      = OwnerChannel.settle { channel with queries := channel.queries + 1 } (fun _ => .healthy)
        (decideHealth env readAt margin (channel.pin.hasExited channel.queries) channel.link) := by
    unfold awaitHealthWindow
    rw [hph]
  obtain ⟨hco, -⟩ := settle_completed hre hse
  rw [show (awaitHealthWindow env margin >>= fun _ => pure OwnerEnd.open) channel
    = (r, channel') from hr] at hco
  refine ⟨hco.onlyRead, hco.outcome.imp_left ?_⟩
  rintro ⟨ho, a, -, hn⟩
  exact ⟨ho, hn⟩

/-- The bytes of the two health results. -/
def acceptedWire : List Byte := (AttemptRecord.healthResult .accepted).wire

def rolledBackWire : List Byte := (AttemptRecord.healthResult .rolledBack).wire

theorem tryWrite_run (env : Env) (record : AttemptRecord) (channel : OwnerChannel) :
    ∃ r channel', tryWrite env record channel = (.ok r, channel') ∧
      channel'.link.writes = channel.link.writes + 1 ∧ channel'.phase = channel.phase ∧
      ∃ part, part <+: record.wire ∧ channel'.link.written = channel.link.written ++ part := by
  unfold tryWrite AttemptRecord.writeTo
  rw [record.encoded_eq]
  cases env.writeFault channel.link.writes with
  | none => exact ⟨_, _, rfl, rfl, rfl, record.wire, prefix_rfl, rfl⟩
  | some fault => exact ⟨_, _, rfl, rfl, rfl, _, take_prefix _ _, rfl⟩

/-- `accept` in phase writes the accepted result and keeps nothing open. -/
theorem run_accept (hph : channel.phase = .healthy)
    (hr : OwnerCall.accept.run env channel = (r, channel')) :
    (∃ left, r = .ok left ∧ left ≠ .open) ∧ channel'.link.writes = channel.link.writes + 1 ∧
      ∃ part, part <+: acceptedWire ∧ channel'.link.written = channel.link.written ++ part := by
  obtain ⟨wrote, mid, hw, hwrs, -, hp⟩ := tryWrite_run env (.healthResult .accepted) channel
  have hac : acceptWrite env channel = (.ok wrote, mid) := by
    rw [← hw]
    exact if_neg (not_not.mpr hph)
  unfold OwnerCall.run at hr
  dsimp only at hr
  rw [Proc.bind_run_ok hac] at hr
  cases wrote with
  | ok | error =>
    cases hr
    exact ⟨⟨_, rfl, nofun⟩, hwrs, hp⟩

/-- The rollback writes its result once or not at all. -/
theorem run_rollBack (hr : OwnerCall.rollBack.run env channel = (r, channel')) :
    r = .ok .gone ∧ channel'.link.writes ≤ channel.link.writes + 1 ∧
      channel'.phase = channel.phase ∧
      ∃ part, part <+: rolledBackWire ∧ channel'.link.written = channel.link.written ++ part := by
  have hno : ∃ part, part <+: rolledBackWire ∧
      channel.link.written = channel.link.written ++ part :=
    ⟨[], nil_prefix, (append_nil _).symm⟩
  have hca : ∃ seen mid, rollBack env channel = (.ok seen, mid) ∧
      mid.link.writes ≤ channel.link.writes + 1 ∧ mid.phase = channel.phase ∧
      ∃ part, part <+: rolledBackWire ∧ mid.link.written = channel.link.written ++ part := by
    unfold rollBack
    dsimp only
    split_ifs with he
    · exact ⟨_, _, rfl, Nat.le_succ _, rfl, hno⟩
    · obtain ⟨wrote, mid, hw, hwrs, hph, hp⟩ := tryWrite_run env
        (.healthResult .rolledBack) { channel with queries := channel.queries + 1 }
      rw [hw]
      split
      · exact ⟨_, _, rfl, Nat.le_succ _, rfl, hno⟩
      · cases wrote with
        | ok | error => exact ⟨_, _, rfl, hwrs.le, hph, hp⟩
  obtain ⟨seen, mid, hro, hwrs, hph, hp⟩ := hca
  unfold OwnerCall.run at hr
  dsimp only at hr
  rw [Proc.bind_run_ok hro] at hr
  cases hr
  exact ⟨rfl, hwrs, hph, hp⟩

/-- The channel was accepted for this attempt. -/
def OwnerChannel.For (transcript : AttemptTranscript) (channel : OwnerChannel) : Prop :=
  channel.transcript = transcript

theorem settle_transcript {α : Type} {next : α → OwnerPhase} (r : Except ExchangeHalt α × Link) :
    (channel.settle next r).2.transcript = channel.transcript := by
  obtain ⟨halt | a, link⟩ := r
  · cases halt <;> exact rfl
  · rfl

theorem tryWrite_transcript (env : Env) (record : AttemptRecord) (channel : OwnerChannel) :
    (tryWrite env record channel).2.transcript = channel.transcript := by
  unfold tryWrite
  split <;> exact rfl

/-- No call changes what the channel was accepted for. -/
theorem OwnerCall.run_transcript (env : Env) (transcript : AttemptTranscript) (call : OwnerCall) :
    Proc.Keeps (OwnerChannel.For transcript) (call.run env) := by
  cases call with
  | readBoot digest =>
    refine Proc.Keeps.bind ?_ (fun _ => Proc.keeps_pure _ _)
    intro channel hfor
    unfold OwnerChannel.readBoot
    split_ifs
    · exact hfor
    · exact (settle_transcript _).trans hfor
  | readReady =>
    refine Proc.Keeps.bind ?_ (fun _ => Proc.keeps_pure _ _)
    intro channel hfor
    unfold OwnerChannel.readReady
    split_ifs
    · exact hfor
    · exact (settle_transcript _).trans hfor
  | awaitHealthWindow margin =>
    refine Proc.Keeps.bind ?_ (fun _ => Proc.keeps_pure _ _)
    intro channel hfor
    unfold OwnerChannel.awaitHealthWindow
    split
    · exact (settle_transcript _).trans hfor
    · exact hfor
  | accept =>
    refine Proc.Keeps.bind ?_ (fun wrote => ?_)
    · intro channel hfor
      unfold OwnerChannel.acceptWrite
      split_ifs
      · exact hfor
      · exact (tryWrite_transcript env _ channel).trans hfor
    · cases wrote <;> exact Proc.keeps_pure _ _
  | rollBack =>
    refine Proc.Keeps.bind ?_ (fun _ => Proc.keeps_pure _ _)
    intro channel hfor
    have hw := (tryWrite_transcript env (.healthResult .rolledBack)
      { channel with queries := channel.queries + 1 }).trans hfor
    unfold OwnerChannel.rollBack
    dsimp only
    split_ifs
    · exact hfor
    · split
      · exact hfor
      · split
        all_goals
          rename_i hr
          rw [hr] at hw
          exact hw

end Calls

end Keld.Attempt
