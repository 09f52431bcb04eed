/-
# `Keld.Attempt.Acceptance` — one claimant, admitted once

The log of a waiting owner has one shape (`Unclaimed`): clock readings,
connections begun before the deadline, challenges, refusals.  Everything before
the one-shot keeps that shape, whatever the peer sends, and the one-shot comes
once, right after a clock reading before the deadline and right before the
receipt (`ClaimLog`).  `admitClaimant_ok` reads off what an accepted connection
has proved; an honest claimant that also completed holds the same transcript.
-/
import Keld.Attempt.Claim
import Keld.Attempt.Codec
import Keld.Lib.Machine

namespace Keld.Attempt

open List

open Ipc (Instant Duration ErrorKind Link Delivery SessionToken arriving)

/-! ## Transcripts -/

theorem decode_acknowledgement (transcript : AttemptTranscript) :
    decode .ownerAcknowledgement (AttemptRecord.acknowledgement transcript).wire
      = some (.ok (.acknowledgement transcript)) := decode_wire rfl

theorem acknowledgement_injective {transcript other : AttemptTranscript}
    (h : (AttemptRecord.acknowledgement transcript).wire
      = (AttemptRecord.acknowledgement other).wire) : transcript = other := by
  have hr := decode_acknowledgement transcript
  rw [h, decode_acknowledgement other] at hr
  cases hr
  rfl

theorem AttemptTranscript.same_iff {transcript received : AttemptTranscript} :
    transcript.same received = true ↔ transcript = received := by
  cases transcript
  cases received
  simp only [same, Bool.and_eq_true, beq_iff_eq, SessionToken.sameAs_iff,
    AttemptTranscript.mk.injEq, and_assoc]

/-! ## Reading the exchange backwards -/

section Pieces

variable {α : Type} {a : α} {s s' : OwnerState}

variable {stop : AttemptRecordError → Stop} {record : AttemptRecord}

theorem overLink_ok {x : RecordIo α} (h : overLink stop x s = (.ok a, s')) :
    ∃ link, x s.link = (.ok a, link) ∧ s' = { s with link := link } := by
  unfold overLink at h
  rcases hx : x s.link with ⟨r, link⟩
  rw [hx] at h
  cases r with
  | ok b =>
    cases h
    exact ⟨link, rfl, rfl⟩
  | error halt => cases halt <;> cases h

theorem asked_ok {stop : ErrorKind → Stop} {answer : Except ErrorKind α}
    (h : asked stop answer s = (.ok a, s')) : answer = .ok a ∧ s' = s := by
  cases answer with
  | ok b =>
    cases h
    exact ⟨rfl, rfl⟩
  | error source => cases h

theorem orRefuseRecord_ok {r : Except AttemptRecordError α}
    (h : orRefuseRecord r s = (.ok a, s')) : r = .ok a ∧ s' = s := by
  cases r with
  | ok b =>
    cases h
    exact ⟨rfl, rfl⟩
  | error err => cases h

theorem orStop_ok {stop : Stop} {value : Option α} (h : orStop stop value s = (.ok a, s')) :
    value = some a ∧ s' = s := by
  cases value with
  | some b =>
    cases h
    exact ⟨rfl, rfl⟩
  | none => cases h

theorem required_ok {test : Bool} {stop : Stop}
    (h : (Proc.ofExcept (require test stop) : ClaimIo Unit) s = (.ok (), s')) :
    test = true ∧ s' = s := by
  obtain ⟨hr, rfl⟩ := Prod.mk.inj h
  exact ⟨require_ok.mp hr, rfl⟩

theorem stillRuns_ok {pin : Pin} {query : Nat} (h : stillRuns pin query s = (.ok (), s')) :
    pin.hasExited query = .ok false ∧ s' = s := by
  obtain ⟨hte, hs⟩ := required_ok h
  refine ⟨?_, hs⟩
  split at hte
  next hex => exact hex
  next => cases hte

theorem writeRecord_ok {peer : Peer} (h : writeRecord peer stop record s = (.ok (), s')) :
    s'.link.script = s.link.script := by
  obtain ⟨⟨⟩, s₁, hno, h⟩ := Proc.bind_ok_iff.mp h
  obtain ⟨link, hw, rfl⟩ := overLink_ok h
  cases hno
  exact (writeTo_ok hw).2

theorem claimOf_ok {claim : AttemptClaim} (h : claimOf record = .ok claim) :
    record = .claim claim := by
  unfold claimOf at h
  split at h
  · cases h
    rfl
  · cases h

theorem acknowledgementOf_ok {transcript : AttemptTranscript}
    (h : acknowledgementOf record = .ok transcript) : record = .acknowledgement transcript := by
  unfold acknowledgementOf at h
  split at h
  · cases h
    rfl
  · cases h

theorem forOwner_ok {claim : AttemptClaim} {installationId : Id} {pid : UInt32}
    {challenge : AttemptChallenge} {transcript : AttemptTranscript}
    (h : AttemptTranscript.forOwner claim installationId pid challenge = .ok transcript) :
    claim.installationId = installationId ∧ claim.clientPid = pid ∧
      transcript = .join claim challenge := by
  unfold AttemptTranscript.forOwner at h
  rw [bind_unit_ok, bind_unit_ok, require_ok, require_ok, beq_iff_eq, beq_iff_eq] at h
  obtain ⟨hin, hpid, h⟩ := h
  cases h
  exact ⟨hin, hpid, rfl⟩

end Pieces

/-- What an accepted connection has shown: the claim, and the connected process. -/
structure ClaimFacts where
  claim : AttemptClaim
  pid : UInt32
  session : UInt32
  token : TokenFacts
  nonce : SessionToken

/-- The challenge the endpoint answers with. -/
def Endpoint.challenge (endpoint : Endpoint) (nonce : SessionToken) : AttemptChallenge :=
  ⟨endpoint.attempt, endpoint.healthChannel, nonce, endpoint.processId⟩

structure Admitted (endpoint : Endpoint) (peer : Peer) (pin : Pin)
    (transcript : AttemptTranscript) (facts : ClaimFacts) : Prop where
  /-- the connection carried the claim and then the transcript as the acknowledgement -/
  records : ∃ rest, arriving peer.script = (AttemptRecord.claim facts.claim).wire ++
    ((AttemptRecord.acknowledgement transcript).wire ++ rest)
  installation : facts.claim.installationId = endpoint.installation
  process : peer.processId = .ok facts.pid ∧ facts.claim.clientPid = facts.pid
  session : peer.sessionId = .ok facts.session
  token : peer.token = .ok facts.token ∧ facts.token.sessionId = facts.session
  checked : peer.checkClaimant facts.pid facts.session facts.token = some pin
  pinned : pin.processId = facts.pid ∧ pin.sessionId = facts.session
  running : pin.hasExited 0 = .ok false ∧ pin.hasExited 1 = .ok false
  /-- the transcript is the owner's own -/
  own : peer.nonce = .ok facts.nonce ∧
    transcript = .join facts.claim (endpoint.challenge facts.nonce)

theorem admitClaimant_ok {env : OwnerEnv} {endpoint : Endpoint} {peer : Peer} {deadline : Instant}
    {perConnection : Duration} {s s' : OwnerState} {pin : Pin} {transcript : AttemptTranscript}
    (hli : s.link = .fresh peer.script)
    (h : admitClaimant env endpoint peer deadline perConnection s = (.ok (pin, transcript), s')) :
    ∃ facts, Admitted endpoint peer pin transcript facts := by
  unfold admitClaimant at h
  simp only [Proc.bind_ok_iff] at h
  obtain ⟨started, s₁, hcl, window, s₂, hwi, ⟨⟩, s₃, hop, ⟨⟩, s₄, hno, clientPid, s₅,
    hpid, clientSession, s₆, hse, record, s₇, hr, claim, s₈, hcm, serverNonce, s₉, hnn,
    found, s₁₀, hf, token, s₁₁, hto, pin', s₁₂, hpin, ⟨⟩, s₁₃, hpi, ⟨⟩, s₁₄, hru,
    ⟨⟩, s₁₅, hw, record', s₁₆, hr', acknowledged, s₁₇, hack, ⟨⟩, s₁₈, hm, ⟨⟩, s₁₉,
    hru', hd⟩ := h
  cases hd
  have hcl' : s₁.link = s.link := by cases hcl; exact rfl
  have hno' : s₄.link = s₃.link := by cases hno; exact rfl
  obtain ⟨-, rfl⟩ := orStop_ok hwi
  obtain ⟨-, rfl⟩ := asked_ok hop
  obtain ⟨epid, rfl⟩ := asked_ok hpid
  obtain ⟨esession, rfl⟩ := asked_ok hse
  obtain ⟨link, eread, rfl⟩ := overLink_ok hr
  obtain ⟨eclaim, rfl⟩ := orRefuseRecord_ok hcm
  obtain ⟨enonce, rfl⟩ := asked_ok hnn
  obtain ⟨efound, rfl⟩ := orRefuseRecord_ok hf
  obtain ⟨etoken, rfl⟩ := asked_ok hto
  obtain ⟨epin, rfl⟩ := orStop_ok hpin
  obtain ⟨epinned, rfl⟩ := required_ok hpi
  obtain ⟨eruns, rfl⟩ := stillRuns_ok hru
  have hscr := writeRecord_ok hw
  obtain ⟨link', eread', rfl⟩ := overLink_ok hr'
  obtain ⟨eack, rfl⟩ := orRefuseRecord_ok hack
  obtain ⟨ematch, rfl⟩ := orRefuseRecord_ok hm
  obtain ⟨eruns', rfl⟩ := stillRuns_ok hru'
  obtain rfl := claimOf_ok eclaim
  obtain rfl := acknowledgementOf_ok eack
  obtain rfl := AttemptTranscript.same_iff.mp (require_ok.mp ematch)
  obtain ⟨hin, hclientPid, hjo⟩ := forOwner_ok efound
  simp only [Bool.and_eq_true, beq_iff_eq] at epinned
  obtain ⟨⟨hpr, hpinSession⟩, htokenSession⟩ := epinned
  refine ⟨⟨claim, clientPid, clientSession, token, serverNonce⟩, ?_, hin,
    ⟨epid, hclientPid⟩, esession, ⟨etoken, htokenSession⟩, epin, ⟨hpr, hpinSession⟩,
    ⟨eruns, eruns'⟩, ⟨enonce, hjo⟩⟩
  -- the acknowledgement is read where the claim ended, the challenge in between writes only
  have hfr := (readFrom_ok eread).1
  have hba := (readFrom_ok eread').1
  rw [hscr] at hba
  rw [hno', hcl', hli] at hfr
  refine ⟨arriving link'.script, ?_⟩
  rw [← hba]
  exact hfr

/-! ## The log of an owner -/

/-- The last event is a clock reading before the deadline. -/
def EndsInTime (deadline : Instant) (log : List ClaimEvent) : Prop :=
  ∃ before now, log = before ++ [.clock now] ∧ now < deadline

/-- What must have come before an event. -/
def Lawful (deadline : Instant) (before : List ClaimEvent) : ClaimEvent → Prop
  | .connected => EndsInTime deadline before
  | .consumed => .consumed ∉ before ∧ EndsInTime deadline before
  | .wrote (.receipt _) => .consumed ∈ before
  | .refused _ => .consumed ∉ before
  | .deadlineSet (some d) => d ≤ deadline
  | _ => True

/-- Every event of the log came lawfully. -/
def LawfulLog (deadline : Instant) (log : List ClaimEvent) : Prop :=
  Machine.Guarded (Lawful deadline) log

/-- The log of an owner that has not taken its one-shot. -/
structure Unclaimed (deadline : Instant) (log : List ClaimEvent) : Prop where
  lawful : LawfulLog deadline log
  untaken : ClaimEvent.consumed ∉ log

section Log

variable {deadline : Instant} {log : List ClaimEvent} {event : ClaimEvent}

theorem lawfulLog_nil : LawfulLog deadline [] := by
  intro before event after h
  simp at h

theorem LawfulLog.snoc (h : LawfulLog deadline log) (event : ClaimEvent)
    (hev : Lawful deadline log event) : LawfulLog deadline (log ++ [event]) :=
  Machine.guarded_snoc.mpr ⟨h, hev⟩

theorem Unclaimed.snoc (h : Unclaimed deadline log) (event : ClaimEvent)
    (hev : Lawful deadline log event) (hne : event ≠ .consumed) :
    Unclaimed deadline (log ++ [event]) := by
  refine ⟨h.lawful.snoc event hev, ?_⟩
  rw [mem_append, mem_singleton]
  rintro (hm | rfl)
  · exact h.untaken hm
  · exact hne rfl

/-- The one-shot is taken at most once. -/
theorem LawfulLog.count_le (h : LawfulLog deadline log) : log.count .consumed ≤ 1 := by
  induction log using reverseRecOn with
  | nil => exact Nat.zero_le 1
  | append_singleton before event ih =>
    obtain ⟨hb, hlaw⟩ := Machine.guarded_snoc.mp h
    rw [count_append]
    by_cases hev : event = .consumed
    · subst hev
      have hun : ClaimEvent.consumed ∉ before := hlaw.1
      rw [count_eq_zero.mpr hun, count_singleton_self]
    · have hn : [event].count ClaimEvent.consumed = 0 := by
        rw [count_eq_zero, mem_singleton]
        exact fun h => hev h.symm
      rw [hn]
      exact ih hb

end Log

/-! ## Nothing before the one-shot takes it -/

section Keeps

variable {deadline : Instant}

/-- The invariant of the wait. -/
def Waits (deadline : Instant) (s : OwnerState) : Prop := Unclaimed deadline s.log

theorem note_keeps (event : ClaimEvent) (hev : ∀ log, Lawful deadline log event)
    (hne : event ≠ .consumed) : Proc.Keeps (Waits deadline) (note event) :=
  fun _ h => h.snoc event (hev _) hne

theorem ownerClock_keeps (env : OwnerEnv) : Proc.Keeps (Waits deadline) (ownerClock env) :=
  fun s h => h.snoc (.clock (env.now s.readings)) trivial nofun

theorem overLink_keeps {α : Type} (stop : AttemptRecordError → Stop) (x : RecordIo α) :
    Proc.Keeps (Waits deadline) (overLink stop x) := fun _ h => h

theorem ofExcept_keeps {α : Type} (r : Except Stop α) :
    Proc.Keeps (Waits deadline) (Proc.ofExcept r : ClaimIo α) := Proc.keeps_ofExcept _ r

theorem peerHandshakeWindow_le {env : OwnerEnv} {started window : Instant} {limit : Duration}
    (h : peerHandshakeWindow env started deadline limit = some window) : window ≤ deadline := by
  unfold peerHandshakeWindow at h
  have hle := Nat.min_le_left (deadline - started) limit
  generalize min (deadline - started) limit = timeout at h hle
  dsimp only at h
  split_ifs at h with hs
  cases h
  exact Nat.add_le_of_le_sub' hs hle

theorem writeChallenge_keeps (peer : Peer) (stop : AttemptRecordError → Stop)
    (challenge : AttemptChallenge) :
    Proc.Keeps (Waits deadline) (writeRecord peer stop (.challenge challenge)) :=
  (note_keeps (.wrote (.challenge challenge)) (fun _ => trivial) nofun).bind
    fun _ => overLink_keeps _ _

theorem admitClaimant_keeps (env : OwnerEnv) (endpoint : Endpoint) (peer : Peer)
    (perConnection : Duration) :
    Proc.Keeps (Waits deadline) (admitClaimant env endpoint peer deadline perConnection) := by
  refine (ownerClock_keeps env).bind fun started => ?_
  refine (ofExcept_keeps _).bindOf (Q := fun window => window ≤ deadline) ?_ ?_
  · intro s window s' h
    exact peerHandshakeWindow_le (orStop_ok h).1
  intro window hw
  refine (ofExcept_keeps _).bind fun _ => ?_
  refine (note_keeps (.deadlineSet (some window)) (fun _ => hw) nofun).bind fun _ => ?_
  refine (ofExcept_keeps _).bind fun clientPid => ?_
  refine (ofExcept_keeps _).bind fun clientSession => ?_
  refine (overLink_keeps _ _).bind fun record => ?_
  refine (ofExcept_keeps _).bind fun claim => ?_
  refine (ofExcept_keeps _).bind fun serverNonce => ?_
  refine (ofExcept_keeps _).bind fun transcript => ?_
  refine (ofExcept_keeps _).bind fun token => ?_
  refine (ofExcept_keeps _).bind fun pin => ?_
  refine (ofExcept_keeps _).bind fun _ => ?_
  refine (ofExcept_keeps _).bind fun _ => ?_
  refine (writeChallenge_keeps peer _ _).bind fun _ => ?_
  refine (overLink_keeps _ _).bind fun record => ?_
  refine (ofExcept_keeps _).bind fun acknowledged => ?_
  refine (ofExcept_keeps _).bind fun _ => ?_
  refine (ofExcept_keeps _).bind fun _ => ?_
  exact Proc.keeps_pure _ _

end Keeps

/-! ## The one-shot and the receipt -/

/-- The connection is over and the owner has not accepted anyone. -/
def Stop.Retries : Stop → Prop
  | .refused _ => True
  | .expired => True
  | .cancelled => True
  | .failed _ => False
  | .waiting => False
  | .panicked => False

/-- The log of an owner that has taken its one-shot. -/
def Taken (deadline : Instant) (s : OwnerState) : Prop :=
  LawfulLog deadline s.log ∧ ClaimEvent.consumed ∈ s.log

section Grant

variable {env : OwnerEnv} {peer : Peer} {deadline : Instant} {pin : Pin}
variable {transcript : AttemptTranscript} {s s' : OwnerState}

theorem Taken.snoc (h : Taken deadline s) (event : ClaimEvent)
    (hev : Lawful deadline s.log event) (hl : s'.log = s.log ++ [event]) :
    Taken deadline s' := by
  refine ⟨?_, ?_⟩
  · rw [hl]
    exact h.1.snoc event hev
  · rw [hl]
    exact mem_append_left _ h.2

theorem consume_log (h : Waits deadline s) (hcl : EndsInTime deadline s.log) :
    ∃ taken, consume env s = (.ok taken, (consume env s).2) ∧
      (if taken then Taken deadline (consume env s).2 else Waits deadline (consume env s).2) := by
  unfold consume
  dsimp only
  split_ifs with hca
  · exact ⟨false, rfl, h⟩
  · refine ⟨true, rfl, ?_⟩
    refine ⟨h.lawful.snoc .consumed ⟨h.untaken, hcl⟩, ?_⟩
    exact mem_append_right _ (mem_singleton.mpr rfl)

/-- A receipt that cannot be written ends the wait. -/
theorem writeReceipt_log (peer : Peer) (transcript : AttemptTranscript) (h : Taken deadline s) :
    Taken deadline (writeRecord peer (fun err => .failed (.record err)) (.receipt transcript) s).2 ∧
      ∀ stop s', writeRecord peer (fun err => .failed (.record err)) (.receipt transcript) s
        = (.error stop, s') → ¬ stop.Retries := by
  have hno : note (.wrote (.receipt transcript)) s
      = (.ok (), { s with log := s.log ++ [.wrote (.receipt transcript)] }) := rfl
  unfold writeRecord
  rw [Proc.bind_run_ok hno]
  refine ⟨h.snoc (.wrote (.receipt transcript)) h.2 rfl, ?_⟩
  intro stop s' heo
  unfold overLink at heo
  generalize (AttemptRecord.receipt transcript).writeTo peer.writeFault _ = res at heo
  obtain ⟨r, link⟩ := res
  cases r with
  | ok u => cases heo
  | error halt =>
    cases halt <;>
    · cases heo
      exact id

/-- The end of the exchange: its log is lawful, and a connection that may be retried has not taken
the one-shot. -/
theorem grantReceipt_log (h : Waits deadline s) :
    LawfulLog deadline (grantReceipt env peer deadline pin transcript s).2.log ∧
      ∀ stop s', grantReceipt env peer deadline pin transcript s = (.error stop, s') →
        stop.Retries → Waits deadline s' := by
  have hcl : ownerClock env s = (.ok (env.now s.readings), (ownerClock env s).2) := rfl
  have hwa := ownerClock_keeps env s h
  unfold grantReceipt
  rw [Proc.bind_run_ok hcl]
  by_cases hti : env.now s.readings < deadline
  · have hp : (Proc.ofExcept (require (env.now s.readings < deadline) .expired) : ClaimIo Unit)
        (ownerClock env s).2 = (.ok (), (ownerClock env s).2) := by
      rw [decide_eq_true hti]
      rfl
    rw [Proc.bind_run_ok hp]
    obtain ⟨taken, ht, hl⟩ := consume_log hwa ⟨s.log, _, rfl, hti⟩
    rw [Proc.bind_run_ok ht]
    cases taken with
    | false =>
      refine ⟨hl.lawful, ?_⟩
      intro stop s' heo _
      cases heo
      exact hl
    | true =>
      rw [if_pos rfl] at hl ⊢
      obtain ⟨hrc, hs⟩ := writeReceipt_log peer transcript hl
      rcases hw : writeRecord peer (fun err => .failed (.record err)) (.receipt transcript)
        (consume env (ownerClock env s).2).2 with ⟨r, s₃⟩
      rw [hw] at hrc
      cases r with
      | error stop =>
        rw [Proc.bind_run_error hw]
        refine ⟨hrc.1, ?_⟩
        intro stop' s' heo hre
        cases heo
        exact absurd hre (hs _ _ hw)
      | ok u =>
        rw [Proc.bind_run_ok hw]
        refine ⟨hrc.1.snoc (.deadlineSet none) trivial, ?_⟩
        intro stop' s' heo _
        cases heo
  · have hf : (Proc.ofExcept (require (env.now s.readings < deadline) .expired) : ClaimIo Unit)
        (ownerClock env s).2 = (.error .expired, (ownerClock env s).2) := by
      rw [decide_eq_false hti]
      rfl
    rw [Proc.bind_run_error hf]
    refine ⟨hwa.lawful, ?_⟩
    intro stop s' heo _
    cases heo
    exact hwa

theorem grantReceipt_ok {channel : OwnerChannel}
    (h : grantReceipt env peer deadline pin transcript s = (.ok channel, s')) :
    channel.pin = pin ∧ channel.transcript = transcript ∧ channel.phase = .accepted := by
  unfold grantReceipt at h
  simp only [Proc.bind_ok_iff] at h
  obtain ⟨now, s₁, hcl, ⟨⟩, s₂, hti, taken, s₃, ht, h⟩ := h
  cases taken with
  | false => cases h
  | true =>
    rw [if_pos rfl] at h
    simp only [Proc.bind_ok_iff] at h
    obtain ⟨⟨⟩, s₄, hw, ⟨⟩, s₅, hno, last, s₆, hst, h⟩ := h
    cases h
    exact ⟨rfl, rfl, rfl⟩

end Grant

/-! ## One connection and the loop over them -/

section Exchange

variable {env : OwnerEnv} {endpoint : Endpoint} {peer : Peer} {deadline : Instant}
variable {perConnection : Duration} {s s' : OwnerState}

theorem exchangeOne_log (env : OwnerEnv) (endpoint : Endpoint) (peer : Peer)
    (perConnection : Duration) (h : Waits deadline s) :
    LawfulLog deadline (exchangeOne env endpoint peer deadline perConnection s).2.log ∧
      ∀ stop s', exchangeOne env endpoint peer deadline perConnection s = (.error stop, s') →
        stop.Retries → Waits deadline s' := by
  have hke := admitClaimant_keeps env endpoint peer perConnection s h
  unfold exchangeOne
  rcases ha : admitClaimant env endpoint peer deadline perConnection s with ⟨r, s₁⟩
  rw [ha] at hke
  cases r with
  | error stop =>
    rw [Proc.bind_run_error ha]
    refine ⟨hke.lawful, ?_⟩
    intro stop' s' heo _
    cases heo
    exact hke
  | ok found =>
    rw [Proc.bind_run_ok ha]
    exact grantReceipt_log hke

theorem exchangeOne_ok {channel : OwnerChannel} (hli : s.link = .fresh peer.script)
    (h : exchangeOne env endpoint peer deadline perConnection s = (.ok channel, s')) :
    ∃ facts, Admitted endpoint peer channel.pin channel.transcript facts := by
  obtain ⟨⟨pin, transcript⟩, s₁, ha, h⟩ := Proc.bind_ok_iff.mp h
  obtain ⟨rfl, rfl, -⟩ := grantReceipt_ok h
  exact admitClaimant_ok hli ha

/-- What a run of the accept loop has to show for itself. -/
structure RunOf (endpoint : Endpoint) (deadline : Instant) (arrivals : List Arrival)
    (run : Except ExchangeHalt OwnerChannel × OwnerState) : Prop where
  admitted : ∀ channel, run.1 = .ok channel → ∃ peer facts, .ready peer ∈ arrivals ∧
    Admitted endpoint peer channel.pin channel.transcript facts
  lawful : LawfulLog deadline run.2.log

variable {arrivals rest : List Arrival} {arrival : Arrival}
variable {run : Except ExchangeHalt OwnerChannel × OwnerState}

theorem RunOf.later (h : RunOf endpoint deadline rest run) (arrival : Arrival) :
    RunOf endpoint deadline (arrival :: rest) run := by
  refine ⟨?_, h.lawful⟩
  intro channel hc
  obtain ⟨peer, facts, hm, ha⟩ := h.admitted channel hc
  exact ⟨peer, facts, mem_cons_of_mem _ hm, ha⟩

theorem runOf_error {halt : ExchangeHalt} (h : LawfulLog deadline s.log) :
    RunOf endpoint deadline arrivals (.error halt, s) := ⟨nofun, h⟩

theorem endWith_runOf (h : Waits deadline s) (ended : ExchangeError) :
    RunOf endpoint deadline arrivals (endWith env ended s) := by
  have hcl : LawfulLog deadline (s.log ++ [.closed]) := h.lawful.snoc .closed trivial
  unfold endWith closeTerminal
  cases env.closeFault <;> exact ⟨nofun, hcl⟩

theorem waitEnded_runOf (h : Waits deadline s) (ended : ExchangeError) :
    RunOf endpoint deadline arrivals (waitEnded env ended s) := by
  have hcl : LawfulLog deadline (s.log ++ [.closed]) := h.lawful.snoc .closed trivial
  unfold waitEnded closeTerminal
  cases env.closeFault <;> exact ⟨nofun, hcl⟩

theorem disconnectForRetry_waits (env : OwnerEnv) (h : Waits deadline s) :
    Waits deadline (disconnectForRetry env s).2 := by
  unfold disconnectForRetry
  split_ifs <;> exact h

theorem acceptClaimWith_runOf (env : OwnerEnv) (endpoint : Endpoint) (perConnection : Duration)
    (arrivals : List Arrival) :
    ∀ s, Waits deadline s →
      RunOf endpoint deadline arrivals
        (acceptClaimWith env endpoint deadline perConnection arrivals s) := by
  induction arrivals with
  | nil =>
    intro s h
    have hca : Waits deadline (cancelLands env s) := h
    unfold acceptClaimWith
    dsimp only
    generalize cancelLands env s = s₀ at hca ⊢
    have hcl := ownerClock_keeps env s₀ hca
    split_ifs with hcanc hla
    · exact endWith_runOf hca _
    · exact endWith_runOf hcl _
    · exact runOf_error hcl.lawful
  | cons arrival rest ih =>
    intro s h
    have hca : Waits deadline (cancelLands env s) := h
    -- the instance waits again only after a disconnect that left the one-shot alone
    have hag : ∀ s out, Waits deadline s →
        (∀ source s', disconnectForRetry env s = (some source, s') →
          out = (.error (.failed (os "disconnect a refused claimant" source)), s')) →
        (∀ s', disconnectForRetry env s = (none, s') →
          out = acceptClaimWith env endpoint deadline perConnection rest s') →
        RunOf endpoint deadline (arrival :: rest) out := by
      intro s out hs hst hgo
      have hre := disconnectForRetry_waits env hs
      rcases hfa : disconnectForRetry env s with ⟨fault, s₁⟩
      rw [hfa] at hre
      cases fault with
      | none =>
        rw [hgo s₁ hfa]
        exact (ih s₁ hre).later arrival
      | some source =>
        rw [hst source s₁ hfa]
        exact runOf_error hre.lawful
    unfold acceptClaimWith
    dsimp only
    generalize cancelLands env s = s₀ at hca ⊢
    have hcl := ownerClock_keeps env s₀ hca
    split_ifs with hcanc hla hco
    · exact endWith_runOf hca _
    · exact endWith_runOf hcl _
    · exact runOf_error hcl.lawful
    cases arrival with
    | failed source => exact runOf_error hcl.lawful
    | cancelled | deadlineElapsed => exact waitEnded_runOf hcl _
    | peerClosed =>
      refine hag _ _ hcl (fun _ _ h => ?_) (fun _ h => ?_)
      all_goals
        dsimp only [ownerClock] at h ⊢
        rw [h]
    | ready peer =>
      have hcnd : Unclaimed deadline ((ownerClock env s₀).2.log ++ [.connected]) :=
        hcl.snoc .connected ⟨s₀.log, _, rfl, Nat.lt_of_not_le hla⟩ nofun
      dsimp only
      generalize hstate : OwnerState.mk _ _ _ _ _ _ _ = s₁
      have hs₁ : Waits deadline s₁ := by
        subst hstate
        exact hcnd
      have hli : s₁.link = .fresh peer.script := by
        subst hstate
        rfl
      obtain ⟨hlaw, hrt⟩ := exchangeOne_log env endpoint peer perConnection hs₁
      rcases hr : exchangeOne env endpoint peer deadline perConnection s₁ with ⟨r, s₂⟩
      rw [hr] at hlaw
      cases r with
      | ok channel =>
        obtain ⟨facts, ha⟩ := exchangeOne_ok hli hr
        refine ⟨?_, hlaw⟩
        intro channel' hc
        cases hc
        exact ⟨peer, facts, mem_cons_self, ha⟩
      | error stop =>
        have hwa := hrt stop s₂ hr
        cases stop with
        | refused refusal =>
          have hs₂ := hwa trivial
          have href := hs₂.snoc (.refused refusal) hs₂.untaken nofun
          exact hag { s₂ with log := s₂.log ++ [.refused refusal] } _ href
            (fun _ _ h => by dsimp only; rw [h]) (fun _ h => by dsimp only; rw [h])
        | expired | cancelled => exact endWith_runOf (hwa trivial) _
        | failed | waiting | panicked => exact runOf_error hlaw

end Exchange

/-! ## The claimant -/

section Claimant

variable {α : Type} {a : α} {link link' : Link}

theorem orEnd_ok {r : Except ExchangeError α} (h : orEnd r link = (.ok a, link')) :
    r = .ok a ∧ link' = link := by
  cases r with
  | ok b =>
    cases h
    exact ⟨rfl, rfl⟩
  | error err => cases h

theorem orRecord_ok {r : Except AttemptRecordError α} (h : orRecord r link = (.ok a, link')) :
    r = .ok a ∧ link' = link := by
  cases r with
  | ok b =>
    cases h
    exact ⟨rfl, rfl⟩
  | error err => cases h

theorem readRecord_ok {position : AttemptReadPosition} {record : AttemptRecord}
    (h : readRecord position link = (.ok record, link')) :
    arriving link.script = record.wire ++ arriving link'.script ∧ link'.written = link.written := by
  have hr := Proc.mapError_ok h
  refine ⟨(readFrom_ok hr).1, ?_⟩
  have hw := (readFrom_onlyRead position link).written
  rwa [hr] at hw

/-- A claimant that completed sent its claim and acknowledged the transcript it holds. -/
theorem claim_ok {blake3 : List Byte → Chunk 32} {client : Claimant} {installationId : Id}
    {channel : ClaimantChannel} {link link' : Link}
    (h : claim blake3 client installationId link = (.ok channel, link')) :
    ∃ claim : AttemptClaim, claim.installationId = installationId ∧
      link'.written = link.written ++ ((AttemptRecord.claim claim).wire ++
        (AttemptRecord.acknowledgement channel.transcript).wire) := by
  unfold claim at h
  simp only [Proc.bind_ok_iff] at h
  obtain ⟨serverPid, l₁, hpid, clientNonce, l₂, hno, ⟨⟩, l₃, hcl, record, l₄, hr,
    challenge, l₅, hch, transcript, l₆, htr, ⟨⟩, l₇, hack, record', l₈, hr',
    receipt, l₉, hrc, ⟨⟩, l₁₀, hm, last, l₁₁, hst, hd⟩ := h
  cases hd
  cases hst
  obtain ⟨-, rfl⟩ := orEnd_ok hpid
  obtain ⟨-, rfl⟩ := orEnd_ok hno
  obtain ⟨-, rfl⟩ := orRecord_ok hch
  obtain ⟨-, rfl⟩ := orRecord_ok htr
  obtain ⟨-, rfl⟩ := orRecord_ok hrc
  obtain ⟨-, rfl⟩ := orRecord_ok hm
  have hcl' := (writeTo_ok (Proc.mapError_ok hcl)).1
  have hack' := (writeTo_ok (Proc.mapError_ok hack)).1
  refine ⟨⟨installationId, clientNonce, client.processId⟩, rfl, ?_⟩
  rw [(readRecord_ok hr').2, hack', (readRecord_ok hr).2, hcl', append_assoc]

end Claimant

/-! ## Agreement -/

/-- Records of one kind have one length, so two claims followed by acknowledgements line up. -/
theorem acknowledged_eq {claim claim' : AttemptClaim} {transcript transcript' : AttemptTranscript}
    {rest : List Byte}
    (h : (AttemptRecord.claim claim).wire ++
        ((AttemptRecord.acknowledgement transcript).wire ++ rest) <+:
      (AttemptRecord.claim claim').wire ++ (AttemptRecord.acknowledgement transcript').wire) :
    transcript = transcript' := by
  obtain ⟨more, h⟩ := h
  rw [append_assoc, append_assoc] at h
  have hcl : (AttemptRecord.claim claim).wire.length = (AttemptRecord.claim claim').wire.length :=
    by rw [AttemptRecord.length_wire, AttemptRecord.length_wire]; exact rfl
  obtain ⟨-, h⟩ := append_inj h hcl
  have hac : (AttemptRecord.acknowledgement transcript).wire.length
      = (AttemptRecord.acknowledgement transcript').wire.length := by
    rw [AttemptRecord.length_wire, AttemptRecord.length_wire]
    rfl
  have hwi := congrArg (List.take (AttemptRecord.acknowledgement transcript').wire.length) h
  rw [take_left' hac, take_length] at hwi
  exact acknowledgement_injective hwi

/-- The claim protocol against any peers on any number of connections. -/
structure ClaimAgreement (endpoint : Endpoint) (deadline : Instant) (arrivals : List Arrival)
    (run : Except ExchangeHalt OwnerChannel × OwnerState) : Prop where
  /-- an accepted channel comes from a connection that passed every check, and an honest claimant
  that completed on that connection holds the same transcript -/
  accepted : ∀ channel, run.1 = .ok channel → ∃ peer facts, .ready peer ∈ arrivals ∧
    Admitted endpoint peer channel.pin channel.transcript facts ∧
    ∀ blake3 client installationId script claimed link,
      claim blake3 client installationId (.fresh script) = (.ok claimed, link) →
      arriving peer.script <+: link.written → claimed.transcript = channel.transcript
  /-- the one-shot is taken at most once over all connections -/
  once : run.2.log.count .consumed ≤ 1
  /-- it is taken, and a connection begun, right after a clock reading before the deadline; no
  refused connection has taken it, the receipt comes behind it, and no connection's deadline is
  later than the claim's -/
  lawful : LawfulLog deadline run.2.log

theorem claim_agreement (env : OwnerEnv) (endpoint : Endpoint) (deadline : Instant)
    (perConnection : Duration) (arrivals : List Arrival) :
    ClaimAgreement endpoint deadline arrivals
      (acceptClaimWith env endpoint deadline perConnection arrivals .fresh) := by
  have hf : Waits deadline .fresh := ⟨lawfulLog_nil, not_mem_nil⟩
  have hr := acceptClaimWith_runOf env endpoint perConnection arrivals _ hf
  refine ⟨?_, hr.lawful.count_le, hr.lawful⟩
  intro channel hc
  obtain ⟨peer, facts, hm, ha⟩ := hr.admitted channel hc
  refine ⟨peer, facts, hm, ha, ?_⟩
  intro blake3 client installationId script claimed link hcl hse
  obtain ⟨rest, hre⟩ := ha.records
  obtain ⟨claim, -, hw⟩ := claim_ok hcl
  rw [hre, hw, Link.fresh, nil_append] at hse
  exact (acknowledged_eq hse).symm

/-! A stranger is refused and the claimant behind it is accepted. -/

def sampleId (b : Byte) : Id := ⟨List.replicate idLen b, length_replicate⟩

def sampleNonce (b : Byte) : SessionToken := ⟨List.replicate idLen b, length_replicate⟩

def sampleEndpoint : Endpoint := ⟨sampleId 1, sampleId 2, sampleId 3, 7⟩

def sampleClaim : AttemptClaim := ⟨sampleId 1, sampleNonce 4, 9⟩

def samplePin : Pin := ⟨9, 1, fun _ => .ok false⟩

def sampleTranscript : AttemptTranscript :=
  .join sampleClaim (sampleEndpoint.challenge (sampleNonce 5))

def samplePeer (bytes : List Byte) : Peer :=
  ⟨Ipc.unread bytes [], fun _ => none, .ok (), .ok 9, .ok 1, .ok (sampleNonce 5),
    .ok ⟨[], 1, 0, 0, false, 1⟩, fun _ _ _ => some samplePin⟩

def sampleOwnerEnv : OwnerEnv := ⟨fun reading => reading, 2 ^ 64, fun _ => false, fun _ => none, none⟩

example :
    (acceptClaimWith sampleOwnerEnv sampleEndpoint 100 50
      [.ready (samplePeer AttemptRecord.ready.wire),
        .ready (samplePeer ((AttemptRecord.claim sampleClaim).wire ++
          (AttemptRecord.acknowledgement sampleTranscript).wire))] .fresh).1.isOk = true := by
  decide +kernel

end Keld.Attempt
