/-
# `Keld.Attempt.HealthSafety` — the candidate arms only on health

`HealthInvariant` is kept by every step of either end (`HealthStep.invariant`).
It says how far the owner's phase is backed by its log and by the bytes it has
read, that what the candidate has written is a part of one of its three stories,
and that the owner's one write is its last call.
-/
import Keld.Lib.Trace
import Keld.Attempt.Health

namespace Keld.Attempt

open List ClaimantCall AttemptRecordKind

open Ipc (SessionToken Instant Duration Env Link Delivery arriving unread)

/-! ## The candidate's side -/

/-- What the candidate has written by a phase. -/
inductive SentBy : ClaimantPhase → List Byte → Prop
  | accepted : SentBy .accepted []
  | booted (boot : AttemptBootAcknowledgement) :
      SentBy .booted (AttemptRecord.bootAcknowledgement boot).wire
  | told {phase : ClaimantPhase} {written : List Byte} (story : Story)
      (late : phase = .reported ∨ phase = .ended) (allowed : story.Allowed)
      (part : written <+: story.bytes) : SentBy phase written

variable {written : List Byte}

theorem SentBy.story {phase : ClaimantPhase} (h : SentBy phase written) :
    ∃ story : Story, story.Allowed ∧ written <+: story.bytes := by
  cases h with
  | accepted =>
    exact ⟨.failedEarly .bootError, rfl, nil_prefix⟩
  | booted boot => exact ⟨.ready boot, trivial, prefix_append _ _⟩
  | told story late allowed part => exact ⟨story, allowed, part⟩

theorem SentBy.of_accepted (h : SentBy .accepted written) : written = [] := by
  cases h with
  | accepted => rfl
  | told story late allowed part => rcases late with late | late <;> cases late

theorem SentBy.of_booted (h : SentBy .booted written) :
    ∃ boot, written = (AttemptRecord.bootAcknowledgement boot).wire := by
  cases h with
  | booted boot => exact ⟨boot, rfl⟩
  | told story late allowed part => rcases late with late | late <;> cases late

/-- A send puts out a part of its record, the whole of it when it succeeds. -/
theorem send_run (env : Env) (record : AttemptRecord) (next : ClaimantPhase)
    (channel : ClaimantChannel) :
    ∃ r channel', ClaimantChannel.send env record next channel = (r, channel') ∧
      ∃ part, part <+: record.wire ∧ channel'.link.written = channel.link.written ++ part ∧
        ((channel'.phase = next ∧ part = record.wire) ∨ channel'.phase = .ended) := by
  unfold ClaimantChannel.send AttemptRecord.writeTo
  rw [record.encoded_eq]
  cases env.writeFault channel.link.writes with
  | none =>
    exact ⟨_, _, rfl, record.wire, prefix_rfl, rfl, .inl ⟨rfl, rfl⟩⟩
  | some fault =>
    exact ⟨_, _, rfl, _, take_prefix _ _, rfl, .inr rfl⟩

section Sends

variable {env : Env} {channel channel' : ClaimantChannel} {r : Except ExchangeHalt Unit}

/-- A last record that ends a story. -/
theorem send_sentBy {record : AttemptRecord} (story : Story) (ha : story.Allowed)
    (hby : story.bytes = channel.link.written ++ record.wire)
    (hr : ClaimantChannel.send env record .reported channel = (r, channel')) :
    SentBy channel'.phase channel'.link.written ∧
      channel.link.written <+: channel'.link.written := by
  obtain ⟨r', found, hse, part, hp, hw, hph⟩ := send_run env record .reported channel
  rw [hr] at hse
  cases hse
  rw [hw]
  refine ⟨.told story (hph.imp_left And.left) ha ?_, prefix_append _ _⟩
  rw [hby]
  exact (prefix_append_right_inj _).mpr hp

/-- The boot acknowledgement, which begins one. -/
theorem sendBoot_sentBy {boot : AttemptBootAcknowledgement} (hw : channel.link.written = [])
    (hr : ClaimantChannel.send env (.bootAcknowledgement boot) .booted channel = (r, channel')) :
    SentBy channel'.phase channel'.link.written := by
  obtain ⟨r', found, hse, part, hp, hw', hph⟩ :=
    send_run env (.bootAcknowledgement boot) .booted channel
  rw [hr] at hse
  cases hse
  rw [hw', hw, nil_append]
  rcases hph with ⟨hph, rfl⟩ | hph
  · rw [hph]
    exact .booted boot
  · have hst : part <+: (Story.ready boot).bytes := hp.trans (prefix_append _ _)
    exact .told (.ready boot) (.inr hph) trivial hst

/-- A call of the candidate that sends keeps to a story. -/
theorem ClaimantCall.run_sentBy {call : ClaimantCall}
    (h : SentBy channel.phase channel.link.written) (hsn : call ≠ .awaitHealthAccepted)
    (hr : call.run env channel = (r, channel')) :
    SentBy channel'.phase channel'.link.written ∧
      channel.link.written <+: channel'.link.written := by
  by_cases hdue : call.Due channel.phase
  · cases call with
    | sendBoot digest =>
      have hph : channel.phase = .accepted := hdue
      rw [hph] at h
      have hw := h.of_accepted
      have hse : ClaimantChannel.send env (.bootAcknowledgement
          ⟨channel.transcript.attemptId, channel.transcript.healthChannelId, digest⟩) .booted
          channel = (r, channel') := by
        rw [← hr]
        exact (if_neg (not_not.mpr hph)).symm
      refine ⟨sendBoot_sentBy hw hse, ?_⟩
      rw [hw]
      exact nil_prefix
    | sendReady =>
      have hph : channel.phase = .booted := hdue
      rw [hph] at h
      obtain ⟨boot, hw⟩ := h.of_booted
      have hby : (Story.ready boot).bytes = channel.link.written ++ AttemptRecord.ready.wire := by
        rw [hw]
        rfl
      have hse : ClaimantChannel.send env .ready .reported channel = (r, channel') := by
        rw [← hr]
        exact (if_neg (not_not.mpr hph)).symm
      exact send_sentBy (.ready boot) trivial hby hse
    | sendFailure cls =>
      obtain ⟨position, hpos, ha⟩ := hdue
      have hse : ClaimantChannel.send env (.failure cls) .reported channel = (r, channel') := by
        rw [← hr]
        unfold run ClaimantChannel.sendFailure
        dsimp only
        rw [hpos]
        exact (if_pos ha).symm
      cases hph : channel.phase with
      | accepted =>
        rw [hph] at h hpos
        cases hpos
        have hby : (Story.failedEarly cls).bytes
            = channel.link.written ++ (AttemptRecord.failure cls).wire := by
          rw [h.of_accepted]
          rfl
        exact send_sentBy (.failedEarly cls) ha hby hse
      | booted =>
        rw [hph] at h hpos
        cases hpos
        obtain ⟨boot, hw⟩ := h.of_booted
        have hby : (Story.failedLate boot cls).bytes
            = channel.link.written ++ (AttemptRecord.failure cls).wire := by
          rw [hw]
          rfl
        exact send_sentBy (.failedLate boot cls) ha hby hse
      | reported | ended =>
        rw [hph] at hpos
        cases hpos
    | awaitHealthAccepted => exact absurd rfl hsn
  · obtain ⟨err, ho⟩ := run_out_of_phase env hdue
    rw [hr] at ho
    cases ho
    exact ⟨h, prefix_rfl⟩

end Sends

/-! ## The invariant -/

/-- The calls that returned a value, in order. -/
def successes (log : List OwnerEvent) : List OwnerCall :=
  log.filterMap fun event =>
    match event with
    | .done call => some call
    | .failed _ _ => none

/-- A step has failed in its phase. -/
def Broke (log : List OwnerEvent) : Prop :=
  ∃ call err, OwnerEvent.failed call err ∈ log ∧ ¬ err.OutOfSequence

/-- After a failed step only the rollback has an effect. -/
def OnlyRollsBack (before : List OwnerEvent) (event : OwnerEvent) : Prop :=
  Broke before →
    event = .done .rollBack ∨ ∃ call err, event = .failed call err ∧ err.OutOfSequence

/-- The boot acknowledgement of an attempt with the owner's digest. -/
def bootWire (transcript : AttemptTranscript) (digest : Id) : List Byte :=
  (AttemptRecord.bootAcknowledgement
    ⟨transcript.attemptId, transcript.healthChannelId, digest⟩).wire

/-- A matching boot acknowledgement and then Ready. -/
def readyWire (transcript : AttemptTranscript) (digest : Id) : List Byte :=
  bootWire transcript digest ++ AttemptRecord.ready.wire

/-- What the owner has read. -/
def HealthSystem.heard (sys : HealthSystem) : List Byte :=
  sys.candidate.link.written.take sys.taken

/-- What backs a phase of the owner: the calls that succeeded and the bytes read. -/
inductive OwnerTrace (transcript : AttemptTranscript) :
    OwnerPhase → List OwnerCall → List Byte → Prop
  | accepted : OwnerTrace transcript .accepted [] []
  | booted (digest : Id) :
      OwnerTrace transcript .booted [.readBoot digest] (bootWire transcript digest)
  | ready (digest : Id) (readAt : Instant) {heard : List Byte}
      (read : readyWire transcript digest <+: heard) :
      OwnerTrace transcript (.ready readAt) [.readBoot digest, .readReady] heard
  | healthy (digest : Id) (margin : Duration) {heard : List Byte}
      (read : readyWire transcript digest <+: heard) :
      OwnerTrace transcript .healthy [.readBoot digest, .readReady, .awaitHealthWindow margin] heard
  | ended (eof : Bool) (calls : List OwnerCall) (heard : List Byte) :
      OwnerTrace transcript (.ended eof) calls heard

/-- The whole health sequence succeeded over the records it needs. -/
structure Earned (transcript : AttemptTranscript) (log : List OwnerEvent) (heard : List Byte) :
    Prop where
  unbroken : ¬ Broke log
  sequence : ∃ digest margin, readyWire transcript digest <+: heard ∧
    successes log = [.readBoot digest, .readReady, .awaitHealthWindow margin, .accept]

structure HealthInvariant (transcript : AttemptTranscript) (sys : HealthSystem) : Prop where
  pinned : sys.owner.For transcript
  sent : SentBy sys.candidate.phase sys.candidate.link.written
  within : sys.taken ≤ sys.candidate.link.written.length
  broke : Broke sys.log → ∃ eof, sys.owner.phase = .ended eof
  law : Machine.Guarded OnlyRollsBack sys.log
  expected : ∀ call err, .failed call err ∈ sys.log → err.OutOfSequence ∨ err.Expected
  /-- while the owner holds its channel it has written nothing -/
  tracing : sys.ownerEnd = .open →
    OwnerTrace transcript sys.owner.phase (successes sys.log) sys.heard ∧
      sys.owner.link.writes = 0 ∧ sys.owner.link.written = []
  closed : sys.ownerEnd ≠ .open → sys.owner.link.writes ≤ 1 ∧
    (sys.owner.link.written <+: acceptedWire ∧ Earned transcript sys.log sys.heard ∨
      sys.owner.link.written <+: rolledBackWire)
  armed : sys.armed = true → acceptedWire <+: sys.owner.link.written

section Invariant

variable {transcript : AttemptTranscript} {sys : HealthSystem} {log : List OwnerEvent}

theorem successes_snoc_done (call : OwnerCall) :
    successes (log ++ [.done call]) = successes log ++ [call] := by
  simp [successes]

theorem successes_snoc_failed (call : OwnerCall) (err : ExchangeError) :
    successes (log ++ [.failed call err]) = successes log := by
  simp [successes]

theorem broke_snoc_done {call : OwnerCall} : Broke (log ++ [.done call]) ↔ Broke log := by
  simp [Broke]

theorem broke_snoc_failed {call : OwnerCall} {err : ExchangeError} :
    Broke (log ++ [.failed call err]) ↔ Broke log ∨ ¬ err.OutOfSequence := by
  constructor
  · rintro ⟨call', err', hm, he⟩
    rcases mem_snoc.mp hm with hm | heq
    · exact .inl ⟨call', err', hm, he⟩
    · cases heq
      exact .inr he
  · rintro (⟨call', err', hm, he⟩ | he)
    · exact ⟨call', err', mem_append_left _ hm, he⟩
    · exact ⟨call, err, mem_append_right _ (mem_singleton.mpr rfl), he⟩

theorem acceptedWire_ne_nil : acceptedWire ≠ [] := by decide +kernel

theorem acceptedWire_not_rolledBack : ¬ acceptedWire <+: rolledBackWire := by decide +kernel

theorem HealthInvariant.not_armed (h : HealthInvariant transcript sys) (hopen : sys.ownerEnd = .open) :
    sys.armed ≠ true := by
  intro har
  have hpr := h.armed har
  rw [(h.tracing hopen).2.2, prefix_nil] at hpr
  exact acceptedWire_ne_nil hpr

variable {left : List Delivery} {written : List Byte} {taken : Nat}

theorem consumed_within {script : List Delivery} (hwi : taken ≤ written.length)
    (hscript : arriving script <+: written.drop taken) :
    taken + consumedBytes script left ≤ written.length := by
  have hl := hscript.length_le
  rw [length_drop] at hl
  unfold consumedBytes
  omega

theorem heard_snoc {script : List Delivery} {part : List Byte}
    (hscript : arriving script <+: written.drop taken)
    (hp : arriving script = part ++ arriving left) :
    written.take (taken + consumedBytes script left) = written.take taken ++ part := by
  obtain ⟨rest, hr⟩ := hscript
  have hre : consumedBytes script left = part.length := by
    rw [consumedBytes, hp, length_append, Nat.add_sub_cancel]
  rw [take_add, hre, ← hr, hp, append_assoc, take_left]

theorem HealthInvariant.taken_eq (h : HealthInvariant transcript sys) :
    sys.taken = sys.heard.length := (length_take_of_le h.within).symm

theorem start_invariant (pin : Pin) (transcript : AttemptTranscript) (queries : Nat) :
    HealthInvariant transcript (.start pin transcript queries) where
  pinned := rfl
  sent := .accepted
  within := le_rfl
  broke := by
    rintro ⟨call, err, hm, -⟩
    cases hm
  law := by
    intro before event after h
    simp [HealthSystem.start] at h
  expected := by
    intro call err hm
    cases hm
  tracing := fun _ => ⟨.accepted, rfl, rfl⟩
  closed := fun h => absurd rfl h
  armed := nofun

end Invariant

/-! ## Steps of the owner -/

section OwnerSteps

variable {transcript : AttemptTranscript}
variable {env : Env} {sys : HealthSystem} {script : List Delivery} {call : OwnerCall}
variable {channel : OwnerChannel} {err : ExchangeError}

/-- The system after a call that returned a value. -/
def HealthSystem.afterDone (sys : HealthSystem) (call : OwnerCall) (script : List Delivery)
    (left : OwnerEnd) (channel : OwnerChannel) : HealthSystem :=
  { sys with
    owner := channel
    ownerEnd := left
    taken := sys.taken + consumedBytes script channel.link.script
    log := sys.log ++ [.done call] }

/-- The system after a call that returned an error. -/
def HealthSystem.afterFailed (sys : HealthSystem) (call : OwnerCall) (script : List Delivery)
    (err : ExchangeError) (channel : OwnerChannel) : HealthSystem :=
  { sys with
    owner := channel
    ownerEnd := call.leaves
    taken := sys.taken + consumedBytes script channel.link.script
    log := sys.log ++ [.failed call err] }

theorem HealthInvariant.not_broke (h : HealthInvariant transcript sys)
    (hph : ∀ eof, sys.owner.phase ≠ .ended eof) : ¬ Broke sys.log := by
  intro hbr
  obtain ⟨eof, he⟩ := h.broke hbr
  exact hph eof he

/-- A reading call that went on. -/
theorem HealthInvariant.reading_done (h : HealthInvariant transcript sys) (hopen : sys.ownerEnd = .open)
    (hscript : arriving script <+: sys.candidate.link.written.drop sys.taken)
    (hon : Ipc.OnlyRead (sys.owner.facing script).link channel.link)
    (hfor : channel.For transcript) (hbr : ¬ Broke sys.log)
    (htr : OwnerTrace transcript channel.phase (successes sys.log ++ [call])
      (sys.afterDone call script .open channel).heard) :
    HealthInvariant transcript (sys.afterDone call script .open channel) where
  pinned := hfor
  sent := h.sent
  within := consumed_within h.within hscript
  broke := fun hb => absurd (broke_snoc_done.mp hb) hbr
  law := Machine.guarded_snoc.mpr ⟨h.law, fun hb => absurd hb hbr⟩
  expected := by
    intro call' err' hm
    exact h.expected call' err' (mem_of_snoc hm nofun)
  tracing := by
    intro _
    obtain ⟨-, hwrs, hw⟩ := h.tracing hopen
    refine ⟨?_, hon.writes.trans hwrs, hon.written.trans hw⟩
    show OwnerTrace transcript channel.phase (successes (sys.log ++ [.done call])) _
    rw [successes_snoc_done]
    exact htr
  closed := fun hne => absurd rfl hne
  armed := fun har => absurd har (h.not_armed hopen)

theorem mem_snoc_failed {call' : OwnerCall} {err' : ExchangeError}
    (hm : OwnerEvent.failed call' err' ∈ sys.log ++ [.failed call err]) :
    .failed call' err' ∈ sys.log ∨ err' = err := by
  rcases mem_snoc.mp hm with hm | he
  · exact .inl hm
  · cases he
    exact .inr rfl

theorem HealthInvariant.front (h : HealthInvariant transcript sys)
    (hscript : arriving script <+: sys.candidate.link.written.drop sys.taken) :
    ∃ story : Story, story.Allowed ∧ arriving script <+: story.bytes.drop sys.taken ∧
      sys.taken ≤ story.bytes.length := by
  obtain ⟨story, ha, rest, hby⟩ := h.sent.story
  refine ⟨story, ha, ?_, ?_⟩
  · rw [← hby, drop_append_of_le_length h.within]
    exact hscript.trans (prefix_append _ _)
  · rw [← hby, length_append]
    exact h.within.trans (Nat.le_add_right _ _)

/-- A call that returned, with a value or an error, keeps the invariant. -/
def KeptBy (env : Env) (transcript : AttemptTranscript) (sys : HealthSystem)
    (script : List Delivery) (call : OwnerCall) : Prop :=
  ∀ channel, channel.For transcript →
    (∀ left, call.run env (sys.owner.facing script) = (.ok left, channel) →
      HealthInvariant transcript (sys.afterDone call script left channel)) ∧
    ∀ err, call.run env (sys.owner.facing script) = (.error (.failed err), channel) →
      HealthInvariant transcript (sys.afterFailed call script err channel)

variable {calls : List OwnerCall} {heard : List Byte}

theorem OwnerTrace.of_accepted (h : OwnerTrace transcript .accepted calls heard) :
    calls = [] ∧ heard = [] := by
  cases h
  exact ⟨rfl, rfl⟩

theorem OwnerTrace.of_booted (h : OwnerTrace transcript .booted calls heard) :
    ∃ digest, calls = [.readBoot digest] ∧ heard = bootWire transcript digest := by
  cases h with
  | booted digest => exact ⟨digest, rfl, rfl⟩

theorem OwnerTrace.of_ready {readAt : Instant}
    (h : OwnerTrace transcript (.ready readAt) calls heard) :
    ∃ digest, calls = [.readBoot digest, .readReady] ∧ readyWire transcript digest <+: heard := by
  cases h with
  | ready digest readAt read => exact ⟨digest, rfl, read⟩

theorem OwnerTrace.of_healthy (h : OwnerTrace transcript .healthy calls heard) :
    ∃ digest margin, calls = [.readBoot digest, .readReady, .awaitHealthWindow margin] ∧
      readyWire transcript digest <+: heard := by
  cases h with
  | healthy digest margin read => exact ⟨digest, margin, rfl, read⟩

theorem heard_mono (sys : HealthSystem) (more : Nat) :
    sys.heard <+: sys.candidate.link.written.take (sys.taken + more) := by
  rw [take_add]
  exact prefix_append _ _

section

variable (h : HealthInvariant transcript sys) (hopen : sys.ownerEnd = .open)
  (hscript : arriving script <+: sys.candidate.link.written.drop sys.taken)
include h hopen hscript

/-- A reading call that failed in its phase. -/
theorem HealthInvariant.reading_failed
    (hon : Ipc.OnlyRead (sys.owner.facing script).link channel.link)
    (hfor : channel.For transcript) (hbr : ¬ Broke sys.log) (hexp : err.Expected)
    (he : ∃ eof, channel.phase = .ended eof) (hle : call.leaves = .open) :
    HealthInvariant transcript (sys.afterFailed call script err channel) where
  pinned := hfor
  sent := h.sent
  within := consumed_within h.within hscript
  broke := fun _ => he
  law := Machine.guarded_snoc.mpr ⟨h.law, fun hb => absurd hb hbr⟩
  expected := by
    intro call' err' hm
    rcases mem_snoc_failed hm with hm | rfl
    · exact h.expected call' err' hm
    · exact .inr hexp
  tracing := by
    intro _
    obtain ⟨-, hwrs, hw⟩ := h.tracing hopen
    refine ⟨?_, hon.writes.trans hwrs, hon.written.trans hw⟩
    obtain ⟨eof, he⟩ := he
    show OwnerTrace transcript channel.phase _ _
    rw [he]
    exact .ended _ _ _
  closed := fun hne => absurd hle hne
  armed := fun har => absurd har (h.not_armed hopen)

/-- A call out of phase. -/
theorem HealthInvariant.out_of_phase (he : err.OutOfSequence) :
    HealthInvariant transcript (sys.afterFailed call script err (sys.owner.facing script)) where
  pinned := h.pinned
  sent := h.sent
  within := consumed_within h.within hscript
  broke := by
    intro hb
    rcases broke_snoc_failed.mp hb with hb | hb
    · exact h.broke hb
    · exact absurd he hb
  law := Machine.guarded_snoc.mpr ⟨h.law, fun _ => .inr ⟨call, err, rfl, he⟩⟩
  expected := by
    intro call' err' hm
    rcases mem_snoc_failed hm with hm | rfl
    · exact h.expected call' err' hm
    · exact .inl he
  tracing := by
    intro _
    obtain ⟨htr, hwrs, hw⟩ := h.tracing hopen
    refine ⟨?_, hwrs, hw⟩
    show OwnerTrace transcript sys.owner.phase (successes (sys.log ++ [.failed call err]))
      (sys.candidate.link.written.take (sys.taken + consumedBytes script script))
    rw [successes_snoc_failed, consumedBytes, Nat.sub_self, Nat.add_zero]
    exact htr
  closed := by
    intro _
    obtain ⟨-, hwrs, hw⟩ := h.tracing hopen
    refine ⟨?_, .inr ?_⟩
    · show sys.owner.link.writes ≤ 1
      rw [hwrs]
      exact Nat.zero_le 1
    · show sys.owner.link.written <+: rolledBackWire
      rw [hw]
      exact nil_prefix
  armed := fun har => absurd har (h.not_armed hopen)

/-- The last call, which wrote a part of a health result. -/
theorem HealthInvariant.last_done {left : OwnerEnd}
    (hl : left ≠ .open) (hfor : channel.For transcript)
    (hbr : Broke sys.log → call = .rollBack ∧ channel.phase = sys.owner.phase)
    (hwrs : channel.link.writes ≤ 1)
    (hcl : channel.link.written <+: acceptedWire ∧ Earned transcript (sys.log ++ [.done call])
        (sys.afterDone call script left channel).heard ∨
      channel.link.written <+: rolledBackWire) :
    HealthInvariant transcript (sys.afterDone call script left channel) where
  pinned := hfor
  sent := h.sent
  within := consumed_within h.within hscript
  broke := by
    intro hb
    have hb := broke_snoc_done.mp hb
    show ∃ eof, channel.phase = .ended eof
    rw [(hbr hb).2]
    exact h.broke hb
  law := by
    refine Machine.guarded_snoc.mpr ⟨h.law, fun hb => ?_⟩
    rw [(hbr hb).1]
    exact .inl rfl
  expected := by
    intro call' err' hm
    exact h.expected call' err' (mem_of_snoc hm nofun)
  tracing := fun hopen' => absurd hopen' hl
  closed := fun _ => ⟨hwrs, hcl⟩
  armed := fun har => absurd har (h.not_armed hopen)

/-- The reading calls differ in the phase they reach and in what backs it. -/
theorem HealthInvariant.reading
    (hbr : ¬ Broke sys.log) (hle : call.leaves = .open) {next : OwnerPhase → Prop}
    (hco : ∀ r channel, call.run env (sys.owner.facing script) = (r, channel) →
      Completed next (sys.owner.facing script) (r, channel))
    (htr : ∀ channel, call.run env (sys.owner.facing script) = (.ok .open, channel) →
      next channel.phase → OwnerTrace transcript channel.phase (successes sys.log ++ [call])
        (sys.afterDone call script .open channel).heard) :
    KeptBy env transcript sys script call := by
  intro channel hfor
  constructor
  · intro left hr
    have hco := hco _ _ hr
    obtain ⟨rfl, hn⟩ := hco.ok
    exact h.reading_done hopen hscript hco.onlyRead hfor hbr (htr channel hr hn)
  · intro err hr
    have hco := hco _ _ hr
    obtain ⟨hexp, he⟩ := hco.failed
    exact h.reading_failed hopen hscript hco.onlyRead hfor hbr hexp he hle

theorem HealthInvariant.readBoot {digest : Id}
    (hph : sys.owner.phase = .accepted) : KeptBy env transcript sys script (.readBoot digest) := by
  have hbr : ¬ Broke sys.log := h.not_broke (by rw [hph]; exact nofun)
  have htr := (h.tracing hopen).1
  rw [hph] at htr
  obtain ⟨hc, hhe⟩ := htr.of_accepted
  have ht : sys.taken = 0 := by rw [h.taken_eq, hhe, length_nil]
  obtain ⟨story, ha, hfr, -⟩ := h.front hscript
  rw [ht, drop_zero] at hfr
  have hr : ∀ {r channel}, (OwnerCall.readBoot digest).run env (sys.owner.facing script)
      = (r, channel) → _ := fun hr =>
    run_readBoot (show (sys.owner.facing script).phase = .accepted from hph) ha hfr hr
  refine h.reading hopen hscript hbr rfl (fun r channel h => (hr h).1) ?_
  intro channel hd hn
  have hre := heard_snoc hscript ((hr hd).2 rfl)
  show OwnerTrace transcript channel.phase _ (sys.candidate.link.written.take
    (sys.taken + consumedBytes script channel.link.script))
  rw [hre, hc, hn, show sys.candidate.link.written.take sys.taken = [] from hhe]
  have hexp : (sys.owner.facing script).expectedBoot digest
      = ⟨transcript.attemptId, transcript.healthChannelId, digest⟩ := by
    rw [← (show sys.owner.transcript = transcript from h.pinned)]
    rfl
  rw [hexp]
  exact .booted digest

theorem HealthInvariant.readReady
    (hph : sys.owner.phase = .booted) : KeptBy env transcript sys script .readReady := by
  have hbr : ¬ Broke sys.log := h.not_broke (by rw [hph]; exact nofun)
  have htr := (h.tracing hopen).1
  rw [hph] at htr
  obtain ⟨digest, hc, hhe⟩ := htr.of_booted
  have ht : sys.taken = bootLen := by
    rw [h.taken_eq, hhe]
    exact length_boot _
  obtain ⟨story, ha, hfr, hl⟩ := h.front hscript
  rw [ht] at hfr hl
  have hr : ∀ {r channel}, OwnerCall.readReady.run env (sys.owner.facing script)
      = (r, channel) → _ := fun hr => run_readReady
    (show (sys.owner.facing script).phase = .booted from hph) ha hl hfr hr
  refine h.reading hopen hscript hbr rfl (fun r channel h => (hr h).1) ?_
  rintro channel hd ⟨readAt, hn⟩
  have hre := heard_snoc hscript ((hr hd).2 rfl)
  rw [hc, hn]
  refine .ready digest readAt ?_
  show _ <+: sys.candidate.link.written.take (sys.taken + consumedBytes script channel.link.script)
  rw [hre, show sys.candidate.link.written.take sys.taken = _ from hhe]
  exact prefix_rfl

theorem HealthInvariant.awaitHealthWindow {margin : Duration}
    {readAt : Instant} (hph : sys.owner.phase = .ready readAt) :
    KeptBy env transcript sys script (.awaitHealthWindow margin) := by
  have hbr : ¬ Broke sys.log := h.not_broke (by rw [hph]; exact nofun)
  have htr := (h.tracing hopen).1
  rw [hph] at htr
  obtain ⟨digest, hc, hhe⟩ := htr.of_ready
  refine h.reading hopen hscript hbr rfl (fun r channel hr => run_awaitHealthWindow
    (show (sys.owner.facing script).phase = .ready readAt from hph) hr) ?_
  rintro channel - hn
  rw [hc, hn]
  exact .healthy digest margin (hhe.trans (heard_mono sys _))

theorem HealthInvariant.accept
    (hph : sys.owner.phase = .healthy) : KeptBy env transcript sys script .accept := by
  have hbr : ¬ Broke sys.log := h.not_broke (by rw [hph]; exact nofun)
  obtain ⟨htr, hwrs, hw⟩ := h.tracing hopen
  rw [hph] at htr
  obtain ⟨digest, margin, hc, hhe⟩ := htr.of_healthy
  have hph' : (sys.owner.facing script).phase = .healthy := hph
  intro channel hfor
  constructor
  · intro left hr
    obtain ⟨⟨left', hl, hne⟩, ho, part, hp, hput⟩ := run_accept hph' hr
    cases hl
    have ho : channel.link.writes = sys.owner.link.writes + 1 := ho
    have hput : channel.link.written = sys.owner.link.written ++ part := hput
    rw [hw, nil_append] at hput
    refine h.last_done hopen hscript hne hfor (fun hb => absurd hb hbr) (by omega) (.inl ?_)
    refine ⟨?_, fun hb => hbr (broke_snoc_done.mp hb), digest, margin,
      hhe.trans (heard_mono sys _), ?_⟩
    · rw [hput]
      exact hp
    · rw [successes_snoc_done, hc]
      rfl
  · intro err hr
    obtain ⟨⟨left', hl, -⟩, -⟩ := run_accept hph' hr
    cases hl

theorem HealthInvariant.rollBack : KeptBy env transcript sys script .rollBack := by
  obtain ⟨-, hwrs, hw⟩ := h.tracing hopen
  intro channel hfor
  constructor
  · intro left hr
    obtain ⟨hl, ho, hph, part, hp, hput⟩ := run_rollBack hr
    cases hl
    have ho : channel.link.writes ≤ sys.owner.link.writes + 1 := ho
    have hput : channel.link.written = sys.owner.link.written ++ part := hput
    rw [hw, nil_append] at hput
    refine h.last_done hopen hscript nofun hfor (fun _ => ⟨rfl, hph⟩) (by omega) (.inr ?_)
    rw [hput]
    exact hp
  · intro err hr
    have hl := (run_rollBack hr).1
    cases hl

theorem HealthInvariant.owner_step : KeptBy env transcript sys script call := by
  by_cases hdue : call.Due sys.owner.phase
  · cases call with
    | readBoot digest => exact h.readBoot hopen hscript hdue
    | readReady => exact h.readReady hopen hscript hdue
    | awaitHealthWindow margin =>
      obtain ⟨readAt, hph⟩ := hdue
      exact h.awaitHealthWindow hopen hscript hph
    | accept => exact h.accept hopen hscript hdue
    | rollBack => exact h.rollBack hopen hscript
  · obtain ⟨err, he, ho⟩ := OwnerCall.run_out_of_phase env
      (show ¬ call.Due (sys.owner.facing script).phase from hdue)
    intro channel _
    rw [ho]
    refine ⟨nofun, ?_⟩
    rintro err' heq
    cases heq
    exact h.out_of_phase hopen hscript he

end

variable {seen : CloseWait}

/-- The second half of `accept` only reads. -/
theorem closeWait_run {start : OwnerChannel}
    (h : OwnerChannel.closeWait start = (.ok seen, channel)) :
    Ipc.OnlyRead start.link channel.link ∧ channel.phase = start.phase ∧
      channel.transcript = start.transcript := by
  unfold OwnerChannel.closeWait at h
  cases hscript : start.link.script with
  | nil =>
    rw [hscript] at h
    cases h
  | cons delivery rest =>
    rw [hscript] at h
    dsimp only at h
    split at h
    all_goals
      cases h
      exact ⟨.script _ _, rfl, rfl⟩

theorem Earned.mono {log : List OwnerEvent} {heard heard' : List Byte}
    (h : Earned transcript log heard) (hmo : heard <+: heard') : Earned transcript log heard' := by
  obtain ⟨hun, digest, margin, hr, hc⟩ := h
  exact ⟨hun, digest, margin, hr.trans hmo, hc⟩

theorem HealthInvariant.closeWait (h : HealthInvariant transcript sys)
    (hclg : sys.ownerEnd = .closing)
    (hscript : arriving script <+: sys.candidate.link.written.drop sys.taken)
    (hr : OwnerChannel.closeWait (sys.owner.facing script) = (.ok seen, channel)) :
    HealthInvariant transcript
      { sys with
        owner := channel
        ownerEnd := .gone
        taken := sys.taken + consumedBytes script channel.link.script } := by
  obtain ⟨hon, hph, hfor⟩ := closeWait_run hr
  have hw : channel.link.written = sys.owner.link.written := hon.written
  have hwrs : channel.link.writes = sys.owner.link.writes := hon.writes
  have hopen : sys.ownerEnd ≠ .open := by
    rw [hclg]
    exact nofun
  obtain ⟨ho, hres⟩ := h.closed hopen
  refine ⟨hfor.trans h.pinned, h.sent, consumed_within h.within hscript, ?_, h.law, h.expected,
    nofun, fun _ => ⟨?_, ?_⟩, ?_⟩
  · intro hbr
    rw [hph]
    exact h.broke hbr
  · rw [hwrs]
    exact ho
  · rw [hw]
    exact hres.imp_left fun hres => ⟨hres.1, hres.2.mono (heard_mono sys _)⟩
  · intro har
    rw [hw]
    exact h.armed har

/-- An owner that lets go of its channel has written nothing more. -/
theorem HealthInvariant.dropped (h : HealthInvariant transcript sys) :
    HealthInvariant transcript { sys with ownerEnd := .gone } := by
  refine ⟨h.pinned, h.sent, h.within, h.broke, h.law, h.expected, nofun, fun _ => ?_, h.armed⟩
  by_cases hopen : sys.ownerEnd = .open
  · obtain ⟨-, hwrs, hw⟩ := h.tracing hopen
    refine ⟨?_, .inr ?_⟩
    · rw [hwrs]
      exact Nat.zero_le 1
    · rw [hw]
      exact nil_prefix
  · exact h.closed hopen

end OwnerSteps

/-! ## Steps of the candidate -/

section CandidateSteps

variable {transcript : AttemptTranscript} {sys : HealthSystem} {script : List Delivery}
variable {channel : ClaimantChannel} {r : Except ExchangeHalt Unit}

/-- A candidate that says more keeps what the owner heard. -/
theorem HealthInvariant.candidate_step (h : HealthInvariant transcript sys)
    (hse : SentBy channel.phase channel.link.written)
    (hgr : sys.candidate.link.written <+: channel.link.written) (held : Bool) {armed : Bool}
    (har : armed = true → acceptedWire <+: sys.owner.link.written) :
    HealthInvariant transcript
      { sys with
        candidate := channel
        candidateOpen := held
        armed := armed } := by
  have hhe : channel.link.written.take sys.taken = sys.heard := by
    obtain ⟨more, hmo⟩ := hgr
    rw [← hmo, take_append_of_le_length h.within]
    rfl
  refine ⟨h.pinned, hse, h.within.trans hgr.length_le, h.broke, h.law, h.expected, ?_, ?_, har⟩
  · intro hopen
    obtain ⟨htr, hr⟩ := h.tracing hopen
    refine ⟨?_, hr⟩
    show OwnerTrace transcript _ _ (channel.link.written.take sys.taken)
    rw [hhe]
    exact htr
  · intro hopen
    obtain ⟨ho, hres⟩ := h.closed hopen
    refine ⟨ho, ?_⟩
    show _ ∧ Earned transcript _ (channel.link.written.take sys.taken) ∨ _
    rw [hhe]
    exact hres

/-- The one answer the candidate waits for. -/
theorem readHealthResult_run {link link' : Link}
    (h : ClaimantChannel.readHealthResult link = (r, link')) :
    link'.written = link.written ∧ (r = .ok () → acceptedWire <+: arriving link.script) := by
  have hon := readFrom_onlyRead .candidateHealthResult link
  rcases hre : readFrom .candidateHealthResult link with ⟨found, mid⟩
  rw [hre] at hon
  cases found with
  | error halt =>
    have hru : readRecord .candidateHealthResult link = (.error (.ofRecord halt), mid) :=
      Proc.mapError_run_error hre
    unfold ClaimantChannel.readHealthResult at h
    rw [Proc.bind_run_error hru] at h
    cases h
    exact ⟨hon.written, nofun⟩
  | ok record =>
    have hru : readRecord .candidateHealthResult link = (.ok record, mid) :=
      Proc.mapError_run_ok hre
    unfold ClaimantChannel.readHealthResult at h
    rw [Proc.bind_run_ok hru] at h
    obtain ⟨hr, rfl⟩ := Prod.mk.inj h
    refine ⟨hon.written, ?_⟩
    rintro rfl
    obtain ⟨harr, -⟩ := readFrom_ok hre
    rw [harr]
    have hacc : record = .healthResult .accepted := by
      unfold ClaimantChannel.healthOutcome at hr
      split at hr
      · rfl
      · cases hr
      · cases hr
    rw [hacc]
    exact prefix_append _ _

theorem HealthInvariant.candidateAwaits (h : HealthInvariant transcript sys)
    (hscript : arriving script <+: sys.owner.link.written)
    (hru : ClaimantChannel.awaitHealthAccepted (sys.candidate.facing script) = (r, channel)) :
    HealthInvariant transcript
      { sys with
        candidate := channel
        candidateOpen := false
        armed := r.isOk } := by
  by_cases hph : sys.candidate.phase = .reported
  · rcases hr : ClaimantChannel.readHealthResult (sys.candidate.facing script).link with ⟨r', link⟩
    have haw : ClaimantChannel.awaitHealthAccepted (sys.candidate.facing script)
        = (r', { sys.candidate.facing script with link := link }) := by
      unfold ClaimantChannel.awaitHealthAccepted
      rw [hr]
      exact if_neg (not_not.mpr hph)
    rw [hru] at haw
    cases haw
    obtain ⟨hw, hacc⟩ := readHealthResult_run hr
    refine h.candidate_step ?_ ?_ false ?_
    · rw [hw]
      exact h.sent
    · exact ⟨[], (append_nil _).trans hw.symm⟩
    · intro hok
      have hok : r = .ok () := by
        cases r with
        | ok u => rfl
        | error halt => cases hok
      exact (hacc hok).trans hscript
  · have ho : ClaimantChannel.awaitHealthAccepted (sys.candidate.facing script)
        = (.error (.failed _), sys.candidate.facing script) := if_pos hph
    rw [hru] at ho
    obtain ⟨rfl, rfl⟩ := Prod.mk.inj ho
    have hse : SentBy (sys.candidate.facing script).phase
        (sys.candidate.facing script).link.written := h.sent
    exact h.candidate_step hse prefix_rfl false nofun

end CandidateSteps

/-! ## Whole runs -/

section Runs

variable {ownerEnv candidateEnv : Env} {transcript : AttemptTranscript} {sys sys' : HealthSystem}

theorem HealthStep.invariant (h : HealthInvariant transcript sys)
    (hs : HealthStep ownerEnv candidateEnv sys sys') : HealthInvariant transcript sys' := by
  cases hs with
  | ownerDone call script held delivered returned =>
    have hfor := call.run_transcript ownerEnv transcript (sys.owner.facing script) h.pinned
    rw [returned] at hfor
    exact (h.owner_step held delivered _ hfor).1 _ returned
  | ownerFailed call script held delivered returned =>
    have hfor := call.run_transcript ownerEnv transcript (sys.owner.facing script) h.pinned
    rw [returned] at hfor
    exact (h.owner_step held delivered _ hfor).2 _ returned
  | closeWait script held delivered returned => exact h.closeWait held delivered returned
  | ownerDrops => exact h.dropped
  | candidateSends call held sends returned =>
    obtain ⟨hse, hgr⟩ := run_sentBy h.sent sends returned
    exact h.candidate_step hse hgr _ h.armed
  | candidateAwaits script held delivered returned finished =>
    exact h.candidateAwaits delivered returned
  | candidateDrops => exact h.candidate_step h.sent prefix_rfl false h.armed

/-- Both ends are reached from the receipt by calls in some order. -/
def Reachable (ownerEnv candidateEnv : Env) (pin : Pin) (transcript : AttemptTranscript)
    (queries : Nat) : HealthSystem → Prop :=
  Relation.ReflTransGen (HealthStep ownerEnv candidateEnv) (.start pin transcript queries)

variable {pin : Pin} {queries : Nat}

theorem Reachable.invariant (h : Reachable ownerEnv candidateEnv pin transcript queries sys) :
    HealthInvariant transcript sys := by
  induction h with
  | refl => exact start_invariant pin transcript queries
  | tail _ hs ih => exact hs.invariant ih

/-- A candidate whose words begin with a boot acknowledgement and Ready has said nothing else. -/
theorem SentBy.eq_readyWire {phase : ClaimantPhase} {written : List Byte} {digest : Id}
    (h : SentBy phase written) (hr : readyWire transcript digest <+: written) :
    written = readyWire transcript digest := by
  obtain ⟨story, -, hp⟩ := h.story
  have hle : (readyWire transcript digest).length = bootLen + ready.recordLen := by
    rw [readyWire, length_append, AttemptRecord.length_wire]
    exact congrArg (· + _) (length_boot _)
  have hl := (hr.trans hp).length_le
  rw [hle] at hl
  cases story with
  | failedEarly cls =>
    rw [Story.bytes, AttemptRecord.length_wire] at hl
    exact absurd hl (show ¬ bootLen + ready.recordLen ≤ failure.recordLen by decide)
  | ready boot =>
    have hsh := hp.length_le
    rw [Story.bytes, length_append, length_boot, AttemptRecord.length_wire] at hsh
    exact (hr.eq_of_length_le (hsh.trans hle.ge)).symm
  | failedLate boot cls =>
    obtain ⟨rest, hre⟩ := hr.trans hp
    rw [Story.bytes, readyWire, append_assoc] at hre
    have hse : AttemptRecord.ready.wire ++ rest = (AttemptRecord.failure cls).wire :=
      append_inj_right hre ((length_boot _).trans (length_boot boot).symm)
    have hma : ready.magic = failure.magic :=
      calc ready.magic = AttemptRecord.ready.wire.take magicLen :=
            AttemptRecord.ready.wire_take_magic.symm
        _ = (AttemptRecord.ready.wire ++ rest).take magicLen :=
            (take_append_of_le_length (by decide +kernel)).symm
        _ = (AttemptRecord.failure cls).wire.take magicLen := by rw [hse]
        _ = failure.magic := (AttemptRecord.failure cls).wire_take_magic
    exact absurd hma (by decide +kernel)

/-- What holds of the two ends after any calls in any order. -/
structure HealthSafety (ownerEnv candidateEnv : Env) (transcript : AttemptTranscript)
    (sys : HealthSystem) : Prop where
  /-- The candidate's good answer: the owner read a matching boot acknowledgement and Ready, which
  is all the candidate ever sent, the window passed, and the accepted result went out; none of the
  owner's steps failed. -/
  earned : sys.armed = true → ∃ digest margin,
    successes sys.log = [.readBoot digest, .readReady, .awaitHealthWindow margin, .accept] ∧
    sys.heard = readyWire transcript digest ∧
    sys.candidate.link.written = readyWire transcript digest ∧
    sys.owner.link.written = acceptedWire ∧ ¬ Broke sys.log
  /-- A call out of phase does nothing, at either end. -/
  ownerRefuses : ∀ (call : OwnerCall) (script : List Delivery), ¬ call.Due sys.owner.phase →
    ∃ err, err.OutOfSequence ∧
      call.run ownerEnv (sys.owner.facing script) = (.error (.failed err), sys.owner.facing script)
  candidateRefuses : ∀ (call : ClaimantCall) (script : List Delivery),
    ¬ call.Due sys.candidate.phase → ∃ err, call.run candidateEnv (sys.candidate.facing script)
      = (.error (.failed err), sys.candidate.facing script)
  /-- After a failed step only the rollback has an effect. -/
  onlyRollsBack : Machine.Guarded OnlyRollsBack sys.log
  /-- At most one health result is ever written. -/
  oneResult : sys.owner.link.writes ≤ 1
  /-- A failure that is sent is one the owner admits where it reads it ... -/
  failureAdmitted : ∀ (cls : AttemptFailureClass) (r : Except ExchangeHalt Unit)
    (channel : ClaimantChannel),
    (sendFailure cls).run candidateEnv sys.candidate = (r, channel) →
    channel.link.writes ≠ sys.candidate.link.writes → ∃ position,
      ClaimantChannel.failurePosition sys.candidate.phase = some position ∧
        position.admitsFailure cls = true
  /-- ... so the owner never refuses a record for its kind, its place or its class. -/
  admitted : ∀ call err, .failed call err ∈ sys.log → err.OutOfSequence ∨ err.Expected

theorem Reachable.earned (h : Reachable ownerEnv candidateEnv pin transcript queries sys)
    (har : sys.armed = true) :
    ∃ digest margin,
      successes sys.log = [.readBoot digest, .readReady, .awaitHealthWindow margin, .accept] ∧
      sys.heard = readyWire transcript digest ∧
      sys.candidate.link.written = readyWire transcript digest ∧
      sys.owner.link.written = acceptedWire ∧ ¬ Broke sys.log := by
  have hinv := h.invariant
  have hwr := hinv.armed har
  have hcl : sys.ownerEnd ≠ .open := fun hopen => hinv.not_armed hopen har
  obtain ⟨-, ⟨hp, hun, digest, margin, hr, hc⟩ | hro⟩ := hinv.closed hcl
  · have hse := hinv.sent.eq_readyWire (hr.trans (List.take_prefix _ _))
    have hhe : sys.heard <+: readyWire transcript digest := by
      rw [← hse]
      exact take_prefix _ _
    exact ⟨digest, margin, hc, hhe.eq_of_length_le hr.length_le, hse,
      hp.eq_of_length_le hwr.length_le, hun⟩
  · exact absurd (hwr.trans hro) acceptedWire_not_rolledBack

/-- Over every interleaving of the two ends, with any calls out of order and any failures. -/
theorem health_safety {pin : Pin} {queries : Nat}
    (h : Reachable ownerEnv candidateEnv pin transcript queries sys) :
    HealthSafety ownerEnv candidateEnv transcript sys where
  earned := h.earned
  ownerRefuses := by
    intro call script hdue
    have hdue : ¬ call.Due (sys.owner.facing script).phase := hdue
    exact OwnerCall.run_out_of_phase ownerEnv hdue
  candidateRefuses := by
    intro call script hdue
    have hdue : ¬ call.Due (sys.candidate.facing script).phase := hdue
    exact run_out_of_phase candidateEnv hdue
  onlyRollsBack := h.invariant.law
  oneResult := by
    by_cases hopen : sys.ownerEnd = .open
    · rw [(h.invariant.tracing hopen).2.1]
      exact Nat.zero_le 1
    · exact (h.invariant.closed hopen).1
  failureAdmitted := by
    intro cls r channel hr hwr
    by_contra hdue
    obtain ⟨err, ho⟩ := run_out_of_phase candidateEnv
      (show ¬ (sendFailure cls).Due sys.candidate.phase from hdue)
    rw [hr] at ho
    cases ho
    exact hwr rfl
  admitted := h.invariant.expected

end Runs

/-! ## A run in which nothing goes wrong -/

section QuietRun

def quietId : Id := ⟨List.replicate idLen 1, length_replicate⟩

def quietNonce : SessionToken := ⟨List.replicate idLen 2, length_replicate⟩

def quietTranscript : AttemptTranscript :=
  ⟨quietId, quietId, quietId, quietNonce, quietNonce, 7, 9⟩

/-- The clock is read every twenty seconds. -/
def quietEnv : Env := ⟨fun reading => reading * 20000000000, 2 ^ 64, fun _ => false, fun _ => none⟩

def quietPin : Pin := ⟨7, 1, fun _ => .ok false⟩

def HealthSystem.afterSend (sys : HealthSystem) (call : ClaimantCall) : HealthSystem :=
  { sys with candidate := (call.run quietEnv sys.candidate).2 }

def HealthSystem.afterCall (sys : HealthSystem) (call : OwnerCall) (script : List Delivery)
    (left : OwnerEnd) : HealthSystem :=
  sys.afterDone call script left (call.run quietEnv (sys.owner.facing script)).2

/-- The candidate has reported Ready. -/
def quietReported : HealthSystem :=
  ((HealthSystem.start quietPin quietTranscript 0).afterSend (.sendBoot quietId)).afterSend .sendReady

def quietBooted : HealthSystem :=
  quietReported.afterCall (.readBoot quietId) (unread (bootWire quietTranscript quietId) []) .open

def quietReady : HealthSystem :=
  quietBooted.afterCall .readReady (unread AttemptRecord.ready.wire []) .open

def quietHealthy : HealthSystem :=
  quietReady.afterCall (.awaitHealthWindow 0) [.failed .timedOut] .open

def quietAccepted : HealthSystem := quietHealthy.afterCall .accept [] .closing

/-- The candidate's last call. -/
def quietAnswer : Except ExchangeHalt Unit × ClaimantChannel :=
  ClaimantChannel.awaitHealthAccepted (quietAccepted.candidate.facing (unread acceptedWire []))

def quietArmed : HealthSystem :=
  { quietAccepted with
    candidate := quietAnswer.2
    candidateOpen := false
    armed := quietAnswer.1.isOk }

theorem afterCall_step {sys : HealthSystem} {call : OwnerCall} {script : List Delivery}
    {left : OwnerEnd} (held : sys.ownerEnd = .open)
    (delivered : arriving script <+: sys.candidate.link.written.drop sys.taken)
    (returned : (call.run quietEnv (sys.owner.facing script)).1 = .ok left) :
    HealthStep quietEnv quietEnv sys (sys.afterCall call script left) :=
  .ownerDone call script held delivered (Prod.ext returned rfl)

theorem quietArmed_reachable : Reachable quietEnv quietEnv quietPin quietTranscript 0 quietArmed := by
  have hrep : Reachable quietEnv quietEnv quietPin quietTranscript 0 quietReported :=
    (Relation.ReflTransGen.refl.tail (.candidateSends (.sendBoot quietId) rfl nofun rfl)).tail
      (.candidateSends .sendReady rfl nofun rfl)
  have hbo : Reachable quietEnv quietEnv quietPin quietTranscript 0 quietBooted :=
    hrep.tail (afterCall_step rfl (by decide +kernel) (by decide +kernel))
  have hr : Reachable quietEnv quietEnv quietPin quietTranscript 0 quietReady :=
    hbo.tail (afterCall_step rfl (by decide +kernel) (by decide +kernel))
  have hhe : Reachable quietEnv quietEnv quietPin quietTranscript 0 quietHealthy :=
    hr.tail (afterCall_step rfl (by decide +kernel) (by decide +kernel))
  have hacc : Reachable quietEnv quietEnv quietPin quietTranscript 0 quietAccepted :=
    hhe.tail (afterCall_step rfl (by decide +kernel) (by decide +kernel))
  have han : quietAnswer.1 = .ok () := by decide +kernel
  refine hacc.tail (.candidateAwaits (unread acceptedWire []) rfl (by decide +kernel) rfl ?_)
  rw [han]
  exact nofun

theorem health_safety_quiet : quietArmed.armed = true ∧
    HealthSafety quietEnv quietEnv quietTranscript quietArmed :=
  ⟨by decide +kernel, health_safety quietArmed_reachable⟩

end QuietRun

end Keld.Attempt
