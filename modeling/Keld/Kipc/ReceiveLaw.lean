/-
# `Keld.Kipc.ReceiveLaw` — one receive contract in two languages

`Mirrors` says when a policy object and a host policy declare the same thing;
under it the two validators accept the same headers and name the same first
violation (`Agrees`).  On the Worker's side `Admitted` is the table of frames
that get past selection and validation, written without any policy, and
`WorkerActs` is what is done with them.

Echo is the exception in that table: its waiter takes a `REPLY` and no `ERR`,
so an `ERR` answering a pending echo call is refused.
-/
import Keld.Lib.Trace
import Keld.Kipc.Receive
import Keld.Ipc.Receive

namespace Keld.Kipc

open List FrameKind FrameHeader

/-! ## What the validator checks -/

/-- The structured branch of the validator, passed. -/
structure Structured (policy : ReceivePolicy) (header : FrameHeader) : Prop where
  kind : header.kind ∈ policy.kinds
  flags : header.flags = 0
  channel : header.channel = policy.channel ∨ some header.channel = policy.alsoChannel
  corr : policy.corr.check header.corr = .ok ()
  exactLen : ∀ n, policy.exactLen = some n → header.len = n
  emptyPayload : policy.emptyPayload = some true → header.len = 0

theorem zero_and_flagRaw : 0 &&& flagRaw = 0 := rfl

variable {header : FrameHeader} {α : Type} {a : α} {draft draft' : TableDraft}
  {receiver : WorkerCallReceiver} {channel : ℕ}

theorem validateReceivedHeader_structured {policy : ReceivePolicy}
    (h : ¬ (policy.allowPing = some true ∧ header.kind = ping)) :
    validateReceivedHeader policy header = .ok header ↔ Structured policy header := by
  have hif : ¬ (policy.allowPing == some true && header.kind == ping) = true := by
    simpa using h
  rw [validateReceivedHeader, if_neg hif]
  simp only [bind_unit_ok, require_ok]
  constructor
  · rintro ⟨hk, -, hfl, hc, hco, hex, hem, -⟩
    refine ⟨by simpa using hk, by simpa using hfl, by simpa using hc, hco, ?_, ?_⟩
    · intro n hn
      simpa [hn] using hex
    · intro he
      simpa [he] using hem
  · intro hs
    refine ⟨by simpa using hs.kind, ?_, by simpa using hs.flags, by simpa using hs.channel,
      hs.corr, ?_, ?_, rfl⟩
    · rw [hs.flags, zero_and_flagRaw]
      rfl
    · cases hn : policy.exactLen with
      | none => rfl
      | some n => simpa using hs.exactLen n hn
    · by_cases he : policy.emptyPayload = some true
      · simp [he, hs.emptyPayload he]
      · simp [he]

theorem validateReceivedHeader_ping {policy : ReceivePolicy} (hp : policy.allowPing = some true)
    (hk : header.kind = ping) :
    validateReceivedHeader policy header = .ok header ↔ header.flags = 0 ∧ header.len = 0 := by
  have hif : (policy.allowPing == some true && header.kind == ping) = true := by
    simp [hp, hk]
  rw [validateReceivedHeader, if_pos hif]
  simp only [bind_unit_ok, require_ok, beq_iff_eq]
  constructor
  · rintro ⟨hf, hl, -⟩
    exact ⟨hf, hl⟩
  · rintro ⟨hf, hl⟩
    exact ⟨hf, hl, rfl⟩

theorem validateReceivedHeader_eq {policy : ReceivePolicy} {out : FrameHeader}
    (h : validateReceivedHeader policy header = .ok out) : out = header := by
  unfold validateReceivedHeader at h
  split_ifs at h
  · simp only [bind_unit_ok] at h
    exact (Except.ok.inj h.2.2).symm
  · simp only [bind_unit_ok] at h
    exact (Except.ok.inj h.2.2.2.2.2.2.2).symm

/-! ## The two validators -/

/-- A host header as the transport decodes it. -/
def FrameHeader.mirror (h : Ipc.FrameHeader) : FrameHeader :=
  { kind := h.kind.toU8.toNat, flags := h.flags.toNat, channel := h.channel.raw.toNat,
    corr := h.corr.raw.toNat, len := h.len.toNat }

def CorrRule.mirror : Ipc.ExpectedCorrelation → CorrRule
  | .zero => .zero
  | .nonZero => .nonZero
  | .exactly corr => .exactly corr.raw.toNat

/-- The two policies declare the same channels, kinds, correlation, payload rule and probe. -/
structure Mirrors (policy : ReceivePolicy) (host : Ipc.ReceivePolicy) : Prop where
  channel : policy.channel = host.channel.raw.toNat
  alsoChannel : policy.alsoChannel = host.alsoChannel.map (fun c => c.raw.toNat)
  kinds : ∀ kind : Ipc.FrameKind, kind.toU8.toNat ∈ policy.kinds ↔ host.kinds.contains kind = true
  corr : policy.corr = CorrRule.mirror host.expectedCorr
  exactLen : ∀ n, policy.exactLen = some n ↔ ∃ len, host.payload = .exactLen len ∧ len.toNat = n
  emptyPayload : policy.emptyPayload = some true ↔ host.payload = .empty
  allowPing : policy.allowPing = some true ↔ host.allowPing = true

/-- Both accept the header, or both refuse it for the same reason. -/
def Agrees (policy : ReceivePolicy) (host : Ipc.ReceivePolicy) (header : Ipc.FrameHeader) : Prop :=
  match Ipc.validateReceivedHeader host header with
  | .ok validated => validated.header = header ∧
      validateReceivedHeader policy (.mirror header) = .ok (.mirror header)
  | .error err => ∃ detail, err = .protocol detail ∧
      validateReceivedHeader policy (.mirror header) = .error ⟨"KELD-IPC-005", detail⟩

/-- A computation of either side, with the same outcome and the same detail. -/
def Same {α : Type} (a : α) (ours : Except KipcError α) (host : Except Ipc.IpcError Unit) : Prop :=
  match host with
  | .ok () => ours = .ok a
  | .error err => ∃ detail, err = .protocol detail ∧ ours = .error ⟨"KELD-IPC-005", detail⟩

theorem same_require {ours host : Bool} (h : ours = host) (detail : String) :
    Same () (require ours ⟨"KELD-IPC-005", detail⟩) (require host (.protocol detail)) := by
  subst h
  cases ours with
  | true => rfl
  | false => exact ⟨detail, rfl, rfl⟩

theorem Same.bind {ours : Except KipcError Unit} {rest : Except KipcError α}
    {host hostRest : Except Ipc.IpcError Unit} (h : Same () ours host)
    (hr : Same a rest hostRest) :
    Same a (ours >>= fun _ => rest) (host >>= fun _ => hostRest) := by
  cases host with
  | ok u =>
    have hou : ours = .ok () := h
    rw [hou]
    exact hr
  | error err =>
    obtain ⟨detail, rfl, hou⟩ := h
    rw [hou]
    exact ⟨detail, rfl, rfl⟩

theorem Same.skip {ours : Except KipcError α} {host : Except Ipc.IpcError Unit} {b : Bool}
    {err : KipcError} (hb : b = true) (h : Same a ours host) :
    Same a (require b err >>= fun _ => ours) host := by
  subst hb
  exact h

theorem toNat_beq_zero16 (n : UInt16) : (n.toNat == 0) = (n == 0) := by
  rw [Bool.eq_iff_iff, beq_iff_eq, beq_iff_eq, ← UInt16.toNat_inj]
  exact Iff.rfl

theorem toNat_beq32 (n m : UInt32) : (n.toNat == m.toNat) = (n == m) := by
  rw [Bool.eq_iff_iff, beq_iff_eq, beq_iff_eq, UInt32.toNat_inj]

theorem corr_beq (a b : Ipc.CorrelationId) : (a.raw.toNat == b.raw.toNat) = (a == b) := by
  rw [toNat_beq32]
  cases a
  cases b
  rw [Bool.eq_iff_iff, beq_iff_eq, beq_iff_eq, Ipc.CorrelationId.mk.injEq]

theorem channel_beq (a b : Ipc.ChannelId) : (a.raw.toNat == b.raw.toNat) = (a == b) := by
  cases a
  cases b
  rw [Bool.eq_iff_iff, beq_iff_eq, beq_iff_eq, Ipc.ChannelId.mk.injEq, UInt16.toNat_inj]

theorem flagRaw_beq (n : UInt16) : (n.toNat &&& flagRaw == 0) = (n &&& Ipc.flagRaw == 0) := by
  have h : (n &&& Ipc.flagRaw).toNat = n.toNat &&& flagRaw := UInt16.toNat_and n Ipc.flagRaw
  rw [← h]
  exact toNat_beq_zero16 _

theorem same_corr (host : Ipc.ExpectedCorrelation) (corr : Ipc.CorrelationId) :
    Same () ((CorrRule.mirror host).check corr.raw.toNat) (host.check corr) := by
  have hz : (corr.raw.toNat == 0) = (corr == ⟨0⟩) := corr_beq corr ⟨0⟩
  cases host with
  | zero => exact same_require hz _
  | nonZero => exact same_require (congrArg (!·) hz) _
  | exactly id => exact same_require (corr_beq corr id) _

section Agree

variable {policy : ReceivePolicy} {host : Ipc.ReceivePolicy}

section

variable (m : Mirrors policy host)
include m

theorem Mirrors.same_channel (header : Ipc.FrameHeader) :
    (header.channel.raw.toNat == policy.channel ||
        some header.channel.raw.toNat == policy.alsoChannel) =
      (header.channel == host.channel || host.alsoChannel == some header.channel) := by
  rw [m.channel, m.alsoChannel, channel_beq]
  cases host.alsoChannel with
  | none => rfl
  | some also =>
    have h : (some header.channel.raw.toNat == some also.raw.toNat) =
        (some also == some header.channel) := by
      rw [Option.some_beq_some, Option.some_beq_some, channel_beq, Bool.eq_iff_iff, beq_iff_eq,
        beq_iff_eq]
      exact eq_comm
    rw [Option.map_some, h]

/-- The declared length, and the end of the validator. -/
theorem Mirrors.same_payload (len : UInt32) (out : FrameHeader) :
    Same out
      (do
        require (policy.exactLen.all (len.toNat == ·))
          ⟨"KELD-IPC-005", "payload length does not match the declared exact shape"⟩
        require (!(policy.emptyPayload == some true && len.toNat != 0))
          ⟨"KELD-IPC-005", "payload must be empty for this frame"⟩
        return out)
      (host.payload.check len) := by
  cases hp : host.payload with
  | exactLen n =>
    have hex : policy.exactLen = some n.toNat := (m.exactLen _).mpr ⟨n, hp, rfl⟩
    have hem : ¬ policy.emptyPayload = some true := by
      rw [m.emptyPayload, hp]
      exact nofun
    have h := same_require (toNat_beq32 len n)
      "payload length does not match the declared exact shape"
    have hr : Same out (do
          require (!(policy.emptyPayload == some true && len.toNat != 0))
            ⟨"KELD-IPC-005", "payload must be empty for this frame"⟩
          return out)
        (.ok ()) := .skip (by simp [hem]) rfl
    have ha := h.bind hr
    rw [hex]
    have hok : (require (len == n)
        (.protocol "payload length does not match the declared exact shape") >>= fun _ =>
          Except.ok ()) = Ipc.PayloadMode.check len (.exactLen n) := by
      rw [Ipc.PayloadMode.check]
      cases (len == n) <;> rfl
    rw [← hok]
    exact ha
  | empty =>
    have hex : policy.exactLen = none := by
      cases he : policy.exactLen with
      | none => rfl
      | some n =>
        obtain ⟨l, hl, -⟩ := (m.exactLen n).mp he
        rw [hp] at hl
        cases hl
    have hem : policy.emptyPayload = some true := m.emptyPayload.mpr hp
    rw [hex, hem]
    refine Same.skip rfl ?_
    have hb : (!(some true == some true && len.toNat != 0)) = (len == 0) := by
      have h0 : (len.toNat == 0) = (len == 0) := toNat_beq32 len 0
      rw [← h0]
      simp [bne]
    have h := (same_require hb "payload must be empty for this frame").bind
      (show Same out (pure out) (.ok ()) from rfl)
    have hok : (require (len == 0) (.protocol "payload must be empty for this frame") >>= fun _ =>
          Except.ok ()) = Ipc.PayloadMode.check len .empty := by
      rw [Ipc.PayloadMode.check]
      cases (len == 0) <;> rfl
    rw [← hok]
    exact h
  | codec =>
    have hex : policy.exactLen = none := by
      cases he : policy.exactLen with
      | none => rfl
      | some n =>
        obtain ⟨l, hl, -⟩ := (m.exactLen n).mp he
        rw [hp] at hl
        cases hl
    have hem : ¬ policy.emptyPayload = some true := by
      rw [m.emptyPayload, hp]
      exact nofun
    rw [hex]
    exact Same.skip rfl (Same.skip (by simp [hem]) rfl)

theorem Mirrors.same (header : Ipc.FrameHeader) :
    Same (mirror header) (validateReceivedHeader policy (.mirror header)) (host.check header) := by
  have hpi : (policy.allowPing == some true && (mirror header).kind == ping)
      = (host.allowPing && header.kind == .ping) := by
    have ha : (policy.allowPing == some true) = host.allowPing := by
      rw [Bool.eq_iff_iff, beq_iff_eq]
      exact m.allowPing
    have hk : ((mirror header).kind == ping) = (header.kind == .ping) := by
      show (header.kind.toU8.toNat == ping) = _
      cases header.kind <;> rfl
    rw [ha, hk]
  have hfl : ((mirror header).flags == 0) = (header.flags &&& ~~~Ipc.structuredFlagsMask == 0) := by
    rw [Ipc.and_not_structuredFlagsMask]
    exact toNat_beq_zero16 _
  rw [validateReceivedHeader, Ipc.ReceivePolicy.check, hpi]
  split_ifs with hif
  · have h := (same_require hfl "PING flags must be 0").bind
      ((same_require (toNat_beq32 header.len 0) "PING payload must be empty").bind
        (show Same (mirror header) (pure (.mirror header)) (.ok ()) from rfl))
    have hl : (require (header.len == 0)
        (Ipc.IpcError.protocol "PING payload must be empty") >>= fun _ => Except.ok ()) =
        require (header.len == 0) (.protocol "PING payload must be empty") := by
      cases (header.len == 0) <;> rfl
    rw [hl] at h
    exact h
  · have hki : policy.kinds.contains (mirror header).kind = host.kinds.contains header.kind := by
      rw [Bool.eq_iff_iff, contains_iff_mem]
      exact m.kinds header.kind
    refine (same_require hki _).bind ((same_require (flagRaw_beq _) _).bind
      ((same_require hfl _).bind ((same_require (m.same_channel header) _).bind
        (Same.bind ?_ (m.same_payload header.len _)))))
    rw [m.corr]
    exact same_corr host.expectedCorr header.corr

theorem Mirrors.agrees (header : Ipc.FrameHeader) : Agrees policy host header := by
  have h := m.same header
  unfold Agrees
  cases hv : Ipc.validateReceivedHeader host header with
  | ok v =>
    obtain ⟨hc, hh⟩ := Ipc.validateReceivedHeader_ok.mp hv
    rw [hc] at h
    exact ⟨hh, h⟩
  | error err =>
    rw [Ipc.validateReceivedHeader_error.mp hv] at h
    exact h

end

end Agree

/-! ## Every host policy has a mirror -/

/-- All frame kinds, in the order of their bytes. -/
def allKinds : List Ipc.FrameKind :=
  [.hello, .call, .reply, .err, .event, .streamOpen, .streamChunk, .streamClose, .cancel, .grant,
    .ping]

theorem toNat_toU8_inj {a b : Ipc.FrameKind} (h : a.toU8.toNat = b.toU8.toNat) : a = b := by
  have hby : a.toU8 = b.toU8 := UInt8.toNat_inj.mp h
  have hk := congrArg Ipc.FrameKind.fromU8 hby
  rw [Ipc.FrameKind.fromU8_toU8, Ipc.FrameKind.fromU8_toU8] at hk
  exact Option.some.inj hk

/-- The policy object that declares what a host policy declares. -/
def ReceivePolicy.mirror (host : Ipc.ReceivePolicy) : ReceivePolicy :=
  { channel := host.channel.raw.toNat
    alsoChannel := host.alsoChannel.map (fun c => c.raw.toNat)
    kinds := (allKinds.filter host.kinds.contains).map (fun kind => kind.toU8.toNat)
    corr := CorrRule.mirror host.expectedCorr
    exactLen := match host.payload with | .exactLen len => some len.toNat | _ => none
    emptyPayload := some (host.payload == .empty)
    allowPing := some host.allowPing }

theorem mirrors_mirror (host : Ipc.ReceivePolicy) : Mirrors (.mirror host) host := by
  refine ⟨rfl, rfl, ?_, rfl, ?_, ?_, ?_⟩
  · intro kind
    simp only [ReceivePolicy.mirror, mem_map, mem_filter]
    constructor
    · rintro ⟨other, ⟨-, hc⟩, he⟩
      rw [← toNat_toU8_inj he]
      exact hc
    · intro hc
      exact ⟨kind, ⟨by cases kind <;> decide, hc⟩, rfl⟩
  · intro n
    cases hp : host.payload <;> simp [ReceivePolicy.mirror, hp]
  · simp [ReceivePolicy.mirror]
  · simp [ReceivePolicy.mirror]

/-! ## The receive table -/

/-- What the validation has established of its draft. -/
structure DraftInv (draft : TableDraft) : Prop where
  events : ∀ c ∈ draft.eventChannels, c ∈ hostEventChannels
  seen : ∀ r ∈ draft.callReceivers, r.channel ∈ draft.seen
  /-- A channel has a policy exactly when a receiver declares it, and then that receiver's. -/
  policies : ∀ c p, draft.callPolicies.get? c = some p ↔
    ∃ r ∈ draft.callReceivers, r.channel = c ∧ r.receivePolicy = p
  own : ∀ r ∈ draft.callReceivers, r.receivePolicy.channel = r.channel
  rebuilt : draft.callPolicies =
    draft.callReceivers.foldl (fun policies r => setPolicy policies r.receivePolicy) OrdMap.empty

theorem DraftInv.empty : DraftInv ⟨[], [], [], OrdMap.empty⟩ := by
  refine ⟨?_, ?_, ?_, ?_, rfl⟩
  · intro c hc
    cases hc
  · intro r hr
    cases hr
  · intro c p
    simp
  · intro r hr
    cases hr

theorem claim_ok {seen seen' : List ℕ} {c : ℕ} (h : claim seen (some c) = .ok seen') :
    c ∉ seen ∧ seen' = c :: seen := by
  unfold claim at h
  dsimp only at h
  split_ifs at h with hc
  cases h
  exact ⟨fun hin => hc (.inr hin), rfl⟩

theorem declareEventChannel_inv {value : JsValue} (inv : DraftInv draft)
    (h : declareEventChannel draft value = .ok draft') :
    DraftInv draft' := by
  obtain ⟨channel, -, h⟩ := bind_ok.mp h
  obtain ⟨policy, hpol, h⟩ := bind_ok.mp h
  obtain ⟨seen, hse, h⟩ := bind_ok.mp h
  cases h
  obtain ⟨-, rfl⟩ := claim_ok hse
  have hho : channel ∈ hostEventChannels := by
    unfold eventReceiver at hpol
    rw [bind_unit_ok, require_ok, decide_eq_true_iff] at hpol
    exact hpol.1
  refine ⟨?_, ?_, inv.policies, inv.own, inv.rebuilt⟩
  · intro c hc
    rcases mem_snoc.mp hc with hc | he
    · exact inv.events c hc
    · cases he
      exact hho
  · intro r hr
    exact mem_cons_of_mem _ (inv.seen r hr)

/-- The two policies an entry can name. -/
theorem namedPolicy_ok {policy : ReceivePolicy} {kind : ReceiverPolicy}
    (h : namedPolicy receiver = .ok (policy, kind)) :
    policy = (CallReceiver.mk kind policy.channel).receivePolicy ∧ policy.alsoChannel = none := by
  cases receiver with
  | echoReceiver =>
    cases h
    exact ⟨rfl, rfl⟩
  | privilegedCallReceiver value =>
    obtain ⟨channel, -, h⟩ := bind_ok.mp h
    cases h
    exact ⟨rfl, rfl⟩
  | unknown => cases h

theorem declareCallReceiver_inv (inv : DraftInv draft)
    (h : declareCallReceiver draft receiver = .ok draft') :
    DraftInv draft' := by
  obtain ⟨⟨policy, kind⟩, hna, h⟩ := bind_ok.mp h
  obtain ⟨hpol, hal⟩ := namedPolicy_ok hna
  obtain ⟨seen, hse, h⟩ := bind_ok.mp h
  obtain ⟨hf, rfl⟩ := claim_ok hse
  rw [hal] at h
  cases h
  have hset : setPolicy draft.callPolicies policy =
      draft.callPolicies.insert policy.channel policy := by
    rw [setPolicy, hal]
  refine ⟨inv.events, ?_, ?_, ?_, ?_⟩
  · intro r hr
    rcases mem_snoc.mp hr with hr | he
    · exact mem_cons_of_mem _ (inv.seen r hr)
    · cases he
      exact mem_cons_self
  · intro c p
    rw [hset, OrdMap.get?_insert]
    split_ifs with hc
    · subst hc
      constructor
      · intro hp
        cases hp
        exact ⟨_, mem_concat_self, rfl, hpol.symm⟩
      · rintro ⟨r, hr, hch, rfl⟩
        rcases mem_snoc.mp hr with hr | he
        · -- the channel was not taken before
          exact absurd (hch ▸ inv.seen r hr) hf
        · cases he
          rw [← hpol]
    · rw [inv.policies]
      constructor
      · rintro ⟨r, hr, hre⟩
        exact ⟨r, mem_append_left _ hr, hre⟩
      · rintro ⟨r, hr, hch, hp⟩
        rcases mem_snoc.mp hr with hr | he
        · exact ⟨r, hr, hch, hp⟩
        · cases he
          exact absurd hch.symm hc
  · intro r hr
    rcases mem_snoc.mp hr with hr | he
    · exact inv.own r hr
    · cases he
      rw [← hpol]
  · rw [foldl_append, ← inv.rebuilt, foldl_cons, foldl_nil, ← hpol]

/-- An invariant of a loop that stops at the first error. -/
theorem foldlM_inv {σ ι : Type} {P : σ → Prop} {f : σ → ι → Except KipcError σ}
    (hf : ∀ s i s', P s → f s i = .ok s' → P s') {l : List ι} {s s' : σ} (hs : P s)
    (h : l.foldlM f s = .ok s') : P s' := by
  induction l generalizing s with
  | nil =>
    cases h
    exact hs
  | cons i l ih =>
    rw [foldlM_cons] at h
    obtain ⟨mid, hmid, hr⟩ := bind_ok.mp h
    exact ih (hf s i mid hs hmid) hr

theorem validateReceiveTable_ok {events : List JsValue} {receivers : List WorkerCallReceiver}
    {config : WorkerLinkConfig} (h : validateReceiveTable events receivers = .ok config) :
    ∃ draft, DraftInv draft ∧ config = ⟨draft.eventChannels, draft.callReceivers,
      ⟨draft.eventChannels, draft.callPolicies⟩⟩ := by
  obtain ⟨draft, hevs, h⟩ := bind_ok.mp h
  obtain ⟨draft', hc, h⟩ := bind_ok.mp h
  cases h
  have h1 := foldlM_inv (fun _ _ _ inv h => declareEventChannel_inv inv h) DraftInv.empty hevs
  exact ⟨draft', foldlM_inv (fun _ _ _ inv h => declareCallReceiver_inv inv h) h1 hc, rfl⟩

/-! ## The frames the Worker admits -/

/-- The frames a role with this configuration admits while these calls are pending. -/
inductive Admitted (config : WorkerLinkConfig) (pending : OrdMap ℕ PendingCallEntry)
    (header : FrameHeader) : InboundAction → Prop
  | ping (kind : header.kind = ping) (flags : header.flags = 0) (len : header.len = 0) :
      Admitted config pending header .ping
  | reply {entry : PendingCallEntry}
      (kind : header.kind = reply ∨
        header.kind = err ∧ entry.channel ≠ echoChannel)
      (flags : header.flags = 0) (get : pending.get? header.corr = some entry)
      (allocated : entry.channel ∈ allocatedChannels) (channel : header.channel = entry.channel) :
      Admitted config pending header entry.action
  | event (kind : header.kind = event) (flags : header.flags = 0)
      (corr : header.corr = 0) (declared : header.channel ∈ config.eventChannels) :
      Admitted config pending header .append
  | call {receiver : CallReceiver} (kind : header.kind = call)
      (flags : header.flags = 0) (corr : header.corr ≠ 0)
      (declared : receiver ∈ config.callReceivers) (channel : header.channel = receiver.channel) :
      Admitted config pending header .append

theorem admitInbound_ok {table : InboundTable} {pending : OrdMap ℕ PendingCallEntry}
    {action : InboundAction} :
    admitInbound header table pending = .ok action ↔
      ∃ policy, selectInboundPolicy header table pending = .ok (policy, action) ∧
        validateReceivedHeader policy header = .ok header := by
  unfold admitInbound
  rw [bind_ok]
  constructor
  · rintro ⟨⟨policy, action'⟩, hse, h⟩
    obtain ⟨out, hv, hret⟩ := bind_ok.mp h
    cases hret
    cases validateReceivedHeader_eq hv
    exact ⟨policy, hse, hv⟩
  · rintro ⟨policy, hse, hv⟩
    exact ⟨(policy, action), hse, bind_ok.mpr ⟨header, hv, rfl⟩⟩

theorem noFramePolicy_refuses (header : FrameHeader) :
    ¬ validateReceivedHeader noFramePolicy header = .ok header := by
  rw [validateReceivedHeader_structured (by simp [noFramePolicy])]
  intro h
  exact absurd h.kind (by simp [noFramePolicy])

theorem replyWaiter_eq (ha : channel ∈ allocatedChannels) (he : channel ≠ echoChannel) (corr : ℕ) :
    replyWaiter channel corr =
      .ok { channel := channel, kinds := [reply, err],
            corr := .exactly corr } := by
  have hh : (channel != handshakeChannel) = true := by
    rw [bne_iff_ne]
    rintro rfl
    exact absurd ha (by decide)
  have hal : isAllocatedChannel channel = true := decide_eq_true ha
  have hec : (channel != echoChannel) = true := bne_iff_ne.mpr he
  simp only [replyWaiter, hh, hal, hec]
  rfl

/-- What a pending call's waiter lets through. -/
theorem pendingPolicy_admits {entry : PendingCallEntry}
    (hk : header.kind = reply ∨ header.kind = err) :
    (∃ policy, pendingPolicy entry header.corr = .ok policy ∧
        validateReceivedHeader policy header = .ok header) ↔
      (header.kind = reply ∨ header.kind = err ∧ entry.channel ≠ echoChannel) ∧
        header.flags = 0 ∧ entry.channel ∈ allocatedChannels ∧
        header.channel = entry.channel := by
  unfold pendingPolicy
  split_ifs with hec hac
  · -- the echo waiter takes a reply only
    have hal : entry.channel ∈ allocatedChannels := by
      rw [hec]
      decide
    constructor
    · rintro ⟨policy, hp, hv⟩
      cases hp
      rw [validateReceivedHeader_structured (by simp [echoReplyWaiter])] at hv
      refine ⟨.inl (mem_singleton.mp hv.kind), hv.flags, hal, ?_⟩
      rw [hec]
      simpa [echoReplyWaiter] using hv.channel
    · rintro ⟨hki, hfl, -, hc⟩
      refine ⟨_, rfl, (validateReceivedHeader_structured (by simp [echoReplyWaiter])).mpr ?_⟩
      have hre : header.kind = reply := by
        rcases hki with h | ⟨-, h⟩
        · exact h
        · exact absurd hec h
      refine ⟨mem_singleton.mpr hre, hfl, .inl (hc.trans hec), ?_, ?_, ?_⟩
      · simp [echoReplyWaiter, CorrRule.check]
      · exact nofun
      · exact nofun
  · have hal : entry.channel ∈ allocatedChannels := of_decide_eq_true hac
    rw [replyWaiter_eq hal hec]
    constructor
    · rintro ⟨policy, hp, hv⟩
      cases hp
      rw [validateReceivedHeader_structured (by simp)] at hv
      refine ⟨hk.imp_right (fun h => ⟨h, hec⟩), hv.flags, hal, ?_⟩
      simpa using hv.channel
    · rintro ⟨-, hfl, -, hc⟩
      refine ⟨_, rfl, (validateReceivedHeader_structured (by simp)).mpr ?_⟩
      refine ⟨?_, hfl, .inl hc, ?_, ?_, ?_⟩
      · rcases hk with h | h <;> simp [h]
      · simp [CorrRule.check]
      · exact nofun
      · exact nofun
  · constructor
    · rintro ⟨policy, hp, hv⟩
      cases hp
      exact absurd hv (noFramePolicy_refuses header)
    · rintro ⟨-, -, hal, -⟩
      exact absurd (decide_eq_true hal) hac

theorem eventReceiver_eq (h : channel ∈ hostEventChannels) :
    eventReceiver channel = .ok (eventReceiverOn channel) := by
  simp only [eventReceiver, decide_eq_true h]
  rfl

/-- What a declared receiver's policy lets through. -/
theorem receivePolicy_admits {receiver : CallReceiver}
    (hown : receiver.receivePolicy.channel = receiver.channel) (hk : header.kind = call) :
    validateReceivedHeader receiver.receivePolicy header = .ok header ↔
      header.flags = 0 ∧ header.channel = receiver.channel ∧ header.corr ≠ 0 := by
  have hsh : receiver.receivePolicy.kinds = [call] ∧
      receiver.receivePolicy.alsoChannel = none ∧ receiver.receivePolicy.corr = .nonZero ∧
      receiver.receivePolicy.exactLen = none ∧ receiver.receivePolicy.emptyPayload = none := by
    rw [CallReceiver.receivePolicy]
    cases receiver.policy <;> exact ⟨rfl, rfl, rfl, rfl, rfl⟩
  obtain ⟨hki, hal, hco, hex, he⟩ := hsh
  have hpi : ¬ (receiver.receivePolicy.allowPing = some true ∧ header.kind = ping) := by
    rw [hk]
    exact fun h => absurd h.2 (by decide)
  rw [validateReceivedHeader_structured hpi]
  constructor
  · intro h
    refine ⟨h.flags, ?_, ?_⟩
    · simpa [hal, hown] using h.channel
    · simpa [hco, CorrRule.check] using h.corr
  · rintro ⟨hfl, hc, hco'⟩
    refine ⟨by simp [hki, hk], hfl, .inl (hc.trans hown.symm), ?_, ?_, ?_⟩
    · simpa [hco, CorrRule.check] using hco'
    · simp [hex]
    · simp [he]

/-- Selection followed by validation admits exactly the frames of `Admitted`, with its action. -/
theorem admitInbound_iff (inv : DraftInv draft) (header : FrameHeader)
    (pending : OrdMap ℕ PendingCallEntry) (action : InboundAction) :
    admitInbound header ⟨draft.eventChannels, draft.callPolicies⟩ pending = .ok action ↔
      Admitted ⟨draft.eventChannels, draft.callReceivers,
        ⟨draft.eventChannels, draft.callPolicies⟩⟩ pending header action := by
  rw [admitInbound_ok]
  unfold selectInboundPolicy
  split_ifs with hpi hre hev hde hc
  · -- PING runs under the event receiver's probe rule
    constructor
    · rintro ⟨policy, hp, hv⟩
      cases hp
      rw [validateReceivedHeader_ping rfl hpi] at hv
      exact .ping hpi hv.1 hv.2
    · intro h
      cases h with
      | ping _ flags len =>
        exact ⟨_, rfl, (validateReceivedHeader_ping rfl hpi).mpr ⟨flags, len⟩⟩
      | reply kind =>
        rw [hpi] at kind
        exact absurd kind (by simp [ping, reply, err])
      | event kind | call kind =>
        rw [hpi] at kind
        exact absurd kind (by decide)
  · cases hg : pending.get? header.corr with
    | none =>
      constructor
      · rintro ⟨policy, hp, hv⟩
        cases hp
        exact absurd hv (noFramePolicy_refuses header)
      · intro h
        cases h with
        | ping kind => exact absurd kind hpi
        | reply _ _ get =>
          rw [hg] at get
          cases get
        | event kind | call kind => rcases hre with h | h <;> rw [h] at kind <;> cases kind
    | some entry =>
      have hiff := @pendingPolicy_admits header entry hre
      constructor
      · rintro ⟨policy, hp, hv⟩
        obtain ⟨policy', hp', hret⟩ := bind_ok.mp hp
        cases hret
        obtain ⟨hk, hfl, hal, hch⟩ := hiff.mp ⟨policy, hp', hv⟩
        exact .reply hk hfl hg hal hch
      · intro h
        cases h with
        | ping kind => exact absurd kind hpi
        | reply kind flags get allocated channel =>
          cases hg.symm.trans get
          obtain ⟨policy, hp, hv⟩ := hiff.mpr ⟨kind, flags, allocated, channel⟩
          exact ⟨policy, bind_ok.mpr ⟨policy, hp, rfl⟩, hv⟩
        | event kind | call kind => rcases hre with h | h <;> rw [h] at kind <;> cases kind
  · -- a declared event channel is a host event channel
    rw [eventReceiver_eq (inv.events _ hde)]
    have hsh : ¬ ((eventReceiverOn header.channel).allowPing = some true ∧
        header.kind = ping) := fun h => hpi h.2
    constructor
    · rintro ⟨policy, hp, hv⟩
      cases hp
      rw [validateReceivedHeader_structured hsh] at hv
      refine .event hev hv.flags ?_ hde
      simpa [eventReceiverOn, CorrRule.check] using hv.corr
    · intro h
      cases h with
      | ping kind => exact absurd kind hpi
      | reply kind => exact absurd (kind.imp_right And.left) hre
      | event _ flags corr _ =>
        refine ⟨_, rfl, (validateReceivedHeader_structured hsh).mpr ?_⟩
        refine ⟨by simp [eventReceiverOn, hev], flags, .inl rfl, ?_, nofun, nofun⟩
        simp [eventReceiverOn, CorrRule.check, corr]
      | call kind =>
        rw [hev] at kind
        cases kind
  · constructor
    · rintro ⟨policy, hp, hv⟩
      cases hp
      exact absurd hv (noFramePolicy_refuses header)
    · intro h
      cases h with
      | ping kind => exact absurd kind hpi
      | reply kind => exact absurd (kind.imp_right And.left) hre
      | event _ _ _ declared => exact absurd declared hde
      | call kind =>
        rw [hev] at kind
        cases kind
  · constructor
    · rintro ⟨policy, hp, hv⟩
      cases hp
      cases hg : draft.callPolicies.get? header.channel with
      | none =>
        rw [hg] at hv
        exact absurd hv (noFramePolicy_refuses header)
      | some policy =>
        rw [hg] at hv
        obtain ⟨receiver, hm, -, rfl⟩ := (inv.policies _ _).mp hg
        obtain ⟨hfl, hch, hco⟩ := (receivePolicy_admits (inv.own receiver hm) hc).mp hv
        exact .call hc hfl hco hm hch
    · intro h
      cases h with
      | ping kind => exact absurd kind hpi
      | reply kind => exact absurd (kind.imp_right And.left) hre
      | event kind => exact absurd kind hev
      | @call receiver _ flags corr declared channel =>
        have hg : draft.callPolicies.get? header.channel = some receiver.receivePolicy :=
          (inv.policies _ _).mpr ⟨receiver, declared, channel.symm, rfl⟩
        refine ⟨receiver.receivePolicy, ?_, ?_⟩
        · rw [hg]
          rfl
        · exact (receivePolicy_admits (inv.own receiver declared) hc).mpr ⟨flags, channel, corr⟩
  · constructor
    · rintro ⟨policy, hp, hv⟩
      cases hp
      exact absurd hv (noFramePolicy_refuses header)
    · intro h
      cases h with
      | ping kind => exact absurd kind hpi
      | reply kind => exact absurd (kind.imp_right And.left) hre
      | event kind => exact absurd kind hev
      | call kind => exact absurd kind hc

/-! ## The contract -/

/-- One receive contract in two languages, and the Worker's table. -/
structure ReceiveContract : Prop where
  /-- Policies that declare the same thing accept the same headers and name the same violation. -/
  validators_agree : ∀ (policy : ReceivePolicy) (host : Ipc.ReceivePolicy), Mirrors policy host →
    ∀ header, Agrees policy host header
  every_policy_mirrored : ∀ host : Ipc.ReceivePolicy, Mirrors (.mirror host) host
  /-- The Worker rebuilds the table that was validated. -/
  table_rebuilt : ∀ events receivers config, validateReceiveTable events receivers = .ok config →
    inboundTable config.eventChannels config.callReceivers = config.table
  /-- Under a validated table a frame is admitted, with an action, exactly if `Admitted` says so. -/
  worker_admits : ∀ events receivers config, validateReceiveTable events receivers = .ok config →
    ∀ (pending : OrdMap ℕ PendingCallEntry) (header : FrameHeader) (action : InboundAction),
      admitInbound header config.table pending = .ok action ↔
        Admitted config pending header action

/-- **Receive validation agrees across languages and the Worker admits exactly its table.** -/
theorem receive_contract : ReceiveContract := by
  refine ⟨fun policy host m header => m.agrees header, mirrors_mirror, ?_, ?_⟩
  · intro events receivers config h
    obtain ⟨draft, inv, rfl⟩ := validateReceiveTable_ok h
    simp only [inboundTable]
    rw [← inv.rebuilt]
  · intro events receivers config h pending header action
    obtain ⟨draft, inv, rfl⟩ := validateReceiveTable_ok h
    exact admitInbound_iff inv header pending action

/-- One pending echo call. -/
def pendingEcho : OrdMap ℕ PendingCallEntry :=
  OrdMap.empty.insert 5 { channel := echoChannel, blocking := false, abandoned := false }

/-- An `ERR` with zero flags, on the allocated channel of the pending call it answers, is refused
when that call is an echo. -/
theorem echo_err_refused :
    ¬ ∀ events receivers config, validateReceiveTable events receivers = .ok config →
      ∀ (pending : OrdMap ℕ PendingCallEntry) (header : FrameHeader) (entry : PendingCallEntry),
        (header.kind = reply ∨ header.kind = err) → header.flags = 0 →
        pending.get? header.corr = some entry → entry.channel ∈ allocatedChannels →
        header.channel = entry.channel →
        ∃ action, admitInbound header config.table pending = .ok action := by
  intro h
  obtain ⟨action, ha⟩ := h [] [] ⟨[], [], ⟨[], OrdMap.empty⟩⟩ rfl pendingEcho
    { kind := err, flags := 0, channel := echoChannel, corr := 5, len := 0 }
    { channel := echoChannel, blocking := false, abandoned := false }
    (.inr rfl) rfl rfl (by decide) rfl
  have he : admitInbound
      { kind := err, flags := 0, channel := echoChannel, corr := 5, len := 0 }
      ⟨[], OrdMap.empty⟩ pendingEcho =
      .error ⟨"KELD-IPC-005", "frame kind is not declared by the session policy"⟩ := by
    decide +kernel
  rw [he] at ha
  cases ha

end Keld.Kipc
