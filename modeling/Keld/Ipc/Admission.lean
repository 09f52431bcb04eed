/-
# `Keld.Ipc.Admission` — what the primary app link lets in

The link's receive contract, stated on its own: four rules, each with the header
fields it asks for, and five checks in one fixed order.  `primary_admission`
says that the validator of the primary reader is this contract: it accepts a
header exactly when a rule admits it, at most one rule ever does, and a refused
header is refused for the first check it fails.

    ping           flags 0, length 0, any channel and correlation
    hostCall       CALL on echo, lifecycle or window, correlation not 0
    guardedCall    CALL on a channel the host listed as guarded, correlation not 0
    pendingReply   REPLY or ERR on echo, correlation the pending one
-/
import Keld.Ipc.Receive

namespace Keld.Ipc

open List ReceivePolicy

/-! ## The contract -/

/-- Channels the host answers itself on the primary link. -/
def hostChannels : List ChannelId := [echo.id, lifecycle.id, window.id]

inductive AdmissionRule
  | ping
  | hostCall
  | guardedCall (entry : ChannelEntry)
  | pendingReply

/-- The headers a rule admits. -/
def AdmissionRule.Admits (pending : Option CorrelationId) (calls : List ChannelEntry)
    (header : FrameHeader) : AdmissionRule → Prop
  | .ping => header.kind = .ping ∧ header.flags = 0 ∧ header.len = 0
  | .hostCall =>
    header.kind = .call ∧ header.flags = 0 ∧ header.corr ≠ ⟨0⟩ ∧ header.channel ∈ hostChannels
  | .guardedCall entry =>
    header.kind = .call ∧ header.flags = 0 ∧ header.corr ≠ ⟨0⟩ ∧
      firstMatch calls header = some entry
  | .pendingReply =>
    (header.kind = .reply ∨ header.kind = .err) ∧ header.flags = 0 ∧
      header.channel = echo.id ∧ pending = some header.corr

/-- The limits an entry's owner sets on its calls; the other rules have none. -/
def AdmissionRule.WithinLimits (admission : ChannelEntry → CorrelationId → GuardedCallAdmission)
    (header : FrameHeader) : AdmissionRule → Prop
  | .guardedCall entry => admission entry header.corr ≠ .rejectSession
  | _ => True

inductive HeaderCheck
  | kind
  | flags
  | channel
  | correlation
  | length
deriving DecidableEq, Repr

/-- Whether a header passes one check of the contract. -/
def HeaderCheck.passes (pending : Option CorrelationId) (calls : List ChannelEntry)
    (header : FrameHeader) : HeaderCheck → Bool
  | .kind =>
    header.kind == .ping || header.kind == .call ||
      ((header.kind == .reply || header.kind == .err) && pending.isSome)
  | .flags => header.flags == 0
  | .channel =>
    match header.kind with
    | .ping => true
    | .call => hostChannels.contains header.channel || (firstMatch calls header).isSome
    | _ => header.channel == echo.id
  | .correlation =>
    match header.kind with
    | .ping => true
    | .call => header.corr != ⟨0⟩
    | _ => pending == some header.corr
  | .length => header.kind != .ping || header.len == 0

/-- The text of the refusal a failed check gives. -/
def HeaderCheck.detail (header : FrameHeader) : HeaderCheck → String
  | .kind => "frame kind is not declared by the session policy"
  | .flags =>
    if header.kind = .ping then "PING flags must be 0"
    else if header.flags &&& flagRaw ≠ 0 then "FLAG_RAW is invalid for a structured session"
    else "unknown flag bits are reserved"
  | .channel => "wrong channel for the session policy"
  | .correlation =>
    if header.kind = .call then "correlation 0 is reserved"
    else "correlation does not match the awaited call"
  | .length => "PING payload must be empty"

open HeaderCheck (passes detail)

/-- The first check a header fails, in the contract's order. -/
def firstRefusal (pending : Option CorrelationId) (calls : List ChannelEntry)
    (header : FrameHeader) : Option HeaderCheck :=
  [HeaderCheck.kind, .flags, .channel, .correlation, .length].find?
    (fun check => !check.passes pending calls header)

/-! ## One policy at a time -/

variable {policy : ReceivePolicy} {header : FrameHeader} {entry : ChannelEntry}

/-- The checks of a probe. -/
theorem check_ping (hp : policy.allowPing = true) (hk : header.kind = .ping) :
    policy.check header =
      if header.flags ≠ 0 then .error (.protocol "PING flags must be 0")
      else if header.len ≠ 0 then .error (.protocol "PING payload must be empty")
      else .ok () := by
  simp only [check, hp, hk, beq_self_eq_true, Bool.and_self, if_true, and_not_structuredFlagsMask]
  by_cases hf : header.flags = 0
  · by_cases hl : header.len = 0 <;> simp [hf, hl, require, bind, Except.bind]
  · simp [hf, require, bind, Except.bind]

/-- The checks of a structured frame whose payload the channel's codec judges. -/
theorem check_codec (hk : header.kind ≠ .ping) (hp : policy.payload = .codec) :
    policy.check header =
      if policy.kinds.contains header.kind = false then
        .error (.protocol "frame kind is not declared by the session policy")
      else if header.flags ≠ 0 then
        .error (.protocol (detail header .flags))
      else if ¬ (header.channel = policy.channel ∨ policy.alsoChannel = some header.channel) then
        .error (.protocol "wrong channel for the session policy")
      else policy.expectedCorr.check header.corr := by
  have hpi : (policy.allowPing && header.kind == .ping) = false := by simp [hk]
  simp only [check, hpi, hp, PayloadMode.check, and_not_structuredFlagsMask,
    detail, hk, if_false, Bool.false_eq_true]
  cases policy.kinds.contains header.kind with
  | false => rfl
  | true =>
    by_cases hf : header.flags = 0
    · by_cases hc : header.channel = policy.channel ∨ policy.alsoChannel = some header.channel
      · cases policy.expectedCorr.check header.corr <;>
          simp [hf, hc, require, bind, Except.bind]
      · simp [hf, hc, require, bind, Except.bind]
    · by_cases hr : header.flags &&& flagRaw = 0 <;>
        simp [hf, hr, require, bind, Except.bind]

theorem validateReceivedHeader_map (policy : ReceivePolicy) (header : FrameHeader) :
    (validateReceivedHeader policy header).map (·.header) =
      (policy.check header).map (fun _ => header) := by
  unfold validateReceivedHeader
  split
  next h => simp only [h, Except.map]
  next err h => simp only [h, Except.map]

/-! ## One kind at a time -/

/-- What the contract says of a header: itself, or the refusal of its first failed check. -/
def contractVerdict (pending : Option CorrelationId) (calls : List ChannelEntry)
    (header : FrameHeader) : Except IpcError FrameHeader :=
  match firstRefusal pending calls header with
  | none => .ok header
  | some check => .error (.protocol (check.detail header))

theorem verdict_ping {pending : Option CorrelationId} {calls : List ChannelEntry}
    (hk : header.kind = .ping) :
    (validatePrimaryAppHeaderWithPrivilegedCalls pending calls header).map (·.header) =
      contractVerdict pending calls header := by
  simp only [validatePrimaryAppHeaderWithPrivilegedCalls, hk, validateReceivedHeader_map]
  rw [check_ping rfl hk]
  by_cases hf : header.flags = 0
  · by_cases hl : header.len = 0 <;>
      simp [contractVerdict, firstRefusal, passes, detail, hk, hf, hl, Except.map]
  · simp [contractVerdict, firstRefusal, passes, detail, hk, hf, Except.map]

theorem verdict_reply {pending : Option CorrelationId} {calls : List ChannelEntry}
    (hk : header.kind = .reply ∨ header.kind = .err) :
    (validatePrimaryAppHeaderWithPrivilegedCalls pending calls header).map (·.header) =
      contractVerdict pending calls header := by
  have hpi : header.kind ≠ .ping := by rcases hk with hk | hk <;> simp [hk]
  cases pending with
  | none =>
    rcases hk with hk | hk <;>
      simp [validatePrimaryAppHeaderWithPrivilegedCalls, contractVerdict, firstRefusal,
        passes, detail, hk, Except.map]
  | some corr =>
    have hpick : validatePrimaryAppHeaderWithPrivilegedCalls (some corr) calls header =
        validateReceivedHeader (.primaryEchoReplyWaiter corr) header := by
      rcases hk with hk | hk <;>
        simp only [validatePrimaryAppHeaderWithPrivilegedCalls, hk]
    rw [hpick, validateReceivedHeader_map, check_codec hpi rfl]
    by_cases hf : header.flags = 0
    · by_cases hc : header.channel = echo.id
      · have hco : corr = header.corr ↔ header.corr = corr := eq_comm
        by_cases hcorr : header.corr = corr <;> rcases hk with hk | hk <;>
          simp [primaryEchoReplyWaiter, contractVerdict, firstRefusal,
            passes, detail, ExpectedCorrelation.check, require, hk, hf,
            hc, hcorr, hco, Except.map]
      · rcases hk with hk | hk <;>
          simp [primaryEchoReplyWaiter, contractVerdict, firstRefusal,
            passes, detail, hk, hf, hc, Except.map]
    · rcases hk with hk | hk <;>
        simp [primaryEchoReplyWaiter, contractVerdict, firstRefusal,
          passes, detail, hk, hf, Except.map]

/-- A policy of the shape every `CALL` of the primary link is held to. -/
structure CallPolicy (policy : ReceivePolicy) : Prop where
  payload : policy.payload = .codec
  kinds : policy.kinds = .only .call
  corr : policy.expectedCorr = .nonZero

theorem CallPolicy.check (hp : CallPolicy policy) (hk : header.kind = .call) :
    policy.check header =
      if header.flags ≠ 0 then .error (.protocol (detail header .flags))
      else if ¬ (header.channel = policy.channel ∨ policy.alsoChannel = some header.channel) then
        .error (.protocol "wrong channel for the session policy")
      else if header.corr = ⟨0⟩ then .error (.protocol "correlation 0 is reserved")
      else .ok () := by
  have hpi : header.kind ≠ .ping := by simp [hk]
  rw [check_codec hpi hp.payload, hp.kinds, hp.corr]
  by_cases hc : header.corr = ⟨0⟩ <;> simp [hk, hc, ExpectedCorrelation.check, require]

/-- Whichever policy a `CALL` is held to, it declares the channels the contract does. -/
theorem call_policy (pending : Option CorrelationId) {calls : List ChannelEntry}
    (hc : ∀ entry ∈ calls, entry.receiveClass = .guardedCall) (hk : header.kind = .call) :
    ∃ policy, CallPolicy policy ∧
      validatePrimaryAppHeaderWithPrivilegedCalls pending calls header =
        validateReceivedHeader policy header ∧
      ((header.channel = policy.channel ∨ policy.alsoChannel = some header.channel) ↔
        passes pending calls header .channel = true) := by
  simp only [validatePrimaryAppHeaderWithPrivilegedCalls, passes, hk]
  by_cases hw : header.channel = window.id
  · refine ⟨.windowReceiver, ⟨rfl, rfl, rfl⟩, by rw [if_pos hw], ?_⟩
    simp [windowReceiver, hostChannels, hw]
  · rw [if_neg hw]
    cases hm : firstMatch calls header with
    | none =>
      refine ⟨.primaryAppReceiver, ⟨rfl, rfl, rfl⟩, rfl, ?_⟩
      have hco : lifecycle.id = header.channel ↔ header.channel = lifecycle.id := eq_comm
      simp [primaryAppReceiver, hostChannels, hw, hco]
    | some entry =>
      have hch : header.channel = entry.id := by simpa using find?_some hm
      have hgu := hc entry (mem_of_find?_eq_some hm)
      refine ⟨_, ⟨rfl, rfl, rfl⟩, by
        simp only [privilegedCallReceiver, hgu, beq_self_eq_true, require, if_true]
        rfl, ?_⟩
      simp [hch]

theorem verdict_call {pending : Option CorrelationId} {calls : List ChannelEntry}
    (hca : ∀ entry ∈ calls, entry.receiveClass = .guardedCall) (hk : header.kind = .call) :
    (validatePrimaryAppHeaderWithPrivilegedCalls pending calls header).map (·.header) =
      contractVerdict pending calls header := by
  obtain ⟨policy, hp, hpi, hde⟩ := call_policy pending hca hk
  have hki : passes pending calls header .kind = true := by
    simp [passes, hk]
  have hfl : passes pending calls header .flags = (header.flags == 0) := rfl
  have hco : passes pending calls header .correlation = (header.corr != ⟨0⟩) := by
    simp only [passes, hk]
  have hl : passes pending calls header .length = true := by
    simp [passes, hk]
  have hdt : detail header .correlation = "correlation 0 is reserved" :=
    if_pos hk
  rw [hpi, validateReceivedHeader_map, hp.check hk, contractVerdict]
  simp only [hde, firstRefusal, List.find?, hki, hfl, hco, hl]
  by_cases hf : header.flags = 0
  · cases hc : passes pending calls header .channel with
    | false => simp [detail, hf, Except.map]
    | true =>
      by_cases hco : header.corr = ⟨0⟩
      · simp [hdt, hf, hco, Except.map]
      · have hne : (header.corr != ⟨0⟩) = true := by simp [hco]
        simp [hf, hco, hne, Except.map]
  · have hne : (header.flags == 0) = false := by simp [hf]
    simp [hf, hne, Except.map]

/-! ## Every kind -/

/-- The validator of the primary reader is the contract. -/
theorem primary_verdict (pending : Option CorrelationId) {calls : List ChannelEntry}
    (hc : ∀ entry ∈ calls, entry.receiveClass = .guardedCall) (header : FrameHeader) :
    (validatePrimaryAppHeaderWithPrivilegedCalls pending calls header).map (·.header) =
      contractVerdict pending calls header := by
  cases hk : header.kind with
  | ping => exact verdict_ping hk
  | call => exact verdict_call hc hk
  | reply => exact verdict_reply (.inl hk)
  | err => exact verdict_reply (.inr hk)
  | hello | event | streamOpen | streamChunk | streamClose | cancel | grant =>
    -- no policy of the link declares these kinds
    have hpi : header.kind ≠ .ping := by simp [hk]
    simp only [validatePrimaryAppHeaderWithPrivilegedCalls, hk, validateReceivedHeader_map]
    rw [check_codec hpi rfl]
    simp [primaryAppReceiver, contractVerdict, firstRefusal, passes, detail, hk, Except.map]

theorem contractVerdict_ok {pending : Option CorrelationId} {calls : List ChannelEntry} :
    contractVerdict pending calls header = .ok header ↔
      ∀ check, passes pending calls header check = true := by
  have hn : contractVerdict pending calls header = .ok header ↔
      firstRefusal pending calls header = none := by
    unfold contractVerdict
    cases firstRefusal pending calls header <;> simp
  rw [hn, firstRefusal, find?_eq_none]
  constructor
  · intro h check
    have hm : check ∈ [HeaderCheck.kind, .flags, .channel, .correlation, .length] := by
      cases check <;> simp
    simpa using h check hm
  · intro h check _
    simp [h check]

/-- A header passes every check exactly when a rule admits it. -/
theorem passes_iff_admits {pending : Option CorrelationId} {calls : List ChannelEntry} :
    (∀ check, passes pending calls header check = true) ↔
      ∃ rule : AdmissionRule, rule.Admits pending calls header := by
  constructor
  · intro h
    have hki := h .kind
    have hfl := h .flags
    have hc := h .channel
    have hco := h .correlation
    have hle := h .length
    simp only [passes, Bool.or_eq_true, Bool.and_eq_true, beq_iff_eq] at hki hfl
    rcases hki with (hk | hk) | ⟨hk, -⟩
    · refine ⟨.ping, hk, hfl, ?_⟩
      simpa [passes, hk] using hle
    · simp only [passes, hk, Bool.or_eq_true, contains_iff_mem,
        Option.isSome_iff_exists, bne_iff_ne] at hc hco
      rcases hc with hho | ⟨entry, he⟩
      · exact ⟨.hostCall, hk, hfl, hco, hho⟩
      · exact ⟨.guardedCall entry, hk, hfl, hco, he⟩
    · refine ⟨.pendingReply, hk, hfl, ?_, ?_⟩
      · rcases hk with hk | hk <;> simpa [passes, hk] using hc
      · rcases hk with hk | hk <;> simpa [passes, hk] using hco
  · rintro ⟨rule, h⟩ check
    cases rule with
    | ping =>
      obtain ⟨hk, hf, hl⟩ := h
      cases check <;> simp [passes, hk, hf, hl]
    | hostCall =>
      obtain ⟨hk, hf, hco, hho⟩ := h
      cases check <;> simp [passes, hk, hf, hco, hho]
    | guardedCall entry =>
      obtain ⟨hk, hf, hco, he⟩ := h
      cases check <;> simp [passes, hk, hf, hco, he]
    | pendingReply =>
      obtain ⟨hk, hf, hc, hp⟩ := h
      rcases hk with hk | hk <;> cases check <;>
        simp [passes, hk, hf, hc, hp]

theorem guarded_not_host (ht : entry ∈ channelTable)
    (hgu : entry.receiveClass = .guardedCall) : entry.id ∉ hostChannels := by
  have ha : ∀ entry ∈ channelTable, entry.receiveClass = .guardedCall →
      entry.id ∉ hostChannels := by decide
  exact ha entry ht hgu

/-- A list the host may hand the reader: entries of the table, all guarded. -/
def GuardedCalls (calls : List ChannelEntry) : Prop :=
  ∀ entry ∈ calls, entry ∈ channelTable ∧ entry.receiveClass = .guardedCall

theorem GuardedCalls.firstMatch_id {calls : List ChannelEntry} (hc : GuardedCalls calls)
    (hm : firstMatch calls header = some entry) :
    header.channel ∉ hostChannels := by
  have hch : header.channel = entry.id := by simpa using find?_some hm
  obtain ⟨ht, hgu⟩ := hc entry (mem_of_find?_eq_some hm)
  rw [hch]
  exact guarded_not_host ht hgu

/-- No header falls under two rules. -/
theorem GuardedCalls.rule_unique {calls : List ChannelEntry} (hc : GuardedCalls calls)
    {pending : Option CorrelationId} {rule other : AdmissionRule}
    (h : rule.Admits pending calls header) (h' : other.Admits pending calls header) :
    rule = other := by
  cases rule with
  | ping =>
    cases other with
    | ping => rfl
    | _ => simp_all [AdmissionRule.Admits]
  | hostCall =>
    cases other with
    | hostCall => rfl
    | guardedCall entry => exact absurd h.2.2.2 (hc.firstMatch_id h'.2.2.2)
    | _ => simp_all [AdmissionRule.Admits]
  | guardedCall entry =>
    cases other with
    | hostCall => exact absurd h'.2.2.2 (hc.firstMatch_id h.2.2.2)
    | guardedCall entry' => rw [Option.some.inj (h.2.2.2.symm.trans h'.2.2.2)]
    | _ => simp_all [AdmissionRule.Admits]
  | pendingReply =>
    cases other with
    | pendingReply => rfl
    | _ => simp_all [AdmissionRule.Admits]

/-! ## The primary reader -/

section Primary

variable {pending : Option CorrelationId} {calls : List ChannelEntry}

variable {header : FrameHeader}

theorem GuardedCalls.error_iff (hc : GuardedCalls calls) {err : IpcError} :
    validatePrimaryAppHeaderWithPrivilegedCalls pending calls header = .error err ↔
      ∃ check, firstRefusal pending calls header = some check ∧
        err = .protocol (check.detail header) := by
  have hvdt := primary_verdict pending (fun e he => (hc e he).2) header
  unfold contractVerdict at hvdt
  cases hv : validatePrimaryAppHeaderWithPrivilegedCalls pending calls header with
  | error e =>
    rw [hv] at hvdt
    cases hr : firstRefusal pending calls header with
    | none => simp [hr, Except.map] at hvdt
    | some check =>
      have he : e = .protocol (check.detail header) := by
        simpa [hr, Except.map] using hvdt
      simp [he, eq_comm]
  | ok v =>
    rw [hv] at hvdt
    cases hr : firstRefusal pending calls header with
    | none => simp
    | some check => simp [hr, Except.map] at hvdt

theorem GuardedCalls.ok_iff (hc : GuardedCalls calls) :
    (∃ v, validatePrimaryAppHeaderWithPrivilegedCalls pending calls header = .ok v ∧
      v.header = header) ↔ ∃ rule : AdmissionRule, rule.Admits pending calls header := by
  have hvdt := primary_verdict pending (fun e he => (hc e he).2) header
  rw [← passes_iff_admits, ← contractVerdict_ok, ← hvdt]
  cases validatePrimaryAppHeaderWithPrivilegedCalls pending calls header with
  | error | ok => simp [Except.map]

/-- The reader's closure adds the owner's limits to the contract and nothing else. -/
theorem GuardedCalls.admission_iff (hca : GuardedCalls calls)
    (admission : ChannelEntry → CorrelationId → GuardedCallAdmission) :
    (∃ r, validatePrimaryAppAdmission pending calls admission header = .ok r) ↔
      ∃ rule : AdmissionRule, rule.Admits pending calls header ∧
        rule.WithinLimits admission header := by
  constructor
  · rintro ⟨r, hr⟩
    rw [validatePrimaryAppAdmission, bind_ok] at hr
    obtain ⟨v, hv, hr⟩ := hr
    rw [bind_unit_ok, require_ok, bne_iff_ne] at hr
    obtain ⟨hou, -⟩ := hr
    have hh : v.header = header := by
      have hvdt := primary_verdict pending (fun e he => (hca e he).2) header
      unfold contractVerdict at hvdt
      rw [hv] at hvdt
      cases hc : firstRefusal pending calls header with
      | none => simpa [hc, Except.map] using hvdt
      | some check => simp [hc, Except.map] at hvdt
    obtain ⟨rule, hru⟩ := hca.ok_iff.mp ⟨v, hv, hh⟩
    refine ⟨rule, hru, ?_⟩
    cases rule with
    | guardedCall entry =>
      obtain ⟨hk, -, -, hm⟩ := hru
      simpa [AdmissionRule.WithinLimits, guardedOutcome, hk, hm] using hou
    | _ => trivial
  · rintro ⟨rule, hru, hli⟩
    obtain ⟨v, hv, -⟩ := hca.ok_iff.mpr ⟨rule, hru⟩
    refine ⟨(v, guardedOutcome calls admission header), ?_⟩
    rw [validatePrimaryAppAdmission, bind_ok]
    refine ⟨v, hv, ?_⟩
    rw [bind_unit_ok, require_ok, bne_iff_ne]
    refine ⟨?_, rfl⟩
    unfold guardedOutcome
    split_ifs with hk
    · cases hm : firstMatch calls header with
      | none => simp
      | some entry =>
        -- the owner is asked only for the entry that admitted the call
        have hgu : AdmissionRule.Admits pending calls header (.guardedCall entry) := by
          cases rule with
          | hostCall | guardedCall => exact ⟨hk, hru.2.1, hru.2.2.1, hm⟩
          | ping | pendingReply => simp [AdmissionRule.Admits, hk] at hru
        rw [hca.rule_unique hru hgu] at hli
        exact hli
    · simp

end Primary

/-- The primary app link admits exactly its contract: a header is accepted if and only if a rule
admits it, no two rules share a header, a refused header is refused for the first check it fails,
and what the reader hands on is in addition within the limits of the guarded channel's owner. -/
theorem primary_admission (pending : Option CorrelationId) (calls : List ChannelEntry)
    (admission : ChannelEntry → CorrelationId → GuardedCallAdmission) (header : FrameHeader)
    (hcalls : GuardedCalls calls) :
    ((∃ v, validatePrimaryAppHeaderWithPrivilegedCalls pending calls header = .ok v ∧
        v.header = header) ↔ ∃ rule : AdmissionRule, rule.Admits pending calls header) ∧
      (∀ rule other : AdmissionRule, rule.Admits pending calls header →
        other.Admits pending calls header → rule = other) ∧
      (∀ err, validatePrimaryAppHeaderWithPrivilegedCalls pending calls header = .error err ↔
        ∃ check, firstRefusal pending calls header = some check ∧
          err = .protocol (check.detail header)) ∧
      ((∃ r, validatePrimaryAppAdmission pending calls admission header = .ok r) ↔
        ∃ rule : AdmissionRule, rule.Admits pending calls header ∧
          rule.WithinLimits admission header) :=
  ⟨hcalls.ok_iff, fun _ _ => hcalls.rule_unique, fun _ => hcalls.error_iff,
    hcalls.admission_iff admission⟩

/-- A guarded call on the filesystem channel while another one is outstanding. -/
def outstandingFsCall : FrameHeader := ⟨.call, 0, fs.id, ⟨7⟩, 12⟩

theorem primary_admission_fs :
    ∃ rule : AdmissionRule, rule.Admits none [fs, auth] outstandingFsCall ∧
      ¬ ∃ r, validatePrimaryAppAdmission none [fs, auth] (fun _ _ => .rejectSession)
        outstandingFsCall = .ok r := by
  have hc : GuardedCalls [fs, auth] := by unfold GuardedCalls; decide
  have ha : AdmissionRule.Admits none [fs, auth] outstandingFsCall (.guardedCall fs) :=
    ⟨rfl, rfl, by decide, rfl⟩
  obtain ⟨-, hun, -, hli⟩ :=
    primary_admission none [fs, auth] (fun _ _ => .rejectSession) outstandingFsCall hc
  refine ⟨_, ha, fun h => ?_⟩
  obtain ⟨rule, hru, hwi⟩ := hli.mp h
  rw [hun rule _ hru ha] at hwi
  exact hwi rfl

end Keld.Ipc
