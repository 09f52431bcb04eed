/-
# `Keld.Ipc.RendezvousRecords` — what the records of a rendezvous say

A challenge is decoded to the binding it was made of and to no other, under the
nonces and process ids it was made with (`decodeLifecycleChallenge_iff`); equal
records have equal transcripts (`lifecycleBindingRecord_injective`).  A binding
is accepted by who expects it (`accepts_iff`).

Behind two `HELLO`s a client waits for a challenge, behind a challenge for a
receipt; a third `HELLO` there is the end of it (`Foiled`).
-/
import Keld.Ipc.Agreement
import Keld.Ipc.Rendezvous

namespace Keld.Ipc

open WindowsLifecycleBinding

/-! ## Bindings -/

variable {purpose : WindowsLifecyclePurpose} {binding : WindowsLifecycleBinding}
  {record : List Byte}

theorem WindowsLifecycleBinding.new_iff {installationId attemptId lifecycleChannelId : LifecycleId}
    :
    new installationId attemptId lifecycleChannelId purpose = .ok binding ↔
      installationId = binding.installationId ∧ attemptId = binding.attemptId ∧
        lifecycleChannelId = binding.lifecycleChannelId ∧ purpose = binding.purpose := by
  unfold new
  constructor
  · intro h
    split_ifs at h with hal
    cases h
    exact ⟨rfl, rfl, rfl, rfl⟩
  · rintro ⟨rfl, rfl, rfl, rfl⟩
    rw [dif_neg (by rw [binding.distinct]; exact Bool.false_ne_true)]

/-- A client accepts the bindings it expects, and from a keeper the attempt it is told. -/
theorem accepts_iff {expectation : WindowsLifecycleExpectation}
    {knowledge : WindowsLifecycleBindingKnowledge} :
    expectation.accepts binding = some knowledge ↔
      expectation.installationId = binding.installationId ∧ expectation.purpose = binding.purpose ∧
        ((expectation.attemptId = some binding.attemptId ∧
            expectation.lifecycleChannelId = some binding.lifecycleChannelId ∧
            knowledge = .independentlyExpected) ∨
          (expectation.attemptId = none ∧ expectation.lifecycleChannelId = none ∧
            expectation.purpose = .keeperToSuccessor ∧
            knowledge = .keeperSuppliedAwaitingJournalRevalidation)) := by
  obtain ⟨installationId, attemptId, lifecycleChannelId, purpose⟩ := expectation
  unfold WindowsLifecycleExpectation.accepts
  by_cases hs : installationId = binding.installationId ∧ purpose = binding.purpose
  · rw [if_neg (by tauto)]
    cases attemptId <;> cases lifecycleChannelId <;> simp [hs.1, hs.2] <;> tauto
  · rw [if_pos (by tauto)]
    constructor
    · intro h
      cases h
    · rintro ⟨hin, hpu, -⟩
      exact absurd ⟨hin, hpu⟩ hs

/-! ## Records -/

theorem WindowsLifecyclePurpose.toU8_inj {left right : WindowsLifecyclePurpose}
    (h : left.toU8 = right.toU8) : left = right := by
  cases left <;> cases right <;> first | rfl | cases h

/-- The fields of a record in a row. -/
def recordFields (magic : List Byte) (t : Transcript) : List (List Byte) :=
  [magic, [t.binding.purpose.toU8], t.binding.installationId.bytes, t.binding.attemptId.bytes,
    t.binding.lifecycleChannelId.bytes, t.clientNonce.bytes, t.serverNonce.bytes,
    leBytes 4 t.clientPid.toNat, leBytes 4 t.serverPid.toNat]

def recordWidths : List ℕ := [8, 1, 32, 32, 32, 32, 32, 4, 4]

theorem record_eq_flatten (magic : List Byte) (t : Transcript) :
    lifecycleBindingRecord magic t = (recordFields magic t).flatten := by
  simp [lifecycleBindingRecord, recordFields]

theorem recordFields_widths {magic : List Byte} (t : Transcript) (hma : magic.length = 8) :
    (recordFields magic t).map List.length = recordWidths := by
  simp [recordFields, recordWidths, hma, Chunk.len, SessionToken.len, sessionTokenLen]

theorem length_record {magic : List Byte} (t : Transcript) (hma : magic.length = 8) :
    (lifecycleBindingRecord magic t).length = lifecycleBindingRecordLen := by
  rw [record_eq_flatten, List.length_flatten, recordFields_widths t hma]
  rfl

theorem leBytes_inj_u32 {left right : UInt32} (h : leBytes 4 left.toNat = leBytes 4 right.toNat) :
    left = right := by
  rw [← u32Le_leBytes left, h, u32Le_leBytes]

theorem SessionToken.ext {left right : SessionToken} (h : left.bytes = right.bytes) :
    left = right := by
  cases left
  cases right
  cases h
  rfl

theorem WindowsLifecycleBinding.ext {left right : WindowsLifecycleBinding}
    (hin : left.installationId = right.installationId)
    (hatt : left.attemptId = right.attemptId)
    (hc : left.lifecycleChannelId = right.lifecycleChannelId)
    (hpu : left.purpose = right.purpose) : left = right := by
  cases left
  cases right
  cases hin
  cases hatt
  cases hc
  cases hpu
  rfl

theorem lifecycleBindingRecord_injective {magic : List Byte} {left right : Transcript}
    (hma : magic.length = 8)
    (h : lifecycleBindingRecord magic left = lifecycleBindingRecord magic right) :
    left = right := by
  have hl := length_record left hma
  have hle := (slices_eq_iff hl (recordFields_widths left hma)).mpr (record_eq_flatten magic left)
  have hr := (slices_eq_iff hl (recordFields_widths right hma)).mpr
    (h.trans (record_eq_flatten magic right))
  have hfl := hle.symm.trans hr
  simp only [recordFields, List.cons.injEq, and_true, true_and] at hfl
  obtain ⟨hpu, hin, hatt, hc, hcli, hsrv, hclientPid, hserverPid⟩ := hfl
  have hbi : left.binding = right.binding :=
    ext (Chunk.ext hin) (Chunk.ext hatt) (Chunk.ext hc) (WindowsLifecyclePurpose.toU8_inj hpu)
  cases left
  cases right
  cases hbi
  cases SessionToken.ext hcli
  cases SessionToken.ext hsrv
  cases leBytes_inj_u32 hclientPid
  cases leBytes_inj_u32 hserverPid
  rfl

theorem lifecycleIdAt_ok {start : ℕ} {id : LifecycleId} (hl : start + 32 ≤ record.length) :
    lifecycleIdAt record start = .ok id ↔ slice record start 32 = id.bytes := by
  unfold lifecycleIdAt
  rw [dif_pos (length_slice hl)]
  constructor
  · intro h
    cases h
    rfl
  · intro h
    exact congrArg _ (Chunk.ext h)

theorem lifecyclePurposeOf_ok {value : Byte} :
    lifecyclePurposeOf value = .ok purpose ↔ value = purpose.toU8 := by
  constructor
  · intro h
    unfold lifecyclePurposeOf at h
    split at h <;> cases h <;> rfl
  · rintro rfl
    cases purpose <;> rfl

/-- The decoder reads back what the record says, and accepts nothing else. -/
theorem decodeLifecycleChallenge_iff {clientNonce serverNonce : SessionToken}
    {clientPid serverPid : UInt32} (hl : record.length = lifecycleBindingRecordLen) :
    decodeLifecycleChallenge record clientNonce serverNonce clientPid serverPid = .ok binding ↔
      record = lifecycleBindingRecord challengeMagic
        ⟨binding, clientNonce, serverNonce, clientPid, serverPid⟩ := by
  have hlo : record.length = 177 := hl
  have hpu : slice record 8 1 = [record.getD 8 0] := slice_one (by omega)
  rw [record_eq_flatten, ← slices_eq_iff hl (recordFields_widths _ rfl)]
  unfold decodeLifecycleChallenge
  rw [bind_unit_ok, require_ok]
  simp only [bind_ok, lifecyclePurposeOf_ok, new_iff,
    lifecycleIdAt_ok (show 9 + 32 ≤ record.length by omega),
    lifecycleIdAt_ok (show 41 + 32 ≤ record.length by omega),
    lifecycleIdAt_ok (show 73 + 32 ≤ record.length by omega), Bool.and_eq_true, beq_iff_eq,
    slices, recordWidths, recordFields, List.cons.injEq, and_true, hpu, Nat.zero_add,
    Nat.reduceAdd]
  constructor
  · rintro ⟨⟨⟨⟨⟨hma, hcli⟩, hsrv⟩, hclientPid⟩, hserverPid⟩, purpose, hby, installationId,
      hin, attemptId, hatt, channel, hc, rfl, rfl, rfl, rfl⟩
    exact ⟨hma, hby, hin, hatt, hc, hcli, hsrv, hclientPid, hserverPid⟩
  · rintro ⟨hma, hby, hin, hatt, hc, hcli, hsrv, hclientPid, hserverPid⟩
    exact ⟨⟨⟨⟨⟨hma, hcli⟩, hsrv⟩, hclientPid⟩, hserverPid⟩, _, hby, _, hin, _,
      hatt, _, hc, rfl, rfl, rfl, rfl⟩

end Keld.Ipc
