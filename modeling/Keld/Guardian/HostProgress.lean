/-
# `Keld.Guardian.HostProgress` — the worker never waits for nothing

Every turn of the worker's loop takes an answer, and so does every turn of the
wait for the acknowledgment.  With more fuel than there are answers the worker
therefore returns, or fails, or has used the script up.
-/
import Keld.Guardian.Host

namespace Keld.Guardian

open Keld.Runtime Keld.Task

variable {bound : ℕ}

theorem takes_goOn : Takes bound goOn 0 :=
  (takes_ask _).weaken le_rfl (Nat.zero_le _) |>.andThen (fun _ => takes_pure _)

theorem takes_call : Takes bound call 0 :=
  (takes_ask _).weaken le_rfl (Nat.zero_le _) |>.andThen (fun _ => takes_pure _)

theorem takes_expired : Takes bound expired 0 :=
  (takes_ask _).weaken le_rfl (Nat.zero_le _) |>.andThen (fun _ => takes_pure _)

theorem takes_pollControl : Takes bound pollControl 1 := (takes_ask _).bind (fun _ => takes_pure _)

theorem takes_note (e : HostEvent) : Takes bound (note e) 0 := by
  unfold note
  exact takes_modify _

theorem takes_setWorker (f : Worker → Worker) : Takes bound (setWorker f) 0 := by
  unfold setWorker
  exact takes_modify _

theorem takes_callOrFail : Takes bound callOrFail 0 := by
  refine takes_call.andThen (fun result => ?_)
  cases result with
  | none => exact takes_pure _
  | some e => exact takes_throw e 0

theorem takes_writeGenerationControl (r : GenerationControlRecord) :
    Takes bound (writeGenerationControl r) 0 :=
  takes_callOrFail.andThen (fun _ => takes_note _)

theorem takes_revokeLease (lease : Lease) (cause : RevocationCause) :
    Takes bound (revokeLease lease cause) 0 := by
  refine takes_call.andThen (fun result => (takes_note _).andThen (fun _ => ?_))
  cases result with
  | none => exact takes_pure _
  | some e => exact takes_throw e 0

theorem takes_childSpawned (lease : Lease) : Takes bound (childSpawned lease) 0 := by
  unfold childSpawned
  split_ifs
  · exact takes_throw _ 0
  · exact (takes_setWorker _).andThen (fun _ => takes_callOrFail)

theorem takes_terminateAttestedGroup (n : ℕ) : Takes bound (terminateAttestedGroup n) 0 :=
  takes_call.andThen (fun _ => (takes_note _).andThen (fun _ => takes_pure _))

theorem takes_awaitAcknowledgment (primary : RuntimeError) (u : Unit) :
    Takes bound (awaitAcknowledgment primary u) 1 := by
  have hask : Takes bound goOn 1 := (takes_ask _).bind (fun _ => takes_pure _)
  refine (hask.bind (n := 0) (fun _ => takes_get.andThen (fun s => ?_)))
  split_ifs
  · exact takes_throw _ 0
  · exact takes_pure _
  · refine takes_expired.andThen (fun late => ?_)
    split_ifs
    · exact takes_throw _ 0
    · exact takes_pure _

theorem takes_revokeAbandoned (primary : RuntimeError) (w : Worker) :
    Takes bound (revokeAbandoned primary w) 0 := by
  unfold revokeAbandoned
  cases w.lease with
  | none => exact takes_pure _
  | some lease =>
    refine (takes_setWorker _).andThen (fun _ => ?_)
    cases w.currentAttempt with
    | none => exact takes_throw _ 0
    | some attempt =>
      refine (takes_setWorker _).andThen (fun _ => ?_)
      split_ifs
      · exact takes_throw _ 0
      · refine takes_goOn.andThen (fun _ => (takes_modify _).andThen (fun _ =>
          (takes_revokeLease lease .shutdown).attempt.andThen (fun result => ?_)))
        cases result with
        | ok => exact takes_pure _
        | error cleanup => exact takes_throw _ 0

variable {fuel : ℕ}

theorem takes_finishGenerationControlEof (hfu : bound ≤ fuel) (primary : RuntimeError) (k : ℕ) :
    Takes bound (finishGenerationControlEof fuel primary k) 0 := by
  refine (takes_note _).andThen (fun _ => takes_goOn.andThen (fun _ =>
    takes_get.andThen (fun s => ?_)))
  by_cases ho : k ≠ 0 ∨ s.current.isSome = true
  · rw [if_pos ho]
    exact takes_throw _ 0
  rw [if_neg ho]
  refine (takes_revokeAbandoned primary _).andThen (fun _ => takes_get.andThen (fun t => ?_))
  split_ifs
  · exact takes_throw _ 0
  · exact Takes.loop (takes_awaitAcknowledgment primary) hfu ()

theorem takes_endOfStream (hfu : bound ≤ fuel) (primary : RuntimeError) (k : ℕ) :
    Takes bound (endOfStream fuel primary k) 0 := by
  refine (takes_finishGenerationControlEof hfu primary k).attempt.andThen (fun result =>
    takes_callOrFail.andThen (fun _ => ?_))
  cases result with
  | ok => exact takes_pure _
  | error e => exact takes_throw e 0

theorem takes_onPrepare (r : GenerationControlRecord) (e : ℕ) : Takes bound (onPrepare r e) 0 := by
  refine takes_goOn.andThen (fun _ => takes_get.andThen (fun s => ?_))
  dsimp only
  split_ifs
  · exact takes_throw _ 0
  refine takes_goOn.andThen (fun _ => takes_get.andThen (fun t => ?_))
  split_ifs
  · exact (takes_setWorker _).andThen (fun _ => takes_setWorker _)
  · exact takes_setWorker _

theorem takes_takeCustody (attempt pid : ℕ) : Takes bound (takeCustody attempt pid) 0 := by
  refine takes_goOn.andThen (fun _ => (takes_modify _).andThen (fun _ =>
    (takes_terminateAttestedGroup attempt).andThen (fun native => ?_)))
  split_ifs
  · exact (takes_modify _).andThen (fun _ => (takes_modify _).andThen (fun _ => takes_pure _))
  · exact (takes_modify _).andThen (fun _ => takes_pure _)

theorem takes_refuseSpawn (attempt pid : ℕ) : Takes bound (refuseSpawn attempt pid) 0 := by
  have he : ∀ native (result : Except RuntimeError Unit), Takes bound
      (match native, result with
        | some cleanup, .ok _ => throw cleanup
        | some cleanup, .error other => throw (collapseFailures [cleanup, other])
        | none, .error other => throw other
        | none, .ok _ => (throw refusedPostShutdownSpawn : HostTask Unit)) 0 := by
    rintro (- | cleanup) (other | -)
    all_goals exact takes_throw _ 0
  refine (takes_takeCustody attempt pid).andThen (fun native => takes_get.andThen (fun s =>
    (takes_setWorker _).andThen (fun _ => ?_)))
  cases s.worker.lease with
  | none => exact (takes_pure _).andThen (he native)
  | some lease => exact (takes_revokeLease lease .shutdown).attempt.andThen (he native)

theorem takes_onSpawned (r : GenerationControlRecord) (e : ℕ) : Takes bound (onSpawned r e) 0 := by
  refine takes_goOn.andThen (fun _ => takes_get.andThen (fun s => ?_))
  split_ifs
  · exact takes_throw _ 0
  refine takes_goOn.andThen (fun _ => (takes_modify _).andThen (fun _ =>
    takes_get.andThen (fun t => ?_)))
  by_cases hle : t.worker.lease.isNone = true
  · rw [if_pos hle]
    exact takes_throw _ 0
  rw [if_neg hle]
  refine takes_callOrFail.andThen (fun _ => ?_)
  by_cases hden : t.recovery.denied = true
  · rw [if_pos hden]
    exact takes_refuseSpawn r.attempt r.pid
  rw [if_neg hden]
  cases t.worker.lease with
  | none => exact (takes_throw _ 0).andThen (fun _ => takes_goOn.andThen (fun _ =>
    (takes_modify _).andThen (fun _ => takes_callOrFail.andThen (fun _ =>
      (takes_writeGenerationControl _).andThen (fun _ => takes_modify _)))))
  | some lease => exact (takes_childSpawned lease).andThen (fun _ => takes_goOn.andThen (fun _ =>
    (takes_modify _).andThen (fun _ => takes_callOrFail.andThen (fun _ =>
      (takes_writeGenerationControl _).andThen (fun _ => takes_modify _)))))

theorem takes_onRevoke (r : GenerationControlRecord) (e : ℕ) : Takes bound (onRevoke r e) 0 := by
  refine takes_get.andThen (fun s => ?_)
  split_ifs
  · exact takes_throw _ 0
  cases decodeRevocationCause r.cause with
  | error err => exact takes_throw err 0
  | ok cause =>
    cases s.worker.lease with
    | none => exact takes_throw _ 0
    | some lease => exact (takes_setWorker _).andThen (fun _ => takes_goOn.andThen (fun _ =>
      (takes_modify _).andThen (fun _ => (takes_revokeLease lease cause).andThen (fun _ =>
        (takes_setWorker _).andThen (fun _ => takes_callOrFail.andThen (fun _ =>
          takes_writeGenerationControl _))))))

theorem takes_releaseGroup (current : Option Registered) : Takes bound (releaseGroup current) 0 := by
  cases current with
  | none => exact takes_pure _
  | some g =>
    refine (takes_terminateAttestedGroup g.attempt).andThen (fun result => ?_)
    cases result with
    | none => exact takes_modify _
    | some e => exact takes_throw e 0

theorem takes_onClear (r : GenerationControlRecord) (e : ℕ) : Takes bound (onClear r e) 0 := by
  refine takes_goOn.andThen (fun _ => (takes_modify _).andThen (fun _ =>
    takes_get.andThen (fun s => ?_)))
  dsimp only
  split_ifs
  · exact takes_throw _ 0
  refine (takes_releaseGroup _).andThen (fun _ => (takes_modify _).andThen (fun _ =>
    (takes_writeGenerationControl _).andThen (fun _ => (takes_setWorker _).andThen (fun _ =>
      takes_goOn.andThen (fun _ => takes_get.andThen (fun t => ?_))))))
  cases t.recovery.cleared r.attempt with
  | none => exact takes_throw _ 0
  | some recovery => exact takes_modify _

theorem takes_onRecord (r : GenerationControlRecord) (e : ℕ) : Takes bound (onRecord r e) 0 := by
  refine takes_get.andThen (fun s => ?_)
  split_ifs
  · exact takes_throw _ 0
  · exact takes_onPrepare r e
  · exact takes_onSpawned r e
  · exact takes_onRevoke r e
  · exact takes_onClear r e
  · exact takes_throw _ 0

theorem takes_checkInitialRecoveryDecision (s : HostState) :
    Takes bound (checkInitialRecoveryDecision s) 0 := by
  unfold checkInitialRecoveryDecision
  split_ifs
  · exact takes_pure _
  · exact takes_throw _ 0
  · refine takes_expired.andThen (fun late => ?_)
    split_ifs
    · exact takes_throw _ 0
    · exact takes_pure _

theorem takes_provisionPending (hfu : bound ≤ fuel) (pending : GenerationControlRecord)
    (appLink : ℕ → List UInt8) :
    Takes bound (provisionPending fuel pending appLink) 0 := by
  refine takes_goOn.andThen (fun _ => (takes_modify _).andThen (fun _ =>
    takes_get.andThen (fun s => (takes_checkInitialRecoveryDecision s).andThen (fun _ => ?_))))
  split_ifs
  · exact takes_throw _ 0
  · exact (takes_modify _).andThen (fun _ => takes_pure _)
  refine (takes_modify _).andThen (fun _ => takes_callOrFail.andThen (fun _ =>
    (takes_note _).andThen (fun _ => (takes_modify _).andThen (fun _ =>
      (takes_setWorker _).andThen (fun _ => takes_callOrFail.andThen (fun _ =>
        (takes_writeGenerationControl _).attempt.andThen (fun result => ?_)))))))
  cases result with
  | ok => exact takes_pure _
  | error e =>
    dsimp only
    split_ifs
    · exact takes_endOfStream hfu e 0
    · exact takes_throw e 0

theorem takes_checkFirstRecord (first : Bool) : Takes bound (checkFirstRecord first) 0 := by
  cases first with
  | false => exact takes_pure _
  | true =>
    refine takes_expired.andThen (fun late => ?_)
    cases late with
    | true => exact takes_throw _ 0
    | false => exact takes_pure _

theorem takes_pollLease (lease : Option Lease) : Takes bound (pollLease lease) 0 := by
  cases lease with
  | none => exact takes_pure _
  | some lease => exact takes_callOrFail

/-- A turn takes at least the answer to its poll of the stream. -/
theorem takes_hostTurn (hfu : bound ≤ fuel) (appLink : ℕ → List UInt8) (u : Unit) :
    Takes bound (hostTurn fuel appLink u) 1 := by
  refine takes_get.andThen (fun s => (takes_pollLease _).andThen (fun _ =>
    takes_callOrFail.andThen (fun _ => (takes_checkFirstRecord _).andThen (fun _ => ?_))))
  refine takes_pollControl.bind (n := 0) (fun read => ?_)
  cases read with
  | closed filled => exact takes_endOfStream hfu _ filled
  | failed e => exact takes_throw e 0
  | quiet filled =>
    refine (takes_checkFirstRecord _).andThen (fun _ => ?_)
    split_ifs
    · exact takes_pure _
    · cases s.worker.pendingPrepare with
      | none => exact takes_pure _
      | some pending => exact takes_provisionPending hfu pending appLink
  | record r =>
    refine (takes_note _).andThen (fun _ => (takes_checkFirstRecord _).andThen (fun _ =>
      (takes_setWorker _).andThen (fun _ => takes_goOn.andThen (fun _ => takes_get.andThen
        (fun t => (takes_onRecord r _).andThen (fun _ => takes_get.andThen (fun t => ?_)))))))
    cases t.worker.pendingPrepare with
    | none => exact takes_pure _
    | some pending => exact takes_provisionPending hfu pending appLink

theorem takes_runGenerationHost (hfu : bound ≤ fuel) (appLink : ℕ → List UInt8) :
    Takes bound (runGenerationHost appLink fuel) 0 :=
  Takes.loop (takes_hostTurn hfu appLink) hfu ()

end Keld.Guardian
