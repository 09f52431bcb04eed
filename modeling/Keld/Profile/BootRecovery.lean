/-
# `Keld.Profile.BootRecovery` — what a session writes, and what that leaves

A session of a sound disk writes its plan: what recovery owes the record that it
found (`recover`), and then the four records of a clean run.  The equations here
turn `begin_lifecycle`'s loop and the session into that list of writes, so that a
crash leaves a prefix of it (`writeAll_run`).
-/
import Keld.Profile.Lifecycle
import Mathlib.Data.List.Basic

namespace Keld.Profile

open List ProfileLifecycleRecord ProfileProcessIdentity Proc

/-! ## Sound records -/

/-- What a boot-scoped record on disk looks like. -/
structure ProfileLifecycleRecord.Sound (r : ProfileLifecycleRecord) : Prop where
  boot : ∃ boot, r.recovery = .bootScoped boot
  owner : r.owner.isSome = true ↔ r.phase ≠ .idle

theorem BootIdentity.fromHex_encode (boot : BootIdentity) :
    fromHex (encodeLowerHex boot.bytes) = .ok boot := by
  have hde := decodeLowerHex_encodeLowerHex boot.length
  unfold fromHex
  split
  case h_1 hn =>
    rw [hde] at hn
    cases hn
  case h_2 bytes hby =>
    rw [hde] at hby
    cases hby
    exact dif_neg boot.nonzero

theorem decodeOwner_toDocument (owner : Option ProfileProcessIdentity) :
    decodeOwner (owner.map toDocument) = .ok owner := by
  cases owner with
  | none => rfl
  | some owner =>
    have hobs : fromHostObservation owner.pid owner.processBirth = .ok owner := by
      refine dif_neg ?_
      rintro (hpid | hbi)
      · exact owner.pid_ne hpid
      · exact owner.processBirth_ne hbi
    show Except.mapError _ (Except.map some (fromHostObservation owner.pid owner.processBirth)) = _
    rw [hobs]
    rfl

/-- A sound record reads back as what was written. -/
theorem fromBootScopedRecord_toRecord {r : ProfileLifecycleRecord} (h : r.Sound) :
    fromBootScopedRecord r.toRecord = .ok r := by
  obtain ⟨⟨boot, hbo⟩, ho⟩ := h
  obtain ⟨phase, recovery, owner⟩ := r
  cases hbo
  have hr : readDocument (toRecord ⟨phase, .bootScoped boot, owner⟩) =
      .ok ⟨phase, .bootScoped boot, owner⟩ := by
    show (do
      let owner ← decodeOwner (owner.map toDocument)
      if (1 : UInt8) = 1 then do
        let boot ← BootIdentity.fromHex (encodeLowerHex boot.bytes)
        return (⟨phase, .bootScoped boot, owner⟩ : ProfileLifecycleRecord)
      else .error .invalidRecord) = _
    rw [decodeOwner_toDocument, BootIdentity.fromHex_encode]
    rfl
  have hfr : fromRecord (toRecord ⟨phase, .bootScoped boot, owner⟩) =
      .ok ⟨phase, .bootScoped boot, owner⟩ := by
    rw [fromRecord, hr]
    exact if_pos ho
  rw [fromBootScopedRecord, hfr]
  rfl

/-- What the durable file says. -/
def ProfileDisk.record (disk : ProfileDisk) : Option ProfileLifecycleRecord :=
  disk.lifecycle.bind fun document => (fromBootScopedRecord document).toOption

/-- The file holds the last record written, and every record was sound. -/
structure ProfileDisk.Sound (disk : ProfileDisk) : Prop where
  last : disk.lifecycle = disk.writes.getLast?.map toRecord
  sound : ∀ r ∈ disk.writes, r.Sound

theorem ProfileDisk.Sound.record {disk : ProfileDisk} (h : disk.Sound) :
    disk.record = disk.writes.getLast? := by
  unfold ProfileDisk.record
  rw [h.last]
  cases hl : disk.writes.getLast? with
  | none => rfl
  | some r =>
    show (fromBootScopedRecord r.toRecord).toOption = some r
    rw [fromBootScopedRecord_toRecord (h.sound r (mem_of_getLast? hl))]
    rfl

/-! ## Plans -/

namespace ProfileLifecycleRecord

def started (r : ProfileLifecycleRecord) (process : ProfileProcessIdentity) :
    ProfileLifecycleRecord := { r with phase := .starting, owner := some process }

def quarantined (r : ProfileLifecycleRecord) : ProfileLifecycleRecord :=
  { r with phase := .quarantined }

/-- The records of a clean run from an idle record. -/
def cleanRun (r : ProfileLifecycleRecord) (process : ProfileProcessIdentity) :
    List ProfileLifecycleRecord :=
  [r.started process, { r.started process with phase := .running },
    { r.started process with phase := .stopping }, { r with phase := .idle, owner := none }]

end ProfileLifecycleRecord

/-- What is written about a dead predecessor, and the idle record to start from, if any. -/
def recover (stored : Option ProfileLifecycleRecord) (boot : BootIdentity) :
    List ProfileLifecycleRecord × Option ProfileLifecycleRecord :=
  match stored with
  | none => ([], some (.idle boot))
  | some r =>
    let cleared : List ProfileLifecycleRecord × Option ProfileLifecycleRecord :=
      if r.recovery = .bootScoped boot then ([], none) else ([.idle boot], some (.idle boot))
    match r.phase with
    | .idle => ([], some r)
    | .quarantined => cleared
    | .starting | .running | .stopping => (r.quarantined :: cleared.1, cleared.2)

/-- All that a session may write. -/
def plan (stored : Option ProfileLifecycleRecord) (boot : BootIdentity)
    (process : ProfileProcessIdentity) : List ProfileLifecycleRecord :=
  (recover stored boot).1 ++ (recover stored boot).2.elim [] (·.cleanRun process)

theorem length_recover (stored : Option ProfileLifecycleRecord) (boot : BootIdentity) :
    (recover stored boot).1.length ≤ 2 := by
  unfold recover
  split
  · exact Nat.zero_le _
  · dsimp only
    split
    · exact Nat.zero_le _
    all_goals
      split_ifs
      all_goals simp

/-! ## Writing a list of records -/

def ProfileDisk.puts (disk : ProfileDisk) (records : List ProfileLifecycleRecord) : ProfileDisk :=
  records.foldl ProfileDisk.put disk

theorem ProfileDisk.puts_writes (disk : ProfileDisk) (records : List ProfileLifecycleRecord) :
    (disk.puts records).writes = disk.writes ++ records := by
  induction records generalizing disk with
  | nil => exact (append_nil _).symm
  | cons r records ih =>
    show ((disk.put r).puts records).writes = _
    rw [ih, ProfileDisk.put, append_assoc]
    rfl

theorem ProfileDisk.puts_append (disk : ProfileDisk) (front back : List ProfileLifecycleRecord) :
    disk.puts (front ++ back) = (disk.puts front).puts back := foldl_append

def writeAll : List ProfileLifecycleRecord → ProfileTask ProfileDisk Unit
  | [] => pure ()
  | r :: records => do
    writeLifecycle r
    writeAll records

theorem writeAll_append (front back : List ProfileLifecycleRecord) :
    writeAll (front ++ back) = (do
      writeAll front
      writeAll back) := by
  induction front with
  | nil => rfl
  | cons r front ih =>
    rw [cons_append, writeAll, writeAll, ih, bind_assoc]

/-- The script says how far it gets. -/
theorem writeAll_run (records : List ProfileLifecycleRecord) (disk : ProfileDisk)
    (script : List (Entry Empty Unit)) :
    writeAll records ⟨disk, script⟩ =
      if records.length ≤ script.length then
        (.ok (), ⟨disk.puts records, script.drop records.length⟩)
      else (.error .cut, ⟨disk.puts (records.take script.length), []⟩) := by
  induction records generalizing disk script with
  | nil => rfl
  | cons r records ih =>
    cases script with
    | nil => rfl
    | cons entry script =>
      cases entry with
      | other h => exact h.elim
      | answer u =>
        have hs : writeAll (r :: records) ⟨disk, .answer u :: script⟩ =
            writeAll records ⟨disk.put r, script⟩ := rfl
        rw [hs, ih, length_cons, length_cons]
        simp only [Nat.add_le_add_iff_right]
        rfl

/-! ## The turns of `begin_lifecycle` -/

section Turns

variable {r : ProfileLifecycleRecord} {boot : BootIdentity} {process : ProfileProcessIdentity}

theorem turn_idle (hr : r.Sound) (hph : r.phase = .idle) :
    beginLifecycleTurn boot process r = (do
      writeLifecycle (r.started process)
      return .inr (r.started process)) := by
  obtain ⟨recorded, hre⟩ := hr.boot
  have ho : r.owner = none := by
    rw [← Option.not_isSome_iff_eq_none]
    exact fun hs => hr.owner.mp hs hph
  have hn : nextLifecycleAction r .dead boot = .ok .beginStartup := by
    rw [nextLifecycleAction, hre, hph, ho]
    rfl
  have hbe : r.beginStartup process = .ok (r.started process) := by
    refine if_neg ?_
    rw [hph, ho]
    decide
  rw [beginLifecycleTurn, hn]
  rw [hbe]
  rfl

theorem turn_live (hr : r.Sound) (hph : r.phase ≠ .idle) (hph' : r.phase ≠ .quarantined) :
    beginLifecycleTurn boot process r = (do
      writeLifecycle r.quarantined
      return .inl r.quarantined) := by
  obtain ⟨recorded, hre⟩ := hr.boot
  have ho : r.owner.isSome = true := hr.owner.mpr hph
  have hn : nextLifecycleAction r .dead boot = .ok .writeQuarantined := by
    rw [nextLifecycleAction, hre]
    cases hp : r.phase with
    | idle => exact absurd hp hph
    | quarantined => exact absurd hp hph'
    | starting | running | stopping => exact ite_self _
  have hqu : r.quarantine = .ok r.quarantined := by
    rw [quarantine]
    cases hp : r.phase with
    | idle => exact absurd hp hph
    | quarantined => exact absurd hp hph'
    | starting | running | stopping => exact if_pos ho
  rw [beginLifecycleTurn, hn]
  rw [hqu]
  rfl

/-- Another boot has come since: the quarantine is over. -/
theorem turn_restore (hr : r.Sound) (hph : r.phase = .quarantined)
    (hbo : r.recovery ≠ .bootScoped boot) :
    beginLifecycleTurn boot process r = (do
      writeLifecycle (.idle boot)
      return .inl (.idle boot)) := by
  obtain ⟨recorded, hrecd⟩ := hr.boot
  have ho : r.owner.isSome = true := by
    rw [hr.owner, hph]
    exact nofun
  have hne : recorded ≠ boot := fun he => hbo (he ▸ hrecd)
  have hn : nextLifecycleAction r .dead boot = .ok .restoreIdleAfterBoot := by
    rw [nextLifecycleAction, hrecd, hph]
    exact if_pos hne
  have hre : r.restoreIdleAfterBoot boot = .ok (.idle boot) := by
    rw [restoreIdleAfterBoot, hrecd]
    exact if_pos ⟨hph, ho, hne⟩
  rw [beginLifecycleTurn, hn]
  rw [hre]
  rfl

theorem turn_blocked (hph : r.phase = .quarantined) (hbo : r.recovery = .bootScoped boot) :
    beginLifecycleTurn boot process r = Task.throw .lifecycleUnproven := by
  have hn : nextLifecycleAction r .dead boot = .error .lifecycleUnproven := by
    rw [nextLifecycleAction, hbo, hph]
    exact if_neg (fun hne => hne rfl)
  rw [beginLifecycleTurn, hn]
  rfl

end Turns

/-! ## A session follows its plan -/

theorem ProfileLifecycleRecord.sound_idle (boot : BootIdentity) : (idle boot).Sound :=
  ⟨⟨boot, rfl⟩, iff_of_false nofun (fun h => h rfl)⟩

section Following

variable {boot : BootIdentity} {process : ProfileProcessIdentity} {r : ProfileLifecycleRecord}

/-- Startup from an idle record, or none. -/
def startFrom (process : ProfileProcessIdentity) :
    Option ProfileLifecycleRecord → ProfileTask ProfileDisk ProfileLifecycleRecord
  | some r => do
    writeLifecycle (r.started process)
    return r.started process
  | none => Task.throw .lifecycleUnproven

theorem startFrom_some (r : ProfileLifecycleRecord) :
    startFrom process (some r) = (do
      writeAll [r.started process]
      return r.started process) := by
  rw [writeAll, bind_assoc]
  rfl

theorem loop_idle (hr : r.Sound) (hph : r.phase = .idle) (fuel : ℕ) :
    Task.loop (beginLifecycleTurn boot process) (fuel + 1) r = startFrom process (some r) := by
  rw [Task.loop, turn_idle hr hph, bind_assoc]
  rfl

theorem recover_quarantined (hph : r.phase = .quarantined) : recover (some r) boot =
    if r.recovery = .bootScoped boot then ([], none) else ([.idle boot], some (.idle boot)) := by
  rw [recover, hph]

theorem loop_quarantined (hr : r.Sound) (hph : r.phase = .quarantined) (fuel : ℕ) :
    Task.loop (beginLifecycleTurn boot process) (fuel + 2) r = (do
      writeAll (recover (some r) boot).1
      startFrom process (recover (some r) boot).2) := by
  by_cases hbo : r.recovery = .bootScoped boot
  · rw [recover_quarantined hph, if_pos hbo, Task.loop, turn_blocked hph hbo]
    rfl
  · rw [recover_quarantined hph, if_neg hbo, Task.loop, turn_restore hr hph hbo, bind_assoc]
    show (writeLifecycle (.idle boot) >>= fun _ =>
      Task.loop (beginLifecycleTurn boot process) (fuel + 1) (.idle boot)) = _
    rw [loop_idle (sound_idle boot) rfl]
    rw [writeAll, bind_assoc]
    rfl

theorem recover_live (hph : r.phase ≠ .idle) (hph' : r.phase ≠ .quarantined) :
    recover (some r) boot =
      (r.quarantined :: (recover (some r.quarantined) boot).1,
        (recover (some r.quarantined) boot).2) := by
  rw [recover, recover]
  cases hp : r.phase with
  | idle => exact absurd hp hph
  | quarantined => exact absurd hp hph'
  | starting | running | stopping => rfl

/-- From any sound record three turns are enough. -/
theorem loop_begin (hr : r.Sound) (fuel : ℕ) :
    Task.loop (beginLifecycleTurn boot process) (fuel + 3) r = (do
      writeAll (recover (some r) boot).1
      startFrom process (recover (some r) boot).2) := by
  by_cases hph : r.phase = .idle
  · have hre : recover (some r) boot = ([], some r) := by
      rw [recover, hph]
    rw [loop_idle hr hph, hre]
    rfl
  by_cases hph' : r.phase = .quarantined
  · exact loop_quarantined hr hph' (fuel + 1)
  · have hqu : r.quarantined.Sound := ⟨hr.boot, iff_of_true (hr.owner.mpr hph) nofun⟩
    rw [recover_live hph hph', Task.loop, turn_live hr hph hph', bind_assoc]
    show (writeLifecycle r.quarantined >>= fun _ =>
      Task.loop (beginLifecycleTurn boot process) (fuel + 2) r.quarantined) = _
    rw [loop_quarantined hqu rfl, writeAll, bind_assoc]

variable {disk : ProfileDisk}

theorem beginLifecycle_run (hd : disk.Sound) (fuel : ℕ) (script : List (Entry Empty Unit)) :
    beginLifecycle (fuel + 3) boot process ⟨disk, script⟩ = (do
      writeAll (recover disk.record boot).1
      startFrom process (recover disk.record boot).2) ⟨disk, script⟩ := by
  rw [hd.record]
  cases hl : disk.writes.getLast? with
  | none =>
    have hre : disk.lifecycle = none := by
      rw [hd.last, hl]
      rfl
    show (storedLifecycle boot disk.lifecycle >>= _) ⟨disk, script⟩ = _
    rw [hre]
    show Task.loop (beginLifecycleTurn boot process) (fuel + 3) _ ⟨disk, script⟩ = _
    rw [loop_idle (sound_idle boot) rfl]
    rfl
  | some r =>
    have hr : r.Sound := hd.sound r (mem_of_getLast? hl)
    have hre : disk.lifecycle = some r.toRecord := by
      rw [hd.last, hl]
      rfl
    rw [← loop_begin hr fuel]
    show (storedLifecycle boot disk.lifecycle >>= _) ⟨disk, script⟩ = _
    rw [hre]
    show (ofExcept (fromBootScopedRecord r.toRecord) >>= _) _ = _
    rw [fromBootScopedRecord_toRecord hr]
    rfl

/-- The rest of a session that has started is the rest of a clean run. -/
theorem startFrom_session (r : ProfileLifecycleRecord) :
    (do
      let lifecycle ← startFrom process (some r)
      let lifecycle ← advanceLifecycle lifecycle .running
      let lifecycle ← advanceLifecycle lifecycle .stopping
      let _ ← advanceLifecycle lifecycle .idle
      return ()) = writeAll (r.cleanRun process) := by
  have hru : (r.started process).advance .running =
      .ok { r.started process with phase := .running } := rfl
  have hs : advance { r.started process with phase := .running }
      .stopping = .ok { r.started process with phase := .stopping } := rfl
  have hi : advance { r.started process with phase := .stopping }
      .idle = .ok { r with phase := .idle, owner := none } := rfl
  simp only [startFrom, advanceLifecycle, cleanRun, writeAll,
    bind_assoc, pure_bind, hru, hs, hi, ofExcept]

/-- A session writes its plan, as far as its script lasts. -/
theorem session_state (hd : disk.Sound) (fuel : ℕ) (script : List (Entry Empty Unit)) :
    (session (fuel + 3) boot process ⟨disk, script⟩).2.state =
      disk.puts ((plan disk.record boot process).take script.length) := by
  have hw : ∀ records, (writeAll records ⟨disk, script⟩).2.state =
      disk.puts (records.take script.length) := by
    intro records
    rw [writeAll_run]
    split_ifs with hl
    · rw [take_of_length_le hl]
    · rfl
  rw [session, bind_congr_run (beginLifecycle_run hd fuel script), bind_assoc, plan]
  cases hre : (recover disk.record boot).2 with
  | some r =>
    rw [startFrom_session, ← writeAll_append]
    exact hw _
  | none =>
    rw [Option.elim_none, append_nil, ← hw]
    rcases hr : writeAll (recover disk.record boot).1 ⟨disk, script⟩ with ⟨e | u, w⟩
    · rw [bind_run_error hr]
    · rw [bind_run_ok hr]
      rfl

end Following

end Keld.Profile
