/-
# `Keld.Profile.RegistryPurge` — a purge run, from any state a crash left

Where a purge record is durable a purge run finds its way to the end from every
phase of the record and the intent.  Where none is, it begins with a complete
binding or is refused; a refusal may leave profile directories behind.
-/
import Keld.Profile.RegistryBinding

namespace Keld.Profile

open Keld.Task Shape

/-! ## The planner on a shape -/

section Planner

variable {I U : Type} [DecidableEq I] [DecidableEq U] {b : StoreBinding I U} {sh : Shape}

theorem nextPurgeAction_bound (h : sh.intent = none) (hb : sh.Bound) (store : Option Bool) :
    nextPurgeAction b (sh.snapshot b (observationOf b store)) =
      .ok (.writePurgeIntent ⟨b, .purging .prepared⟩) := by
  obtain ⟨hfwd, hr, ha, -⟩ := hb
  unfold nextPurgeAction snapshot
  simp only [recordMatches_recordOf, storeMatches_observationOf, h, hfwd, hr, ha]
  rfl

theorem nextPurgeAction_purging {phase : PurgePhase} (h : sh.intent = some (.purging phase))
    (store : Option Bool) :
    nextPurgeAction b (sh.snapshot b (observationOf b store)) =
      purgePhaseAction b sh.forward sh.reverse sh.active store phase := by
  unfold nextPurgeAction snapshot
  simp only [recordMatches_recordOf, storeMatches_observationOf, h, Option.map_some]
  exact if_neg (fun hne => hne rfl)

end Planner

/-! ## Purging shapes -/

namespace Shape

/-- Under way, with its intent and its record. -/
structure Purges (sh : Shape) (phase : PurgePhase) (record : ProfilePurgePhase) : Prop where
  intent : sh.intent = some (.purging phase)
  purge : sh.purge = some record
  identityDir : sh.identityDir = .marked
  uuidDir : sh.uuidDir = .marked
  law : sh.PurgingLaw record phase

/-- The data is gone and the intent is cleared. -/
structure Purged (sh : Shape) : Prop where
  intent : sh.intent = none
  identityDir : sh.identityDir = .marked
  unbound : sh.Unbound

/-- What is left of a purge; `store` is what is known of it. -/
def purgeRank (sh : Shape) (phase : PurgePhase) (store : Option Bool) : ℕ :=
  (if store = none then 1 else 0) +
    match phase with
    | .prepared => 20
    | .storeRemovalAuthorized => if sh.store then 18 else 14
    | .storeAbsent => if sh.reverse then 12 else 10
    | .reverseRemoved => if sh.forward then 8 else 6
    | .forwardRemoved => if sh.active then 4 else 2
    | .inactive => 0

variable {phase : PurgePhase} {record : ProfilePurgePhase}

theorem purgeRank_le {sh : Shape} {store : Option Bool} : sh.purgeRank phase store ≤ 21 := by
  unfold purgeRank
  repeat' split
  all_goals decide

section

variable {sh : Shape} (h : sh.Purges phase record)
include h

theorem Purges.lawful : sh.Lawful where
  forward_marked := fun _ => h.identityDir
  active_marked := fun _ => h.identityDir
  reverse_marked := fun _ => h.uuidDir
  phases := by
    rw [h.intent, h.purge]
    exact ⟨h.identityDir, h.uuidDir, h.law⟩

/-- Without the store the record may say so. -/
theorem Purges.removed (hs : sh.store = false) : sh.PurgingLaw .dataRemoved phase := by
  have hlaw := h.law
  cases phase with
  | prepared => exact absurd (hlaw.1.2.2.2.symm.trans hs) (by decide)
  | storeRemovalAuthorized => exact ⟨hlaw.1, hlaw.2.1, hlaw.2.2.1, .inr ⟨rfl, hs⟩⟩
  | storeAbsent | reverseRemoved | forwardRemoved => exact ⟨hlaw.1, hlaw.2.1, hlaw.2.2.1, rfl⟩
  | inactive => exact ⟨hlaw.1, rfl⟩

theorem Purges.record_cases : record = .prepared ∨ record = .dataRemoved := by
  have hlaw := h.law
  cases phase with
  | prepared => exact .inl hlaw.2
  | storeRemovalAuthorized => exact hlaw.2.2.2.imp id And.left
  | storeAbsent | reverseRemoved | forwardRemoved => exact .inr hlaw.2.2.2
  | inactive => exact .inr hlaw.2

end

/-- A purged shape whatever its record says, once the data is gone. -/
theorem Purged.lawful {sh : Shape} (h : sh.Purged)
    (hpu : sh.purge ≠ some .prepared) : sh.Lawful where
  forward_marked := fun _ => h.identityDir
  active_marked := fun _ => h.identityDir
  reverse_marked := fun hr => absurd (hr.symm.trans h.unbound.2.1) (by decide)
  phases := by
    rw [h.intent]
    rcases hp : sh.purge with _ | _ | _ | _
    · exact .inl h.unbound
    · exact absurd hp hpu
    · exact ⟨h.unbound, h.identityDir⟩
    · exact ⟨h.unbound, h.identityDir⟩

theorem settle_eq_self {sh : Shape} (hid : sh.identityDir = .marked)
    (huu : sh.uuidDir = .marked) : sh.settle = sh := by
  obtain ⟨intent, purge, identityDir, uuidDir, forward, reverse, active, store⟩ := sh
  cases hid
  cases huu
  rfl

end Shape

section Purging

variable {I U : Type} [DecidableEq I] [DecidableEq U] {b : StoreBinding I U} {sh : Shape}
  {P : Prop} {cs : List (StoreChange × RegistryDisk I U)}

/-- The purge record of the binding's profile. -/
def purgeRecordOf (b : StoreBinding I U) (phase : ProfilePurgePhase) : ProfilePurgeRecord I :=
  ⟨b.identity, .macos, phase⟩

/-- A snapshot with both directories marked changes nothing. -/
theorem marked_snapshot {α : Type} {k : RegistrySnapshot I U → RegistryTask I U α} {n : ℕ}
    {Q : α → Registry I U → Prop} {F : ProfileErrorKind → Registry I U → Prop} (h : sh.Lawful)
    (hcs : Logged b sh.store cs) (hid : sh.identityDir = .marked)
    (huu : sh.uuidDir = .marked) (store : StoreObservation U)
    (hk : Task.Within P n (k (sh.snapshot b store)) Q F (Safe b) (sh.on b cs)) :
    Task.Within P (4 + n) (registrySnapshot b store >>= k) Q F (Safe b) (sh.on b cs) := by
  refine within_call (registrySnapshot_spec h hcs store) ?_ ?_ le_rfl
  · rintro snapshot r ⟨rfl, rfl, -⟩
    rw [settle_eq_self hid huu]
    exact hk
  · rintro e r ⟨-, hb | hb, -⟩
    · exact absurd (hid.symm.trans hb) (by decide)
    · exact absurd (huu.symm.trans hb) (by decide)

omit [DecidableEq I] [DecidableEq U] in
theorem advancePurgeRecord_spec {F : ProfileErrorKind → Registry I U → Prop}
    {phase next : ProfilePurgePhase} (h : sh.Lawful) (hcs : Logged b sh.store cs)
    (hn : (phase, next) = (.prepared, .dataRemoved) ∨ (phase, next) = (.dataRemoved, .completed)) :
    Task.Within P 1 (advancePurgeRecord (purgeRecordOf b phase) next)
      (fun record r => record = purgeRecordOf b next ∧
        r = { sh with purge := some next }.on b cs) F (Safe b) (sh.on b cs) := by
  have had : (purgeRecordOf b phase).advance next = .ok (purgeRecordOf b next) := by
    rcases hn with hn | hn <;> cases hn <;> exact rfl
  exact within_ofExcept_ok had (within_then (n := 0) (durable_spec h hcs
    (by exact rfl)) (fun _ r hr => within_pure ⟨rfl, hr⟩) (Nat.le_refl 1))

/-- A turn of `resume_purge_actions`, at the given rank. -/
def PurgesAt (b : StoreBinding I U) (rank : ℕ) (l : StoreObservation U × ProfilePurgeRecord I)
    (r : Registry I U) : Prop :=
  ∃ sh : Shape, ∃ cs, r = sh.on b cs ∧ Logged b sh.store cs ∧
    ∃ phase record store, sh.Purges phase record ∧ (store = none ∨ store = some sh.store) ∧
      l = (observationOf b store, purgeRecordOf b record) ∧ sh.purgeRank phase store = rank

/-- The intent is cleared and the record says that the data is gone. -/
def ClearedAt (b : StoreBinding I U) (record : ProfilePurgeRecord I) (r : Registry I U) : Prop :=
  ∃ sh : Shape, ∃ cs, r = sh.on b cs ∧ Logged b sh.store cs ∧ sh.Purged ∧
    sh.purge = some .dataRemoved ∧ record = purgeRecordOf b .dataRemoved

/-- What a completed purge leaves. -/
def PurgeDone (b : StoreBinding I U) (r : Registry I U) : Prop :=
  ∃ sh : Shape, ∃ cs, r = sh.on b cs ∧ Logged b sh.store cs ∧ sh.Purged ∧
    sh.purge = none ∧ sh.uuidDir = .absent

variable {rank : ℕ} {l : StoreObservation U × ProfilePurgeRecord I} {r : Registry I U}

omit [DecidableEq I] [DecidableEq U] in
theorem PurgesAt.safe (h : PurgesAt b rank l r) : Safe b r := by
  obtain ⟨sh, cs, rfl, hcs, phase, record, store, hpu, -⟩ := h
  exact hpu.lawful.safe hcs

omit [DecidableEq I] in
/-- A store seen absent is recorded as removed before anything else. -/
theorem recordRemovedStoreIfNeeded_spec {F : ProfileErrorKind → Registry I U → Prop}
    {phase : PurgePhase} {record : ProfilePurgePhase} {store : Option Bool}
    (h : sh.Purges phase record) (hcs : Logged b sh.store cs)
    (hk : store = none ∨ store = some sh.store) :
    Task.Within P 1 (recordRemovedStoreIfNeeded (observationOf b store) (purgeRecordOf b record))
      (fun record' r => ∃ sh' : Shape, ∃ q, r = sh'.on b cs ∧ record' = purgeRecordOf b q ∧
        sh'.Purges phase q ∧ sh' = { sh with purge := some q } ∧
        (store = some false → q = .dataRemoved)) F (Safe b) (sh.on b cs) := by
  by_cases hg : store = some false ∧ record = .prepared
  · obtain ⟨rfl, rfl⟩ := hg
    have hs : sh.store = false := by
      rcases hk with hk | hk
      · exact nomatch hk
      · exact (Option.some.inj hk).symm
    have hlaw : sh.PurgingLaw .dataRemoved phase := h.removed hs
    have hr : recordRemovedStoreIfNeeded (observationOf b (some false))
        (purgeRecordOf b .prepared) = advancePurgeRecord (purgeRecordOf b .prepared) .dataRemoved :=
      if_pos ⟨rfl, rfl⟩
    rw [hr]
    refine within_mono (advancePurgeRecord_spec h.lawful hcs (.inl rfl)) (Nat.le_refl 1) ?_
      (fun _ _ h => h) (fun _ h => h)
    rintro record' r ⟨rfl, rfl⟩
    exact ⟨_, _, rfl, rfl, ⟨h.intent, rfl, h.identityDir, h.uuidDir, hlaw⟩, rfl, fun _ => rfl⟩
  · have hr : recordRemovedStoreIfNeeded (observationOf b store) (purgeRecordOf b record) =
        pure (purgeRecordOf b record) := by
      refine if_neg fun hbo => hg ⟨?_, hbo.2⟩
      rcases store with _ | _ | _
      · exact nomatch hbo.1
      · rfl
      · exact nomatch hbo.1
    rw [hr]
    refine within_pure ⟨sh, record, rfl, rfl, h, ?_, ?_⟩
    · obtain ⟨intent, purge, identityDir, uuidDir, forward, reverse, active, here⟩ := sh
      cases h.purge
      rfl
    · intro hfa
      rcases h.record_cases with hpr | hre
      · exact absurd ⟨hfa, hpr⟩ hg
      · exact hre

omit [DecidableEq I] [DecidableEq U] in
/-- A turn that changes the registry and knows of the store what there is goes on below. -/
theorem within_goesOn {F : ProfileErrorKind → Registry I U → Prop} {x : RegistryTask I U Unit}
    {next : Shape} {phase : PurgePhase} {record : ProfilePurgePhase}
    (hx : Task.Within P 1 x (fun _ r => r = next.on b cs) F (Safe b) (sh.on b cs))
    (hcs : Logged b next.store cs) (hpu : next.Purges phase record) {store : Bool}
    (hs : next.store = store) (hra : next.purgeRank phase (some store) < rank) :
    Task.Within P 1 (do x; return .inl (observationOf b (some store), purgeRecordOf b record))
      (Task.Next (fun l' r' => ∃ rank' < rank, PurgesAt b rank' l' r')
        (fun record r' => ClearedAt b record r')) F (Safe b) (sh.on b cs) := by
  refine within_then (n := 0) hx ?_ (Nat.le_refl 1)
  rintro _ r rfl
  exact within_pure ⟨_, hra, next, cs, rfl, hcs, phase, record, _, hpu,
    .inr (congrArg some hs.symm), rfl, rfl⟩

theorem resumePurgeTurn_spec (h : PurgesAt b rank l r) :
    Task.Within P 6 (resumePurgeTurn b l)
      (Task.Next (fun l' r' => ∃ rank' < rank, PurgesAt b rank' l' r')
        (fun record r' => ClearedAt b record r'))
      (fun _ _ => False) (Safe b) r := by
  obtain ⟨sh, cs, rfl, hcs, phase, record, store, hpu, hk, rfl, rfl⟩ := h
  refine within_then (n := 5) (recordRemovedStoreIfNeeded_spec hpu hcs hk) ?_ (Nat.le_refl 6)
  rintro record' r ⟨sh', q, rfl, rfl, hpu', he, hre⟩
  have hra : sh.purgeRank phase store = sh'.purgeRank phase store := by
    rw [he]
    rfl
  have hk' : store = none ∨ store = some sh'.store := by
    rw [he]
    exact hk
  replace hcs : Logged b sh'.store cs := by
    rw [he]
    exact hcs
  rw [hra]
  have hi := hpu'.intent
  have hp := hpu'.purge
  have hid := hpu'.identityDir
  have huu := hpu'.uuidDir
  have hlaw := hpu'.law
  have hla := hpu'.lawful
  refine marked_snapshot (n := 1) hla hcs hid huu _ ?_
  have ha := nextPurgeAction_purging (b := b) hi store
  rcases hk' with rfl | rfl
  · -- every phase looks at the store before it goes on
    have hen : purgePhaseAction b sh'.forward sh'.reverse sh'.active none phase =
        .ok .enumerateStores := by
      cases phase <;> simp_all [purgePhaseAction, Shape.PurgingLaw, Shape.Bound, Shape.Unbound,
        byStore, absentStorePurgeAction]
    rw [hen] at ha
    refine within_ofExcept_ok ha (within_readDisk (within_pure ⟨_, ?_, sh', cs, rfl, hcs,
      phase, q, some sh'.store, hpu', .inr rfl, ?_, rfl⟩))
    · unfold purgeRank
      simp
    · show (if sh'.store = true then _ else _, _) = _
      cases sh'.store <;> exact rfl
  have had (phase : PurgePhase) :=
    advanceIntent_spec (P := P) (F := fun _ _ => False) hla hcs hi (.purging phase)
  cases phase with
  | prepared =>
    obtain ⟨⟨hfwd, hr, hac, hs⟩, hq⟩ := hlaw
    rw [hfwd, hr, hac, hs] at ha
    rw [hs]
    refine within_ofExcept_ok ha ?_
    refine within_goesOn (had .storeRemovalAuthorized) hcs
      ⟨rfl, hp, hid, huu, hfwd, hr, hac, .inl hq⟩ hs ?_
    simp [purgeRank, hs]
  | storeRemovalAuthorized =>
    obtain ⟨hfwd, hr, hac, hq⟩ := hlaw
    rw [hfwd, hr, hac] at ha
    cases hs : sh'.store with
    | true =>
      rw [hs] at ha
      have hpr : ProperChange b (.removed, sh'.disk b) :=
        ⟨by show (sh'.purge.map _).isSome = true; rw [hp]; exact rfl,
          congrArg (Option.map _) hi, hs⟩
      refine within_ofExcept_ok ha (within_then (n := 0)
        (changeStore_spec hla hcs hpr) ?_ (by decide))
      rintro _ r ⟨cs', hcs', rfl⟩
      have hq : q = .prepared := by
        rcases hq with hq | ⟨-, hg⟩
        · exact hq
        · exact absurd (hs.symm.trans hg) (by decide)
      refine within_pure ⟨15, ?_, _, cs', rfl, hcs', .storeRemovalAuthorized, q, none,
        ⟨hi, hp, hid, huu, hfwd, hr, hac, .inl hq⟩, .inl rfl,
        rfl, rfl⟩
      simp [purgeRank, hs]
    | false =>
      have hq : q = .dataRemoved := hre (congrArg some hs)
      rw [hs] at ha
      refine within_ofExcept_ok ha ?_
      refine within_goesOn (had .storeAbsent) hcs ⟨rfl, hp, hid, huu, hfwd, hac, hs, hq⟩ hs ?_
      simp [purgeRank, hs, hr]
  | storeAbsent =>
    obtain ⟨hfwd, hac, hs, hq⟩ := hlaw
    rw [hfwd, hac, hs] at ha
    rw [hs]
    cases hr : sh'.reverse with
    | true =>
      rw [hr] at ha
      refine within_ofExcept_ok ha ?_
      refine within_goesOn (removeReverse_spec hla hcs hr)
        hcs ⟨hi, hp, hid, huu, hfwd, hac, hs, hq⟩ hs ?_
      simp [purgeRank, hr]
    | false =>
      rw [hr] at ha
      refine within_ofExcept_ok ha ?_
      refine within_goesOn (had .reverseRemoved) hcs ⟨rfl, hp, hid, huu, hr, hac, hs, hq⟩ hs ?_
      simp [purgeRank, hr, hfwd]
  | reverseRemoved =>
    obtain ⟨hr, hac, hs, hq⟩ := hlaw
    rw [hr, hac, hs] at ha
    rw [hs]
    cases hfwd : sh'.forward with
    | true =>
      rw [hfwd] at ha
      refine within_ofExcept_ok ha ?_
      refine within_goesOn (removeForward_spec hla hcs hfwd)
        hcs ⟨hi, hp, hid, huu, hr, hac, hs, hq⟩ hs ?_
      simp [purgeRank, hfwd]
    | false =>
      rw [hfwd] at ha
      refine within_ofExcept_ok ha ?_
      refine within_goesOn (had .forwardRemoved) hcs ⟨rfl, hp, hid, huu, hfwd, hr, hs, hq⟩ hs ?_
      simp [purgeRank, hfwd, hac]
  | forwardRemoved =>
    obtain ⟨hfwd, hr, hs, hq⟩ := hlaw
    rw [hfwd, hr, hs] at ha
    rw [hs]
    cases hac : sh'.active with
    | true =>
      rw [hac] at ha
      refine within_ofExcept_ok ha ?_
      refine within_goesOn (clearActiveStatus_spec hla hcs hac)
        hcs ⟨hi, hp, hid, huu, hfwd, hr, hs, hq⟩ hs ?_
      simp [purgeRank, hac]
    | false =>
      rw [hac] at ha
      refine within_ofExcept_ok ha ?_
      refine within_goesOn (had .inactive) hcs ⟨rfl, hp, hid, huu, ⟨hfwd, hr, hac, hs⟩, hq⟩ hs ?_
      simp [purgeRank, hac]
  | inactive =>
    obtain ⟨hun, rfl⟩ := hlaw
    obtain ⟨hfwd, hr, hac, hs⟩ := id hun
    rw [hfwd, hr, hac, hs] at ha
    rw [hs]
    refine within_ofExcept_ok ha (within_then (n := 0) (clearIntent_spec hla hcs hi) ?_ (by decide))
    rintro _ r rfl
    exact within_pure ⟨_, cs, rfl, hcs, ⟨rfl, hid, hun⟩, hp, rfl⟩

/-! ## The end of a purge -/

variable {F : ProfileErrorKind → Registry I U → Prop}

omit [DecidableEq I] [DecidableEq U] in
/-- The marker first, then the directory; both cuts leave a purged shape. -/
theorem removeReverseDirectory_spec (h : sh.Purged) (hcs : Logged b sh.store cs)
    (hp : sh.purge = some .dataRemoved ∨ sh.purge = some .completed) :
    Task.Within P 2 removeReverseDirectory
      (fun _ r => r = { sh with uuidDir := .absent }.on b cs) F (Safe b) (sh.on b cs) := by
  have hr := h.unbound.2.1
  have hpr : sh.purge ≠ some .prepared := by
    rcases hp with hp | hp <;> rw [hp] <;> decide
  refine within_readDisk ?_
  have hd : (sh.on b cs).disk.uuidDir = dirOf b false false sh.uuidDir := by
    show dirOf b sh.reverse false sh.uuidDir = _
    rw [hr]
  rw [hd]
  cases huu : sh.uuidDir with
  | absent =>
    refine within_pure ?_
    rw [← huu]
  | bare =>
    show Task.Within P 2 (if (none : Option (ProfileMarker I)).isSome = true then _ else _) _ _ _ _
    rw [if_neg nofun]
    rw [if_pos ⟨rfl, rfl⟩]
    exact within_mono (durable_spec (h.lawful hpr) hcs (by exact rfl))
      (by decide) (fun _ _ h => h) (fun _ _ h => h) (fun _ h => h)
  | marked =>
    let bare : Shape := { sh with uuidDir := .bare }
    have hb : bare.Purged := ⟨h.intent, h.identityDir, h.unbound⟩
    have hs : (sh.disk b).setDir .uuid (some ⟨none, none, none⟩) = bare.disk b := by
      simp only [RegistryDisk.setDir, disk, bare, dirOf, hr]
      rfl
    show Task.Within P 2 (if (some (markerOf b)).isSome = true then _ else _) _ _ _ _
    rw [if_pos (show (some (markerOf b)).isSome = true from rfl)]
    refine within_then (n := 1) (durable_spec (h.lawful hpr) hcs hs) ?_ (Nat.le_refl 2)
    rintro _ r rfl
    rw [if_pos ⟨rfl, rfl⟩]
    exact durable_spec (hb.lawful hpr) hcs (by exact rfl)

variable {phase : ProfilePurgePhase}

omit [DecidableEq I] [DecidableEq U] in
theorem removePurgeRecord_spec (h : sh.Lawful) (hcs : Logged b sh.store cs)
    (hp : sh.purge = some phase) :
    Task.Within P 1 removePurgeRecord
      (fun _ r => r = { sh with purge := none }.on b cs) F (Safe b) (sh.on b cs) := by
  refine within_readDisk ?_
  have hd : (sh.on b cs).disk.purge = some (purgeRecordOf b phase) := congrArg (Option.map _) hp
  rw [hd]
  dsimp only [removeFileIfExists]
  exact durable_spec h hcs (by exact rfl)

omit [DecidableEq I] [DecidableEq U] in
theorem finishPurge_spec {record : ProfilePurgeRecord I} {r : Registry I U}
    (h : ClearedAt b record r) :
    Task.Within P 4 (finishPurge record) (fun _ r => PurgeDone b r) F (Safe b) r := by
  obtain ⟨sh, cs, rfl, hcs, hpur, hp, rfl⟩ := h
  refine within_then (n := 2) (removeReverseDirectory_spec hpur hcs (.inl hp)) ?_ (Nat.le_refl 4)
  rintro _ r rfl
  have hpur' : { sh with uuidDir := .absent }.Purged :=
    ⟨hpur.intent, hpur.identityDir, hpur.unbound⟩
  have hpr : sh.purge ≠ some .prepared := by
    rw [hp]
    decide
  rw [if_pos nofun]
  refine within_then (n := 1)
    (advancePurgeRecord_spec (hpur'.lawful hpr) hcs (.inr rfl)) ?_ (Nat.le_refl 2)
  rintro record r ⟨-, rfl⟩
  have hco : { sh with uuidDir := .absent, purge := some .completed }.Purged :=
    ⟨hpur.intent, hpur.identityDir, hpur.unbound⟩
  refine within_mono (removePurgeRecord_spec (hco.lawful nofun) hcs rfl)
    (Nat.le_refl 1) ?_ (fun _ _ h => h) (fun _ h => h)
  rintro _ r rfl
  exact ⟨_, cs, rfl, hcs, ⟨hpur.intent, hpur.identityDir, hpur.unbound⟩, rfl, rfl⟩

omit [DecidableEq I] [DecidableEq U] in
/-- The last two steps of a purge that found its intent cleared. -/
theorem tidyUp_spec (h : sh.Purged) (hcs : Logged b sh.store cs) (hp : sh.purge = some .completed) :
    Task.Within P 3 (removeReverseDirectory >>= fun _ => removePurgeRecord >>= fun _ => pure true)
      (fun done r => done = true ∧ PurgeDone b r) F (Safe b) (sh.on b cs) := by
  refine within_then (n := 1) (removeReverseDirectory_spec h hcs (.inr hp)) ?_ (Nat.le_refl 3)
  rintro _ r rfl
  have hpur : { sh with uuidDir := .absent }.Purged := ⟨h.intent, h.identityDir, h.unbound⟩
  have hpr : sh.purge ≠ some .prepared := by
    rw [hp]
    decide
  refine within_then (n := 0) (removePurgeRecord_spec (hpur.lawful hpr) hcs hp) ?_ (Nat.le_refl 1)
  rintro _ r rfl
  exact within_pure ⟨rfl, _, cs, rfl, hcs, ⟨h.intent, h.identityDir, h.unbound⟩, rfl, rfl⟩

/-- With the intent cleared and the data gone a run only has to tidy up. -/
theorem resumePurge_purged (h : sh.Purged) (hcs : Logged b sh.store cs)
    (hp : sh.purge = some phase) (hph : phase ≠ .prepared) :
    Task.Within P 4 (resumePurgeAfterClearedIntent b (purgeRecordOf b phase))
      (fun done r => done = true ∧ PurgeDone b r) F (Safe b) (sh.on b cs) := by
  have hlaw : sh.Lawful := h.lawful (by rw [hp]; exact fun h => hph (Option.some.inj h))
  have hi : (sh.disk b).intent = none := congrArg (Option.map _) h.intent
  obtain ⟨hfwd, hr, ha, hs⟩ := h.unbound
  have hfwd : (sh.disk b).forward = none := by
    rw [hlaw.forward_eq, hfwd]
    rfl
  have hr : (sh.disk b).reverse = none := by
    rw [hlaw.reverse_eq, hr]
    rfl
  have ha : (sh.disk b).active = none := by
    rw [hlaw.active_eq, ha]
    rfl
  refine within_readDisk ?_
  show Task.Within P 4 (if (sh.disk b).intent.isSome = true then _ else
    if (sh.disk b).forward ≠ none ∨ (sh.disk b).reverse ≠ none ∨ (sh.disk b).active ≠ none then _
    else if phase = .prepared then _ else if sh.store = true then _ else _) _ _ _ _
  rw [hi, hfwd, hr, ha, hs, if_neg nofun,
    if_neg (by rintro (h | h | h) <;> exact h rfl), if_neg hph, if_neg nofun]
  cases phase with
  | prepared => exact absurd rfl hph
  | dataRemoved =>
    show Task.Within P 4 (if (purgeRecordOf b .dataRemoved).phase = .dataRemoved then _ else _)
      _ _ _ _
    rw [if_pos (show (purgeRecordOf b .dataRemoved).phase = .dataRemoved from rfl)]
    refine within_then (n := 3) (advancePurgeRecord_spec hlaw hcs (.inr rfl)) ?_ (Nat.le_refl 4)
    rintro record r ⟨-, rfl⟩
    exact tidyUp_spec ⟨h.intent, h.identityDir, h.unbound⟩ hcs rfl
  | completed =>
    show Task.Within P 4 (if (purgeRecordOf b .completed).phase = .dataRemoved then _ else _)
      _ _ _ _
    rw [if_neg nofun]
    exact within_mono (tidyUp_spec h hcs hp) (by decide) (fun _ _ h => h)
      (fun _ _ h => h) (fun _ h => h)

/-- With the purge recorded and nothing else the intent is written again. -/
theorem resumePurge_bound (h : sh.Lawful) (hcs : Logged b sh.store cs)
    (hi : sh.intent = none) (hb : sh.Bound) :
    Task.Within P 5 (resumePurgeAfterClearedIntent b (purgeRecordOf b .prepared))
      (fun done r => done = false ∧ r = { sh with intent := some (.purging .prepared) }.on b cs)
      F (Safe b) (sh.on b cs) := by
  have hd : (sh.disk b).intent = none := congrArg (Option.map _) hi
  have hfwd : (sh.disk b).forward ≠ none := by
    rw [h.forward_eq, hb.1]
    exact nofun
  refine within_readDisk ?_
  show Task.Within P 5 (if (sh.disk b).intent.isSome = true then _ else
    if (sh.disk b).forward ≠ none ∨ (sh.disk b).reverse ≠ none ∨ (sh.disk b).active ≠ none then _
    else _) _ _ _ _
  rw [hd, if_neg nofun, if_pos (.inl hfwd)]
  refine marked_snapshot (n := 1) h hcs (h.forward_marked hb.1) (h.reverse_marked hb.2.1) _ ?_
  refine within_ofExcept_ok (nextPurgeAction_bound hi hb none) (within_then (n := 0)
    (writeIntent_spec h hcs hi _) ?_ (Nat.le_refl 1))
  rintro _ r rfl
  exact within_pure ⟨rfl, rfl⟩

/-- The loop of a purge and what follows it. -/
theorem purgeLoop_spec {phase : PurgePhase} {record : ProfilePurgePhase}
    (h : sh.Purges phase record) (hcs : Logged b sh.store cs) (fuel : ℕ) :
    Task.Within (22 ≤ fuel) 136
      (loop (resumePurgeTurn b) fuel (.unknown, purgeRecordOf b record) >>= finishPurge)
      (fun _ r => PurgeDone b r) (fun _ _ => False) (Safe b) (sh.on b cs) := by
  have hra : sh.purgeRank phase none ≤ 21 := purgeRank_le
  refine within_then (m := 132) (n := 4) (R := ClearedAt b) ?_
    (fun record r hclr => finishPurge_spec hclr) le_rfl
  exact within_mono (within_loop (PurgesAt b) (fun _ _ _ h => resumePurgeTurn_spec h)
    (fun _ _ _ h => h.safe) (fun hfu => Nat.lt_of_le_of_lt hra hfu)
    ⟨sh, cs, rfl, hcs, phase, record, none, h, .inl rfl, rfl, rfl⟩)
    (Nat.mul_le_mul_left 6 (Nat.succ_le_succ hra)) (fun _ _ h => h) (fun _ _ h => h)
    (fun _ h => h)

omit [DecidableEq U] in
theorem readOrCreatePurgeRecord_spec (h : sh.Lawful) (hcs : Logged b sh.store cs)
    (hs : sh.purge ≠ none ∨ sh.intent = none ∧ sh.Bound) :
    Task.Within P 1 (readOrCreatePurgeRecord b.identity)
      (fun record r => ∃ sh' : Shape, ∃ q, r = sh'.on b cs ∧ record = purgeRecordOf b q ∧
        Logged b sh'.store cs ∧ sh'.Lawful ∧ sh'.purge = some q) F (Safe b) (sh.on b cs) := by
  refine within_then (m := 0) (n := 1) readPurgeRecord_spec ?_ (Nat.le_refl 1)
  rintro record r ⟨rfl, rfl⟩
  cases hp : sh.purge with
  | some q => exact within_pure ⟨sh, q, rfl, rfl, hcs, h, hp⟩
  | none =>
    rcases hs with hs | ⟨hi, hb⟩
    · exact absurd hp hs
    · have hlaw : { sh with purge := some .prepared }.Lawful :=
        ⟨h.forward_marked, h.active_marked, h.reverse_marked, by rw [hi]; exact hb⟩
      have hd : (sh.on b cs).disk.purge = none := congrArg (Option.map _) hp
      have hst : ({ sh.disk b with purge := some ⟨b.identity, .macos, .prepared⟩ } :
          RegistryDisk I U) = { sh with purge := some .prepared }.disk b := rfl
      refine within_readDisk ?_
      rw [hd]
      dsimp only [writeNewRecord]
      refine within_then (n := 0) (durable_spec h hcs hst) ?_ (Nat.le_refl 1)
      rintro _ r rfl
      exact within_pure ⟨_, _, rfl, rfl, hcs, hlaw, rfl⟩

/-- A purge that has its record, or begins with a complete binding, ends if it is not cut. -/
theorem resumePurge_spec (h : sh.Lawful) (hcs : Logged b sh.store cs)
    (hs : sh.purge ≠ none ∨ sh.intent = none ∧ sh.Bound) (fuel : ℕ) :
    Task.Within (22 ≤ fuel) 142 (resumePurge fuel b) (fun _ r => PurgeDone b r) (fun _ _ => False)
      (Safe b) (sh.on b cs) := by
  refine within_then (n := 141) (readOrCreatePurgeRecord_spec h hcs hs) ?_ (Nat.le_refl 142)
  rintro _ r ⟨sh', q, rfl, rfl, hcs, h', hp⟩
  have hphs := h'.phases
  rw [hp] at hphs
  rcases hi : sh'.intent with _ | phase | phase
  · rw [hi] at hphs
    by_cases hq : q = .prepared
    · subst hq
      have hb : sh'.Bound := hphs
      refine within_then (n := 136) (resumePurge_bound h' hcs hi hb) ?_ (Nat.le_refl 141)
      rintro _ r ⟨rfl, rfl⟩
      have hpu : { sh' with intent := some (.purging .prepared) }.Purges .prepared .prepared :=
        ⟨rfl, hp, h'.forward_marked hb.1, h'.reverse_marked hb.2.1, hb, rfl⟩
      exact purgeLoop_spec hpu hcs fuel
    · have hpur : sh'.Purged := by
        cases q with
        | prepared => exact absurd rfl hq
        | dataRemoved | completed => exact ⟨hi, hphs.2, hphs.1⟩
      refine within_then (n := 0) (resumePurge_purged hpur hcs hp hq) ?_ (by decide)
      rintro _ r ⟨rfl, hd⟩
      exact within_pure hd
  · rw [hi] at hphs
    exact hphs.elim
  · rw [hi] at hphs
    refine within_then (m := 0) (n := 136) (R := fun done r => done = false ∧ r = sh'.on b cs) ?_ ?_
      (by decide)
    · refine within_readDisk ?_
      have hdi : (sh'.on b cs).disk.intent.isSome = true := by
        show (sh'.intent.map _).isSome = true
        rw [hi]
        rfl
      rw [if_pos hdi]
      exact within_pure ⟨rfl, rfl⟩
    · rintro _ r ⟨rfl, rfl⟩
      exact purgeLoop_spec ⟨hi, hp, hphs.1, hphs.2.1, hphs.2.2⟩ hcs fuel

/-! ## The run -/

/-- A complete binding is found complete; where nothing is bound the check is refused, and may
have created the directories it looked into. -/
theorem requireActiveBinding_spec (h : sh.Lawful) (hcs : Logged b sh.store cs)
    (hlaw : sh.Bound ∨ sh.Unbound ∧ sh.purge = none) :
    Task.Within P 4 (requireActiveBinding b) (fun _ r => r = sh.on b cs ∧ sh.Bound)
      (fun _ r => Safe b r ∧ sh.purge = none) (Safe b) (sh.on b cs) := by
  have hun : sh.identityDir = .bare ∨ sh.uuidDir = .bare → sh.purge = none := by
    rcases hlaw with hb | ⟨-, hp⟩
    · rintro (hba | hba)
      · exact absurd ((h.forward_marked hb.1).symm.trans hba) (by decide)
      · exact absurd ((h.reverse_marked hb.2.1).symm.trans hba) (by decide)
    · exact fun _ => hp
  refine within_call (n := 2) (ensureProfileDirectory_spec h hcs .identity false) ?_ ?_
    (Nat.le_refl 4)
  · rintro _ r ⟨rfl, -⟩
    have h₁ := h.marked .identity
    refine within_call (n := 0) (ensureProfileDirectory_spec h₁ hcs .uuid false) ?_ ?_
      (Nat.le_refl 2)
    · rintro _ r ⟨rfl, -⟩
      have h₂ := h₁.marked .uuid
      refine within_readDisk ?_
      show Task.Within P 0 (if (((sh.setDir .identity .marked).setDir .uuid .marked).disk b).forward =
        some b ∧ (((sh.setDir .identity .marked).setDir .uuid .marked).disk b).reverse = some b ∧
        (((sh.setDir .identity .marked).setDir .uuid .marked).disk b).active = some b then _ else _)
        _ _ _ _
      rw [h₂.forward_eq, h₂.reverse_eq, h₂.active_eq]
      show Task.Within P 0 (if recordOf b sh.forward = some b ∧ recordOf b sh.reverse = some b ∧
        recordOf b sh.active = some b then _ else _) _ _ _ _
      rcases hlaw with hb | ⟨hub, hp⟩
      · rw [hb.1, hb.2.1, hb.2.2.1, if_pos ⟨rfl, rfl, rfl⟩]
        refine within_pure ⟨?_, hb⟩
        have hid : sh.setDir .identity .marked = sh := setDir_self (h.forward_marked hb.1)
        have huu : sh.setDir .uuid .marked = sh := setDir_self (h.reverse_marked hb.2.1)
        rw [hid, huu]
      · rw [hub.1, if_neg (fun h => nomatch h.1)]
        exact within_throw ⟨h₂.safe hcs, hp⟩
    · rintro e r ⟨rfl, hba, -⟩
      exact ⟨h₁.safe hcs, hun (.inr hba)⟩
  · rintro e r ⟨rfl, hba, -⟩
    exact ⟨h.safe hcs, hun (.inl hba)⟩

/-- A purge is authorized by its record, or by a complete binding; a refusal may leave
directories. -/
theorem validatePurgeAuthority_spec (h : sh.Lawful) (hcs : Logged b sh.store cs) :
    Task.Within P 4 (validatePurgeAuthority b)
      (fun _ r => r = sh.on b cs ∧ (sh.purge ≠ none ∨ sh.intent = none ∧ sh.Bound))
      (fun _ r => Safe b r ∧ sh.purge = none) (Safe b) (sh.on b cs) := by
  refine within_then (m := 0) (n := 4) readPurgeRecord_spec ?_ (Nat.le_refl 4)
  rintro record r ⟨rfl, rfl⟩
  refine within_readDisk ?_
  have hphs := h.phases
  have hd : (sh.on b cs).disk.intent = sh.intent.map fun phase => ⟨b, phase⟩ := rfl
  rw [hd]
  rcases hi : sh.intent with _ | phase | phase
  · rw [hi] at hphs
    rcases hp : sh.purge with _ | _ | _ | _
    · rw [hp] at hphs
      exact within_mono (requireActiveBinding_spec h hcs (hphs.symm.imp id fun hun => ⟨hun, hp⟩))
        (Nat.le_refl 4) (fun _ r hr => ⟨hr.1, .inr ⟨rfl, hr.2⟩⟩) (fun _ r hr => ⟨hr.1, rfl⟩)
        (fun _ h => h)
    · rw [hp] at hphs
      exact within_mono (requireActiveBinding_spec h hcs (.inl hphs)) (Nat.le_refl 4)
        (fun _ r hr => ⟨hr.1, .inr ⟨rfl, hr.2⟩⟩) (fun _ r hr => nomatch hp.symm.trans hr.2)
        (fun _ h => h)
    · exact within_pure ⟨rfl, .inl nofun⟩
    · exact within_pure ⟨rfl, .inl nofun⟩
  · rw [hi] at hphs
    have hp : sh.purge = none := by
      cases hp : sh.purge with
      | none => rfl
      | some q =>
        rw [hp] at hphs
        exact hphs.elim
    show Task.Within P 4 (if (b : StoreBinding I U) ≠ b then _ else _) _ _ _ _
    rw [if_neg (fun h => h rfl)]
    exact within_throw ⟨h.safe hcs, hp⟩
  · rw [hi] at hphs
    have hp : ∃ q, sh.purge = some q := by
      cases hp : sh.purge with
      | some q => exact ⟨q, rfl⟩
      | none =>
        rw [hp] at hphs
        exact hphs.elim
    obtain ⟨q, hp⟩ := hp
    show Task.Within P 4 (if (b : StoreBinding I U) ≠ b then _ else _) _ _ _ _
    rw [if_neg (fun h => h rfl)]
    rw [hp, Option.map_some, if_pos Option.isSome_some]
    exact within_pure ⟨rfl, .inl nofun⟩

theorem purgeRun_spec (h : sh.Lawful) (hcs : Logged b sh.store cs) (fuel : ℕ) :
    Task.Within (22 ≤ fuel) 146 (purgeRun fuel b) (fun _ r => PurgeDone b r)
      (fun _ r => Safe b r ∧ sh.purge = none) (Safe b) (sh.on b cs) := by
  refine within_then (n := 142) (validatePurgeAuthority_spec h hcs) ?_ (Nat.le_refl 146)
  rintro _ r ⟨rfl, hs⟩
  exact within_mono (resumePurge_spec h hcs hs fuel) (Nat.le_refl 142) (fun _ _ h => h)
    (fun _ _ h => h.elim) (fun _ h => h)

omit [DecidableEq I] [DecidableEq U] in
theorem PurgeDone.safe {r : Registry I U} (h : PurgeDone b r) : Safe b r := by
  obtain ⟨sh, cs, rfl, hcs, hpur, hp, -⟩ := h
  exact (hpur.lawful (by rw [hp]; exact nofun)).safe hcs

theorem purgeRun_safe (h : sh.Lawful) (hcs : Logged b sh.store cs) (fuel : ℕ) :
    wp (purgeRun fuel b) (fun _ => Safe b) (fun _ => Safe b) (Safe b) (sh.on b cs) :=
  wp_mono (purgeRun_spec h hcs fuel).wp (fun _ _ h => h.safe) (fun _ _ h => h.1) (fun _ h => h)

end Purging

end Keld.Profile
