/-
# `Keld.Profile.RegistryLaw` — which durable states a profile registry can be in

For one binding everything on disk is either missing or the binding's own, so a
state is told by a `Shape`: the two phases, how far each directory has come, and
which records and the store are there.  `Shape.Lawful` says what goes together;
it is the invariant of every step of every run.  The second half is the rules
for the steps the runs share, over shapes.
-/
import Keld.Lib.Trace
import Keld.Profile.RegistryRuns

namespace Keld.Profile

open List

/-! ## Shapes -/

inductive DirState where
  | absent
  /-- Without its owner marker. -/
  | bare
  | marked
deriving DecidableEq

structure Shape where
  intent : Option RegistryIntentPhase := none
  purge : Option ProfilePurgePhase := none
  identityDir : DirState := .absent
  uuidDir : DirState := .absent
  forward : Bool := false
  reverse : Bool := false
  active : Bool := false
  store : Bool := false
deriving DecidableEq

/-- The binding's record where there is one. -/
def recordOf {α : Type} (b : α) (here : Bool) : Option α := if here then some b else none

section Disk

variable {I U : Type}

def markerOf (b : StoreBinding I U) : ProfileMarker I := ⟨b.identity, .macos, .metadata⟩

def dirOf (b : StoreBinding I U) (direction active : Bool) : DirState → Option (ProfileDirectory I U)
  | .absent => none
  | .bare => some ⟨none, recordOf b direction, recordOf b active⟩
  | .marked => some ⟨some (markerOf b), recordOf b direction, recordOf b active⟩

/-- The durable state of a shape. -/
def Shape.disk (b : StoreBinding I U) (sh : Shape) : RegistryDisk I U where
  intent := sh.intent.map fun phase => ⟨b, phase⟩
  purge := sh.purge.map fun phase => ⟨b.identity, .macos, phase⟩
  identityDir := dirOf b sh.forward sh.active sh.identityDir
  uuidDir := dirOf b sh.reverse false sh.uuidDir
  store := sh.store

end Disk

namespace Shape

def dirState (sh : Shape) : Side → DirState
  | .identity => sh.identityDir
  | .uuid => sh.uuidDir

def setDir (sh : Shape) (side : Side) (state : DirState) : Shape :=
  match side with
  | .identity => { sh with identityDir := state }
  | .uuid => { sh with uuidDir := state }

/-- Nothing is bound. -/
def Unbound (sh : Shape) : Prop :=
  sh.forward = false ∧ sh.reverse = false ∧ sh.active = false ∧ sh.store = false

/-- Everything is there. -/
def Bound (sh : Shape) : Prop :=
  sh.forward = true ∧ sh.reverse = true ∧ sh.active = true ∧ sh.store = true

/-- What a binding has in each phase. -/
def BindingLaw (sh : Shape) : BindingPhase → Prop
  | .prepared => sh.forward = false ∧ sh.active = false ∧ sh.store = false
  | .reverseWritten => sh.reverse = true ∧ sh.active = false ∧ sh.store = false
  | .forwardWritten =>
    sh.reverse = true ∧ sh.forward = true ∧ sh.active = false ∧ sh.store = false
  | .storeCreationAuthorized => sh.reverse = true ∧ sh.forward = true ∧ sh.active = false
  | .storeVerified => sh.reverse = true ∧ sh.forward = true ∧ sh.store = true

/-- What a purge has in each phase of its intent and its record. -/
def PurgingLaw (sh : Shape) (record : ProfilePurgePhase) : PurgePhase → Prop
  | .prepared => sh.Bound ∧ record = .prepared
  | .storeRemovalAuthorized =>
    sh.forward = true ∧ sh.reverse = true ∧ sh.active = true ∧
      (record = .prepared ∨ record = .dataRemoved ∧ sh.store = false)
  | .storeAbsent =>
    sh.forward = true ∧ sh.active = true ∧ sh.store = false ∧ record = .dataRemoved
  | .reverseRemoved =>
    sh.reverse = false ∧ sh.active = true ∧ sh.store = false ∧ record = .dataRemoved
  | .forwardRemoved =>
    sh.forward = false ∧ sh.reverse = false ∧ sh.store = false ∧ record = .dataRemoved
  | .inactive => sh.Unbound ∧ record = .dataRemoved

/-- What the two durable phases say of the rest. -/
def PhaseLaw (sh : Shape) : Option RegistryIntentPhase → Option ProfilePurgePhase → Prop
  | none, none => sh.Unbound ∨ sh.Bound
  | none, some .prepared => sh.Bound
  | none, some _ => sh.Unbound ∧ sh.identityDir = .marked
  | some (.binding phase), none => sh.BindingLaw phase
  | some (.binding _), some _ => False
  | some (.purging _), none => False
  | some (.purging phase), some record =>
    sh.identityDir = .marked ∧ sh.uuidDir = .marked ∧ sh.PurgingLaw record phase

/-- The states the runs of one binding can leave. -/
structure Lawful (sh : Shape) : Prop where
  /-- A directory has its marker before it has a record. -/
  forward_marked : sh.forward = true → sh.identityDir = .marked
  active_marked : sh.active = true → sh.identityDir = .marked
  reverse_marked : sh.reverse = true → sh.uuidDir = .marked
  phases : sh.PhaseLaw sh.intent sh.purge

/-- No document authorizes the directories, and one of them has no marker. -/
def Unfinished (sh : Shape) : Prop :=
  sh.intent = none ∧ sh.purge = none ∧ (sh.identityDir = .bare ∨ sh.uuidDir = .bare)

instance : DecidablePred Unfinished := fun sh => by unfold Unfinished; infer_instance

/-- What a snapshot makes of a directory that has no marker yet. -/
def settleDir (sh : Shape) (side : Side) : Shape :=
  if sh.dirState side = .bare then sh.setDir side .marked else sh

def settle (sh : Shape) : Shape := (sh.settleDir .identity).settleDir .uuid

/-- Whether the intent is that of a binding. -/
def authorized (sh : Shape) : Bool :=
  match sh.intent with
  | some (.binding _) => true
  | _ => false

variable {I U : Type}

/-- The registry in the shape, after the changes. -/
def on (sh : Shape) (b : StoreBinding I U) (changes : List (StoreChange × RegistryDisk I U)) :
    Registry I U := ⟨sh.disk b, changes⟩

/-- What the planner is shown, with an observation of the store. -/
def snapshot (sh : Shape) (b : StoreBinding I U) (store : StoreObservation U) :
    RegistrySnapshot I U :=
  ⟨sh.intent.map fun phase => ⟨b, phase⟩, recordOf b sh.forward, recordOf b sh.reverse, store,
    sh.active⟩

end Shape

/-- The state in which each change of the store is allowed. -/
def ProperChange {I U : Type} (b : StoreBinding I U) : StoreChange × RegistryDisk I U → Prop
  | (.constructed, disk) =>
    disk.forward = some b ∧ disk.reverse = some b ∧ disk.active = none ∧
      disk.intent = some ⟨b, .binding .storeCreationAuthorized⟩ ∧ disk.store = false
  | (.removed, disk) =>
    disk.purge.isSome = true ∧ disk.intent = some ⟨b, .purging .storeRemovalAuthorized⟩ ∧
      disk.store = true

/-- Every change was allowed, and the last one says whether the store is there. -/
structure Logged {I U : Type} (b : StoreBinding I U) (store : Bool)
    (changes : List (StoreChange × RegistryDisk I U)) : Prop where
  proper : ∀ c ∈ changes, ProperChange b c
  last : store = true ↔ (changes.map Prod.fst).getLast? = some .constructed

/-- What a crash leaves. -/
def Safe {I U : Type} (b : StoreBinding I U) (registry : Registry I U) : Prop :=
  ∃ sh : Shape, sh.Lawful ∧ ∃ changes, Logged b sh.store changes ∧
    registry = sh.on b changes

/-! ## What is read -/

section Read

variable {I U : Type} {b : StoreBinding I U} {sh : Shape}

namespace Shape

variable {side : Side}

theorem setDir_self {state : DirState} (h : sh.dirState side = state) :
    sh.setDir side state = sh := by
  cases side <;> cases h <;> rfl

theorem setDir_setDir (side : Side) (state state' : DirState) :
    (sh.setDir side state).setDir side state' = sh.setDir side state' := by
  cases side <;> rfl

theorem setDir_store (side : Side) (state : DirState) : (sh.setDir side state).store = sh.store := by
  cases side <;> rfl

theorem settleDir_store (side : Side) : (sh.settleDir side).store = sh.store := by
  unfold settleDir
  split
  · exact setDir_store side .marked
  · rfl

theorem dirState_setDir (side : Side) (state : DirState) :
    (sh.setDir side state).dirState side = state := by
  cases side <;> rfl

theorem present_dir (h : sh.dirState side ≠ .absent) : ∃ dir, (sh.disk b).dir side = some dir := by
  have hst : ∀ direction active state, state ≠ DirState.absent →
      ∃ dir, dirOf b direction active state = some dir := by
    intro direction active state hne
    cases state with
    | absent => exact absurd rfl hne
    | bare | marked => exact ⟨_, rfl⟩
  cases side with
  | identity | uuid => exact hst _ _ _ h

/-- What a directory without a marker holds, and what becomes of it. -/
theorem Lawful.bare_dir (h : sh.Lawful) (hb : sh.dirState side ≠ .marked) :
    (sh.disk b).dir side = dirOf b false false (sh.dirState side) ∧
      ∀ state, (sh.disk b).setDir side (dirOf b false false state) =
        (sh.setDir side state).disk b := by
  cases side with
  | identity =>
    have hf : sh.forward = false := by
      cases hf : sh.forward with
      | true => exact absurd (h.forward_marked hf) hb
      | false => rfl
    have ha : sh.active = false := by
      cases ha : sh.active with
      | true => exact absurd (h.active_marked ha) hb
      | false => rfl
    simp only [RegistryDisk.dir, RegistryDisk.setDir, disk, setDir, hf, ha]
    exact ⟨rfl, fun _ => trivial⟩
  | uuid =>
    have hr : sh.reverse = false := by
      cases hr : sh.reverse with
      | true => exact absurd (h.reverse_marked hr) hb
      | false => rfl
    simp only [RegistryDisk.dir, RegistryDisk.setDir, disk, setDir, hr]
    exact ⟨rfl, fun _ => trivial⟩

theorem settleDir_uuidDir : (sh.settleDir .identity).dirState .uuid = sh.uuidDir := by
  unfold Shape.settleDir
  split <;> rfl

theorem settle_eq : sh.settle = { sh with
    identityDir := sh.settle.identityDir
    uuidDir := sh.settle.uuidDir } := by
  unfold settle settleDir
  split <;> split <;> rfl

theorem bindingAuthorized_disk [DecidableEq I] [DecidableEq U] :
    bindingAuthorized b (sh.disk b).intent = sh.authorized := by
  obtain ⟨intent, purge, identityDir, uuidDir, forward, reverse, active, store⟩ := sh
  rcases intent with _ | phase | phase
  · rfl
  · exact decide_eq_true rfl
  · rfl

theorem marked_dir (h : sh.dirState side = .marked) :
    ∃ dir, (sh.disk b).dir side = some dir ∧ dir.marker = some (markerOf b) := by
  cases side with
  | identity => exact ⟨_, by rw [RegistryDisk.dir, disk, show sh.identityDir = _ from h, dirOf], rfl⟩
  | uuid => exact ⟨_, by rw [RegistryDisk.dir, disk, show sh.uuidDir = _ from h, dirOf], rfl⟩

section

variable (h : sh.Lawful)
include h

theorem Lawful.forward_eq : (sh.disk b).forward = recordOf b sh.forward := by
  have hd := h.forward_marked
  show (dirOf b sh.forward sh.active sh.identityDir).bind _ = _
  cases hf : sh.forward with
  | true => rw [hd hf, dirOf]; exact rfl
  | false => cases sh.identityDir <;> exact rfl

theorem Lawful.active_eq : (sh.disk b).active = recordOf b sh.active := by
  have hd := h.active_marked
  show (dirOf b sh.forward sh.active sh.identityDir).bind _ = _
  cases ha : sh.active with
  | true => rw [hd ha, dirOf]; exact rfl
  | false => cases sh.identityDir <;> exact rfl

theorem Lawful.reverse_eq : (sh.disk b).reverse = recordOf b sh.reverse := by
  have hd := h.reverse_marked
  show (dirOf b sh.reverse false sh.uuidDir).bind _ = _
  cases hr : sh.reverse with
  | true => rw [hd hr, dirOf]; exact rfl
  | false => cases sh.uuidDir <;> exact rfl

/-- A directory without a marker has no records, and the phases do not ask for it. -/
theorem Lawful.setDir (hb : sh.dirState side ≠ .marked) (state : DirState) :
    (sh.setDir side state).Lawful := by
  obtain ⟨intent, purge, identityDir, uuidDir, forward, reverse, active, store⟩ := sh
  obtain ⟨hfwd, hac, hre, hphs⟩ := h
  dsimp only [dirState] at *
  cases side with
  | identity =>
    refine ⟨fun hf => absurd (hfwd hf) hb, fun ha => absurd (hac ha) hb, hre, ?_⟩
    rcases intent with _ | _ | _ <;> rcases purge with _ | _ | _ | _ <;>
      simp_all [PhaseLaw, Shape.setDir, BindingLaw, Unbound, Bound]
  | uuid =>
    refine ⟨hfwd, hac, fun hr => absurd (hre hr) hb, ?_⟩
    rcases intent with _ | _ | _ <;> rcases purge with _ | _ | _ | _ <;>
      simp_all [PhaseLaw, Shape.setDir, BindingLaw, Unbound, Bound]

theorem Lawful.settleDir (side : Side) : (sh.settleDir side).Lawful := by
  unfold Shape.settleDir
  split
  · rename_i hb
    exact h.setDir (by rw [hb]; decide) .marked
  · exact h

theorem Lawful.marked (side : Side) : (sh.setDir side .marked).Lawful := by
  by_cases hma : sh.dirState side = .marked
  · rw [setDir_self hma]
    exact h
  · exact h.setDir hma .marked

theorem Lawful.settle : sh.settle.Lawful := (h.settleDir .identity).settleDir .uuid

end

theorem recordMatches_recordOf [DecidableEq I] [DecidableEq U] (here : Bool) :
    recordMatches (recordOf b here) b = .ok here := by
  cases here with
  | false => rfl
  | true => exact if_pos rfl

theorem Lawful.snapshot_eq (h : sh.Lawful) (store : StoreObservation U) :
    (⟨(sh.disk b).intent, (sh.settle.disk b).forward, (sh.settle.disk b).reverse, store,
      sh.active⟩ : RegistrySnapshot I U) = sh.snapshot b store := by
  rw [h.settle.forward_eq, h.settle.reverse_eq, settle_eq]
  rfl

end Shape

end Read

/-! ## The rules of the shared steps -/

section Rules

variable {I U α β : Type} {P : Prop} {n : ℕ} {Q : β → Registry I U → Prop}
  {F : ProfileErrorKind → Registry I U → Prop} {E : Registry I U → Prop} {s : Registry I U}

theorem within_readDisk {f : RegistryDisk I U → RegistryTask I U β}
    (h : Task.Within P n (f s.disk) Q F E s) : Task.Within P n (readDisk >>= f) Q F E s :=
  Task.within_first (Task.within_first (Task.within_get (Task.within_pure h)))

variable {f : RegistryDisk I U → RegistryDisk I U} {r : Except ProfileErrorKind α}

theorem within_durable {Q : Unit → Registry I U → Prop} (hE : E s)
    (h : Q () { s with disk := f s.disk }) :
    Task.Within P (n + 1) (durable f) Q F E s :=
  Task.within_mono (Task.within_bind
    (Task.within_ask (n := 0) hE fun _ => Task.within_modify (n := n) h))
    (Nat.le_of_eq (Nat.add_comm 1 n)) (fun _ _ h => h) (fun _ _ h => h) (fun _ h => h)

theorem within_durable_first {k : Unit → RegistryTask I U β} (hE : E s)
    (h : Task.Within P n (k ()) Q F E { s with disk := f s.disk }) :
    Task.Within P (n + 1) (durable f >>= k) Q F E s :=
  Task.within_mono (Task.within_bind (within_durable (n := 0) hE h))
    (Nat.le_of_eq (Nat.add_comm 1 n)) (fun _ _ h => h) (fun _ _ h => h) (fun _ h => h)

theorem within_changeStore {Q : Unit → Registry I U → Prop} {change : StoreChange} (hE : E s)
    (h : Q () ⟨{ s.disk with store := change = .constructed }, s.changes ++ [(change, s.disk)]⟩) :
    Task.Within P (n + 1) (changeStore change) Q F E s :=
  Task.within_mono (Task.within_bind
    (Task.within_ask (n := 0) hE fun _ => Task.within_modify (n := n) h))
    (Nat.le_of_eq (Nat.add_comm 1 n)) (fun _ _ h => h) (fun _ _ h => h) (fun _ h => h)

theorem within_ofExcept_ok {a : α} (hr : r = .ok a) {f : α → RegistryTask I U β}
    (h : Task.Within P n (f a) Q F E s) :
    Task.Within P n (ofExcept r >>= f) Q F E s := by
  rw [hr]
  exact Task.within_first (Task.within_pure h)

theorem within_ofExcept_error {e : ProfileErrorKind} (hr : r = .error e)
    {f : α → RegistryTask I U β} (h : F e s) :
    Task.Within P n (ofExcept r >>= f) Q F E s := by
  rw [hr]
  exact Task.within_first (Task.within_throw h)

end Rules

section Steps

variable {I U : Type} {b : StoreBinding I U} {sh : Shape} {P : Prop}
  {cs : List (StoreChange × RegistryDisk I U)}

theorem Shape.Lawful.safe (h : sh.Lawful) (hcs : Logged b sh.store cs) :
    Safe b (sh.on b cs) := ⟨sh, h, cs, hcs, rfl⟩

theorem createPrivateDirectory_spec (h : sh.Lawful) (hcs : Logged b sh.store cs) (side : Side) :
    Task.Within P 1 (createPrivateDirectoryIfMissing side)
      (fun created r => created = decide (sh.dirState side = .absent) ∧
        r = (if sh.dirState side = .absent then sh.setDir side .bare else sh).on b cs)
      (fun _ _ => False) (Safe b) (sh.on b cs) := by
  refine within_readDisk ?_
  have hdi : (sh.on b cs).disk.dir side = (sh.disk b).dir side := rfl
  rw [hdi]
  by_cases hst : sh.dirState side = .absent
  · obtain ⟨hd, hset⟩ := h.bare_dir (b := b) (by rw [hst]; decide)
    rw [hd, hst]
    refine within_durable_first (h.safe hcs) (Task.within_pure ⟨rfl, ?_⟩)
    rw [if_pos rfl]
    exact congrArg (fun disk => (⟨disk, cs⟩ : Registry I U)) (hset .bare)
  · obtain ⟨dir, hd⟩ := Shape.present_dir (b := b) hst
    rw [hd]
    exact Task.within_pure ⟨(decide_eq_false hst).symm, by rw [if_neg hst]⟩

variable [DecidableEq I]

/-- A directory that is missing, or whose marker is missing and authorized, gets its marker. -/
theorem ensureProfileDirectory_spec (h : sh.Lawful) (hcs : Logged b sh.store cs)
    (side : Side) (authorized : Bool) :
    Task.Within P 2 (ensureProfileDirectory side b.identity authorized)
      (fun _ r => r = (sh.setDir side .marked).on b cs ∧
        (sh.dirState side = .bare → authorized = true))
      (fun _ r => r = sh.on b cs ∧ sh.dirState side = .bare ∧ authorized = false)
      (Safe b) (sh.on b cs) := by
  refine Task.within_call (n := 1) (createPrivateDirectory_spec h hcs side) ?_
    (fun _ _ h => h.elim) (Nat.le_refl 2)
  rintro created r ⟨rfl, rfl⟩
  refine within_readDisk ?_
  by_cases hma : sh.dirState side = .marked
  · obtain ⟨dir, hdir, hmr⟩ := Shape.marked_dir (b := b) hma
    have habs : sh.dirState side ≠ .absent := by rw [hma]; decide
    have hdi : (sh.on b cs).disk.dir side = some dir := hdir
    rw [if_neg habs]
    dsimp only
    rw [hdi, Option.getD_some, hmr]
    refine within_ofExcept_ok (a := MarkerAction.reuse) (if_pos rfl) (Task.within_pure ⟨?_, ?_⟩)
    · rw [Shape.setDir_self hma]
    · intro hb
      rw [hma] at hb
      exact absurd hb (by decide)
  · -- the directory is there by now, and bare
    obtain ⟨sh', hsh', hlaw, hlo, hb, hset⟩ : ∃ sh' : Shape,
        (if sh.dirState side = .absent then sh.setDir side .bare else sh) = sh' ∧ sh'.Lawful ∧
          Logged b sh'.store cs ∧ sh'.dirState side = .bare ∧
          sh'.setDir side .marked = sh.setDir side .marked := by
      by_cases habs : sh.dirState side = .absent
      · exact ⟨_, if_pos habs, h.setDir hma .bare,
          (Shape.setDir_store side .bare).symm ▸ hcs, Shape.dirState_setDir side .bare,
          Shape.setDir_setDir side .bare .marked⟩
      · refine ⟨sh, if_neg habs, h, hcs, ?_, rfl⟩
        cases hd : sh.dirState side with
        | absent => exact absurd hd habs
        | bare => rfl
        | marked => exact absurd hd hma
    rw [hsh']
    obtain ⟨hdir, hdi⟩ := hlaw.bare_dir (b := b) (by rw [hb]; decide)
    have hgot : ((sh'.on b cs).disk.dir side).getD {} = ⟨none, none, none⟩ := by
      show ((sh'.disk b).dir side).getD {} = _
      rw [hdir, hb]
      rfl
    rw [hgot]
    by_cases hcr : sh.dirState side = .absent ∨ authorized = true
    · have hobs : unmarkedObservation (I := I) (decide (sh.dirState side = .absent)) authorized
          (⟨none, none, none⟩ : ProfileDirectory I U) = .newlyCreatedEmpty := by
        rcases hcr with hcr | hcr <;> simp [unmarkedObservation, hcr]
      refine within_ofExcept_ok (a := MarkerAction.writeNew (markerOf b)) ?_
        (within_durable (hlaw.safe hlo) ⟨?_, ?_⟩)
      · exact congrArg (nextMarkerAction (markerOf b)) hobs
      · rw [← hset]
        exact congrArg (fun disk => (⟨disk, cs⟩ : Registry I U)) (hdi .marked)
      · intro hwas
        rcases hcr with hcr | hcr
        · rw [hcr] at hwas
          exact absurd hwas (by decide)
        · exact hcr
    · rw [not_or] at hcr
      obtain ⟨habs, hau⟩ := hcr
      have hau := Bool.eq_false_of_not_eq_true hau
      have hobs : unmarkedObservation (I := I) (decide (sh.dirState side = .absent)) authorized
          (⟨none, none, none⟩ : ProfileDirectory I U) = .existingEmptyUnmarked := by
        simp [unmarkedObservation, habs, hau]
      have hs : sh' = sh := by rw [← hsh', if_neg habs]
      refine within_ofExcept_error (e := .markerMismatch) ?_ ⟨?_, ?_, hau⟩
      · exact congrArg (nextMarkerAction (markerOf b)) hobs
      · rw [hs]
      · rw [← hs, hb]

theorem ensurePresentDirectory_spec (h : sh.Lawful) (hcs : Logged b sh.store cs)
    (side : Side) (authorized : Bool) :
    Task.Within P 2 (ensurePresentDirectory side b.identity authorized)
      (fun _ r => r = (sh.settleDir side).on b cs ∧ (sh.dirState side = .bare → authorized = true))
      (fun _ r => r = sh.on b cs ∧ sh.dirState side = .bare ∧ authorized = false)
      (Safe b) (sh.on b cs) := by
  refine within_readDisk ?_
  have hdisk : (sh.on b cs).disk.dir side = (sh.disk b).dir side := rfl
  rw [hdisk]
  by_cases habs : sh.dirState side = .absent
  · obtain ⟨hdi, -⟩ := h.bare_dir (b := b) (by rw [habs]; decide)
    have hb : sh.dirState side ≠ .bare := by rw [habs]; decide
    rw [hdi, habs]
    exact Task.within_pure ⟨by rw [Shape.settleDir, if_neg hb], nofun⟩
  · obtain ⟨dir, hdi⟩ := Shape.present_dir (b := b) habs
    rw [hdi]
    refine Task.within_mono (ensureProfileDirectory_spec h hcs side authorized) (Nat.le_refl 2)
      ?_ (fun _ _ h => h) (fun _ h => h)
    rintro _ r ⟨rfl, hwas⟩
    refine ⟨?_, hwas⟩
    cases hd : sh.dirState side with
    | absent => exact absurd hd habs
    | bare => rw [Shape.settleDir, if_pos hd]
    | marked => rw [Shape.settleDir, if_neg (by rw [hd]; decide), Shape.setDir_self hd]

variable [DecidableEq U]

theorem registrySnapshot_spec (h : sh.Lawful) (hcs : Logged b sh.store cs)
    (store : StoreObservation U) :
    Task.Within P 4 (registrySnapshot b store)
      (fun snapshot r => snapshot = sh.snapshot b store ∧ r = sh.settle.on b cs ∧
        (sh.identityDir = .bare ∨ sh.uuidDir = .bare → sh.authorized = true))
      (fun _ r => r = sh.on b cs ∧ (sh.identityDir = .bare ∨ sh.uuidDir = .bare) ∧
        sh.authorized = false)
      (Safe b) (sh.on b cs) := by
  have hau : bindingAuthorized b (sh.disk b).intent = sh.authorized := Shape.bindingAuthorized_disk
  refine within_readDisk (Task.within_call (m := 2) (n := 2) (R := fun _ r =>
    r = (sh.settleDir .identity).on b cs ∧ (sh.identityDir = .bare → sh.authorized = true))
    (G := fun _ r => r = sh.on b cs ∧ sh.identityDir = .bare ∧ sh.authorized = false)
    ?_ ?_ ?_ (Nat.le_refl 4))
  · have hc := ensurePresentDirectory_spec (P := P) h hcs .identity sh.authorized
    rw [← hau] at hc ⊢
    exact hc
  · rintro _ r ⟨rfl, hid⟩
    refine Task.within_call (m := 2) (n := 0) (R := fun _ r =>
      r = sh.settle.on b cs ∧ (sh.uuidDir = .bare → sh.authorized = true))
      (G := fun _ r => r = (sh.settleDir .identity).on b cs ∧ sh.uuidDir = .bare ∧
        sh.authorized = false) ?_ ?_ ?_ (Nat.le_refl 2)
    · have hc := ensurePresentDirectory_spec (P := P) (h.settleDir .identity)
        ((Shape.settleDir_store .identity).symm ▸ hcs) .uuid sh.authorized
      rw [Shape.settleDir_uuidDir] at hc
      rw [← hau] at hc ⊢
      exact hc
    · rintro _ r ⟨rfl, huu⟩
      have ha : recordMatches (sh.settle.on b cs).disk.active b = .ok sh.active := by
        show recordMatches (sh.settle.disk b).active b = _
        rw [h.settle.active_eq, Shape.recordMatches_recordOf, Shape.settle_eq]
      refine within_readDisk (within_ofExcept_ok ha (Task.within_pure ⟨?_, rfl, ?_⟩))
      · exact h.snapshot_eq store
      · rintro (hb | hb)
        · exact hid hb
        · exact huu hb
    · rintro e r ⟨rfl, hb, hun⟩
      refine ⟨?_, .inr hb, hun⟩
      rw [Shape.settleDir, if_neg]
      intro hidentityBare
      rw [hid hidentityBare] at hun
      exact absurd hun (by decide)
  · rintro e r ⟨rfl, hb, hun⟩
    exact ⟨rfl, .inl hb, hun⟩

end Steps

/-! ## Single steps -/

section SingleSteps

variable {I U : Type} {b : StoreBinding I U} {sh : Shape} {P : Prop}
  {cs : List (StoreChange × RegistryDisk I U)}

theorem durable_spec {F : ProfileErrorKind → Registry I U → Prop}
    {f : RegistryDisk I U → RegistryDisk I U} {sh' : Shape} (h : sh.Lawful)
    (hcs : Logged b sh.store cs) (hf : f (sh.disk b) = sh'.disk b) :
    Task.Within P 1 (durable f) (fun _ r => r = sh'.on b cs) F (Safe b) (sh.on b cs) :=
  within_durable (h.safe hcs) (congrArg (fun disk => (⟨disk, cs⟩ : Registry I U)) hf)

variable {F : ProfileErrorKind → Registry I U → Prop} (h : sh.Lawful) (hcs : Logged b sh.store cs)

include h hcs

theorem writeIntent_spec (hi : sh.intent = none) (phase : RegistryIntentPhase) :
    Task.Within P 1 (writeIntent ⟨b, phase⟩)
      (fun _ r => r = { sh with intent := some phase }.on b cs) F (Safe b) (sh.on b cs) := by
  refine within_readDisk ?_
  have hd : (sh.on b cs).disk.intent = none := congrArg (Option.map _) hi
  rw [hd]
  dsimp only [writeNewRecord]
  exact durable_spec h hcs (by exact rfl)

variable {current : RegistryIntentPhase}

theorem advanceIntent_spec (hi : sh.intent = some current) (phase : RegistryIntentPhase) :
    Task.Within P 1 (advanceIntent phase)
      (fun _ r => r = { sh with intent := some phase }.on b cs) F (Safe b) (sh.on b cs) := by
  refine within_readDisk ?_
  have hd : (sh.on b cs).disk.intent = some ⟨b, current⟩ := congrArg (Option.map _) hi
  rw [hd]
  exact durable_spec h hcs (by exact rfl)

theorem clearIntent_spec (hi : sh.intent = some current) :
    Task.Within P 1 clearIntent
      (fun _ r => r = { sh with intent := none }.on b cs) F (Safe b) (sh.on b cs) := by
  refine within_readDisk ?_
  have hd : (sh.on b cs).disk.intent = some ⟨b, current⟩ := congrArg (Option.map _) hi
  rw [hd]
  dsimp only [removeFileIfExists]
  exact durable_spec h hcs (by exact rfl)

theorem changeStore_spec {change : StoreChange} (hpr : ProperChange b (change, sh.disk b)) :
    Task.Within P 1 (changeStore change)
      (fun _ r => ∃ cs', Logged b (decide (change = StoreChange.constructed)) cs' ∧
        r = { sh with store := decide (change = StoreChange.constructed) }.on b cs') F (Safe b) (sh.on b cs) := by
  refine within_changeStore (h.safe hcs) ⟨cs ++ [(change, sh.disk b)], ⟨?_, ?_⟩, rfl⟩
  · intro c hc
    rcases mem_snoc.mp hc with hc | rfl
    · exact hcs.proper c hc
    · exact hpr
  · rw [map_append, map_singleton, getLast?_concat, decide_eq_true_iff]
    exact (Option.some_inj).symm

theorem markBindingActive_spec (hdi : sh.identityDir = .marked) (ha : sh.active = false) :
    Task.Within P 1 (markBindingActive b)
      (fun _ r => r = { sh with active := true }.on b cs) F (Safe b) (sh.on b cs) := by
  refine within_readDisk ?_
  have hd : (sh.on b cs).disk.identityDir =
      some ⟨some (markerOf b), recordOf b sh.forward, none⟩ := by
    show dirOf b sh.forward sh.active sh.identityDir = _
    rw [hdi, ha]
    rfl
  rw [hd]
  dsimp only [writeNewRecord]
  refine durable_spec h hcs ?_
  simp only [RegistryDisk.setDir, Shape.disk, hdi, dirOf]
  rfl

theorem clearActiveStatus_spec (ha : sh.active = true) :
    Task.Within P 1 clearActiveStatus
      (fun _ r => r = { sh with active := false }.on b cs) F (Safe b) (sh.on b cs) := by
  refine within_readDisk ?_
  have hdi := h.active_marked ha
  have hd : (sh.on b cs).disk.identityDir =
      some ⟨some (markerOf b), recordOf b sh.forward, some b⟩ := by
    show dirOf b sh.forward sh.active sh.identityDir = _
    rw [hdi, ha]
    rfl
  rw [hd]
  dsimp only [removeFileIfExists]
  refine durable_spec h hcs ?_
  simp only [RegistryDisk.setDir, Shape.disk, hdi, dirOf]
  rfl

variable [DecidableEq I]

theorem writeReverse_spec (hr : sh.reverse = false) :
    Task.Within P 3 (writeBindingDirection b .uuid)
      (fun _ r => r = { sh with uuidDir := .marked, reverse := true }.on b cs) F (Safe b)
      (sh.on b cs) := by
  refine Task.within_call (n := 1) (ensureProfileDirectory_spec h hcs .uuid true) ?_
    (fun _ _ h => nomatch h.2.2) (Nat.le_refl 3)
  rintro _ r ⟨rfl, -⟩
  have hlaw := h.marked .uuid
  refine within_readDisk ?_
  have hd : ((sh.setDir .uuid .marked).on b cs).disk.dir .uuid =
      some ⟨some (markerOf b), none, none⟩ := by
    show dirOf b sh.reverse false .marked = _
    rw [hr]
    rfl
  rw [hd]
  dsimp only [writeNewRecord]
  exact durable_spec hlaw hcs (by exact rfl)

theorem writeForward_spec (hfwd : sh.forward = false) (ha : sh.active = false) :
    Task.Within P 3 (writeBindingDirection b .identity)
      (fun _ r => r = { sh with identityDir := .marked, forward := true }.on b cs) F (Safe b)
      (sh.on b cs) := by
  refine Task.within_call (n := 1) (ensureProfileDirectory_spec h hcs .identity true) ?_
    (fun _ _ h => nomatch h.2.2) (Nat.le_refl 3)
  rintro _ r ⟨rfl, -⟩
  have hlaw := h.marked .identity
  refine within_readDisk ?_
  have hd : ((sh.setDir .identity .marked).on b cs).disk.dir .identity =
      some ⟨some (markerOf b), none, none⟩ := by
    show dirOf b sh.forward sh.active .marked = _
    rw [hfwd, ha]
    rfl
  rw [hd]
  dsimp only [writeNewRecord]
  refine durable_spec hlaw hcs ?_
  simp only [RegistryDisk.setDir, Shape.setDir, Shape.disk, dirOf, ha]
  rfl

variable [DecidableEq U]

theorem removeReverse_spec (hr : sh.reverse = true) :
    Task.Within P 1 (removeBindingDirection b .uuid)
      (fun _ r => r = { sh with reverse := false }.on b cs) F (Safe b) (sh.on b cs) := by
  have hdi := h.reverse_marked hr
  refine within_readDisk ?_
  have hd : (sh.on b cs).disk.dir .uuid = some ⟨some (markerOf b), some b, none⟩ := by
    show dirOf b sh.reverse false sh.uuidDir = _
    rw [hdi, hr]
    rfl
  rw [hd]
  show Task.Within P 1 (if _ then _ else _) _ _ _ _
  rw [if_pos rfl]
  refine durable_spec h hcs ?_
  simp only [RegistryDisk.setDir, Shape.disk, hdi, dirOf]
  rfl

theorem removeForward_spec (hfwd : sh.forward = true) :
    Task.Within P 1 (removeBindingDirection b .identity)
      (fun _ r => r = { sh with forward := false }.on b cs) F (Safe b) (sh.on b cs) := by
  have hdi := h.forward_marked hfwd
  refine within_readDisk ?_
  have hd : (sh.on b cs).disk.dir .identity =
      some ⟨some (markerOf b), some b, recordOf b sh.active⟩ := by
    show dirOf b sh.forward sh.active sh.identityDir = _
    rw [hdi, hfwd]
    rfl
  rw [hd]
  show Task.Within P 1 (if _ then _ else _) _ _ _ _
  rw [if_pos rfl]
  refine durable_spec h hcs ?_
  simp only [RegistryDisk.setDir, Shape.disk, hdi, dirOf]
  rfl

end SingleSteps

end Keld.Profile
