/-
# `Keld.Profile.RegistrySafety` — the store of a profile over crashed runs

Bindings and purges of one profile follow each other, each cut by a crash after
any of its durable steps or run to its end.  The store is made and removed only
under its authorization, and a binding never runs into a purge.  A state can be
recovered exactly where no directory is left unmarked without a document that
accounts for it; a purge that is asked for where nothing is bound can leave one.
-/
import Keld.Profile.RegistryPurge

namespace Keld.Profile

/-! ## Histories -/

inductive RegistryRun where
  | bind
  | purge
deriving DecidableEq

section Reached

variable {I U : Type} [DecidableEq I] [DecidableEq U]

def RegistryRun.task (fuel : ℕ) (b : StoreBinding I U) : RegistryRun → RegistryTask I U Unit
  | .bind => bindRun fuel b
  | .purge => purgeRun fuel b

/-- The states that the runs of a binding leave, each cut where its script ends or complete. -/
inductive Reached (b : StoreBinding I U) : Registry I U → Prop where
  | empty : Reached b {}
  | run {r : Registry I U} (before : Reached b r) (run : RegistryRun) (fuel : ℕ)
      (script : List (Entry Empty Unit)) : Reached b (run.task fuel b ⟨r, script⟩).2.state

omit [DecidableEq I] [DecidableEq U] in
theorem safe_empty (b : StoreBinding I U) : Safe b {} := by
  have hlaw : ({} : Shape).Lawful :=
    ⟨(fun h => nomatch h), (fun h => nomatch h), (fun h => nomatch h), .inl ⟨rfl, rfl, rfl, rfl⟩⟩
  have hlo : Logged b ({} : Shape).store [] :=
    ⟨(fun _ h => nomatch h), iff_of_false (fun h => nomatch h) (fun h => nomatch h)⟩
  exact hlaw.safe hlo

omit [DecidableEq I] [DecidableEq U] in
theorem safe_of_post {b : StoreBinding I U}
    {o : Except (Stop ProfileErrorKind) Unit × World (Registry I U) Empty Unit}
    (h : Task.Post (fun _ => Safe b) (fun _ => Safe b) (Safe b) o) : Safe b o.2.state := by
  obtain ⟨(e | e) | a, w⟩ := o
  · exact h
  · exact h
  · exact h

theorem Reached.safe {b : StoreBinding I U} {r : Registry I U} (h : Reached b r) : Safe b r := by
  induction h with
  | empty => exact safe_empty b
  | run before run fuel script ih =>
    obtain ⟨sh, hsh, cs, hcs, rfl⟩ := ih
    cases run with
    | bind => exact safe_of_post (bindRun_safe hsh hcs fuel script)
    | purge => exact safe_of_post (purgeRun_safe hsh hcs fuel script)

end Reached

/-! ## The store -/

section Store

variable {I U : Type} [DecidableEq I] [DecidableEq U]

def RegistryDisk.phase (disk : RegistryDisk I U) : Option RegistryIntentPhase :=
  disk.intent.map RegistryIntent.phase

/-- A purge record or a purging intent is durable. -/
def PurgePending (disk : RegistryDisk I U) : Prop :=
  disk.purge ≠ none ∨ ∃ phase, disk.phase = some (.purging phase)

/-- What is true of the store in every state. -/
structure StoreSafety (b : StoreBinding I U) (r : Registry I U) : Prop where
  /-- Each change of the store was made in a state that allows it. -/
  changes : ∀ c ∈ r.changes, ProperChange b c
  /-- The store is there exactly if the last change made it. -/
  store : r.disk.store = true ↔ (r.changes.map Prod.fst).getLast? = some .constructed
  forward : r.disk.forward ≠ none → r.disk.reverse = none →
    r.disk.phase = some (.purging .storeAbsent) ∨ r.disk.phase = some (.purging .reverseRemoved)
  active : r.disk.active ≠ none →
    r.disk.store = true ∨ ∃ phase, r.disk.phase = some (.purging phase)
  /-- A binding run is refused while a purge is pending, and nothing has changed then. -/
  pending : PurgePending r.disk → ∀ fuel script, ∃ w,
    bindRun fuel b ⟨r, script⟩ = (.error (.failed .activeIntent), w) ∧ w.state = r

omit [DecidableEq I] [DecidableEq U] in
theorem Shape.phase_disk {b : StoreBinding I U} {sh : Shape} : (sh.disk b).phase = sh.intent := by
  show (sh.intent.map _).map _ = _
  rw [Option.map_map]
  exact Option.map_id'

omit [DecidableEq I] [DecidableEq U] in
theorem recordOf_ne_none {α : Type} {a : α} {here : Bool} : recordOf a here ≠ none ↔ here = true := by
  cases here with
  | false => exact iff_of_false (fun h => h rfl) (by decide)
  | true => exact iff_of_true (fun h => nomatch h) rfl

namespace Shape.Lawful

variable {sh : Shape}

/-- A forward record stands alone only between the two removals of a purge. -/
theorem forward_reverse (h : sh.Lawful) (hfwd : sh.forward = true) (hr : sh.reverse = false) :
    sh.intent = some (.purging .storeAbsent) ∨ sh.intent = some (.purging .reverseRemoved) := by
  have hphs := h.phases
  rcases hi : sh.intent with _ | phase | phase
  · rcases hp : sh.purge with _ | _ | _ | _ <;>
      simp_all [PhaseLaw, Unbound, Bound]
  · rcases hp : sh.purge with _ | q <;> cases phase <;>
      simp_all [PhaseLaw, BindingLaw]
  · rcases hp : sh.purge with _ | q <;> cases phase <;>
      simp_all [PhaseLaw, PurgingLaw, Unbound, Bound]

theorem active_store (h : sh.Lawful) (ha : sh.active = true) :
    sh.store = true ∨ ∃ phase, sh.intent = some (.purging phase) := by
  have hphs := h.phases
  rcases hi : sh.intent with _ | phase | phase
  · rcases hp : sh.purge with _ | _ | _ | _ <;>
      simp_all [PhaseLaw, Unbound, Bound]
  · rcases hp : sh.purge with _ | q <;> cases phase <;>
      simp_all [PhaseLaw, BindingLaw]
  · exact .inr ⟨phase, rfl⟩

end Shape.Lawful

/-- The store of a profile, over every sequence of runs cut anywhere. -/
theorem registry_store_safe {b : StoreBinding I U} {r : Registry I U} (h : Reached b r) :
    StoreSafety b r := by
  obtain ⟨sh, hsh, cs, hcs, rfl⟩ := h.safe
  refine ⟨hcs.proper, hcs.last, ?_, ?_, ?_⟩
  · show (sh.disk b).forward ≠ none → (sh.disk b).reverse = none →
      (sh.disk b).phase = _ ∨ (sh.disk b).phase = _
    rw [hsh.forward_eq, hsh.reverse_eq, Shape.phase_disk, recordOf_ne_none]
    intro hfwd hr
    refine hsh.forward_reverse hfwd ?_
    by_contra hne
    exact recordOf_ne_none.mpr (Bool.eq_true_of_not_eq_false hne) hr
  · show (sh.disk b).active ≠ none → sh.store = true ∨ ∃ phase, (sh.disk b).phase = _
    rw [hsh.active_eq, Shape.phase_disk, recordOf_ne_none]
    exact hsh.active_store
  · intro hpe fuel script
    have hpu : sh.Purging := by
      rcases hpe with hp | ⟨phase, hph⟩
      · exact .inl fun h => hp (congrArg (Option.map _) h)
      · exact .inr ⟨phase, Shape.phase_disk.symm.trans hph⟩
    exact bindRun_refused hpu fuel script

end Store

def testBinding : StoreBinding ℕ ℕ := ⟨1, 2⟩

/-- The test binding after one run of it. -/
def boundRegistry : Registry ℕ ℕ :=
  (RegistryRun.bind.task 12 testBinding ⟨{}, List.replicate 16 (.answer ())⟩).2.state

theorem registry_store_safe_bound :
    boundRegistry.disk.store = true ∧ StoreSafety testBinding boundRegistry :=
  ⟨by decide +kernel, registry_store_safe (.run .empty .bind 12 _)⟩

/-! ## Recovery -/

section Recovery

variable {I U : Type} [DecidableEq I] [DecidableEq U]

/-- The run returns wherever it is not cut, and `Q` holds then. -/
def Succeeds (run : ℕ → RegistryTask I U Unit) (r : Registry I U) (Q : Registry I U → Prop) :
    Prop :=
  ∃ n, ∀ fuel ≥ n, ∀ script, n ≤ script.length →
    ∃ w, run fuel ⟨r, script⟩ = (.ok (), w) ∧ Q w.state

/-- Without a purge record a binding succeeds; with one a purge does, and then a binding. -/
def Recoverable (b : StoreBinding I U) (r : Registry I U) : Prop :=
  (r.disk.purge = none → Succeeds (bindRun · b) r fun _ => True) ∧
    (r.disk.purge ≠ none →
      Succeeds (purgeRun · b) r fun r' => Succeeds (bindRun · b) r' fun _ => True)

/-- A directory without a marker, and neither an intent nor a purge record. -/
def RegistryDisk.Unfinished (disk : RegistryDisk I U) : Prop :=
  disk.intent = none ∧ disk.purge = none ∧
    ∃ side dir, disk.dir side = some dir ∧ dir.marker = none

structure BindComplete (b : StoreBinding I U) (disk : RegistryDisk I U) : Prop where
  forward : disk.forward = some b
  reverse : disk.reverse = some b
  active : disk.active = some b
  store : disk.store = true
  intent : disk.intent = none

structure PurgeComplete (disk : RegistryDisk I U) : Prop where
  store : disk.store = false
  forward : disk.forward = none
  reverse : disk.reverse = none
  active : disk.active = none
  intent : disk.intent = none
  purge : disk.purge = none
  uuidDir : disk.uuidDir = none

/-- What is true of the recovery from every state. -/
structure RegistryRecovery (b : StoreBinding I U) (r : Registry I U) : Prop where
  recoverable : Recoverable b r ↔ ¬ r.disk.Unfinished
  bound : ∀ fuel script w, bindRun fuel b ⟨r, script⟩ = (.ok (), w) → BindComplete b w.state.disk
  purged : ∀ fuel script w, purgeRun fuel b ⟨r, script⟩ = (.ok (), w) → PurgeComplete w.state.disk

variable {b : StoreBinding I U} {sh : Shape} {cs : List (StoreChange × RegistryDisk I U)}

omit [DecidableEq I] [DecidableEq U] in
theorem Shape.unfinished_disk : (sh.disk b).Unfinished ↔ sh.Unfinished := by
  have hb : ∀ direction active state,
      (∃ dir, dirOf b direction active state = some dir ∧ dir.marker = none) ↔ state = .bare := by
    intro direction active state
    cases state with
    | absent => exact iff_of_false (fun ⟨_, h, _⟩ => nomatch h) (by decide)
    | bare => exact iff_of_true ⟨_, rfl, rfl⟩ rfl
    | marked =>
      refine iff_of_false ?_ (by decide)
      rintro ⟨dir, hd, hma⟩
      cases hd
      exact nomatch hma
  have hdi : (∃ side dir, (sh.disk b).dir side = some dir ∧ dir.marker = none) ↔
      sh.identityDir = .bare ∨ sh.uuidDir = .bare := by
    rw [← hb sh.forward sh.active, ← hb sh.reverse false]
    constructor
    · rintro ⟨side, h⟩
      cases side with
      | identity => exact .inl h
      | uuid => exact .inr h
    · rintro (h | h)
      · exact ⟨.identity, h⟩
      · exact ⟨.uuid, h⟩
  have hi : (sh.disk b).intent = none ↔ sh.intent = none := Option.map_eq_none_iff
  have hp : (sh.disk b).purge = none ↔ sh.purge = none := Option.map_eq_none_iff
  exact and_congr hi (and_congr hp hdi)

theorem bindable_succeeds (h : sh.Bindable) (hcs : Logged b sh.store cs) :
    Succeeds (bindRun · b) (sh.on b cs) fun _ => True := by
  refine ⟨126, fun fuel hfu script hscr => ?_⟩
  obtain ⟨_, w, hr, -⟩ := (bindRun_spec h hcs fuel).returns (Nat.le_trans (by decide) hfu) hscr
  exact ⟨w, hr, trivial⟩

omit [DecidableEq I] [DecidableEq U] in
theorem PurgeDone.bindable {r : Registry I U} (h : PurgeDone b r) :
    ∃ sh : Shape, ∃ cs, r = sh.on b cs ∧ Logged b sh.store cs ∧ sh.Bindable := by
  obtain ⟨sh, cs, rfl, hcs, hpur, hp, huu⟩ := h
  refine ⟨sh, cs, rfl, hcs, hpur.lawful (by rw [hp]; exact fun h => nomatch h), hp, ?_⟩
  rintro ⟨-, -, hb | hb⟩
  · exact absurd (hpur.identityDir.symm.trans hb) (by decide)
  · exact absurd (huu.symm.trans hb) (by decide)

theorem recorded_succeeds (h : sh.Lawful) (hcs : Logged b sh.store cs) (hp : sh.purge ≠ none) :
    Succeeds (purgeRun · b) (sh.on b cs) fun r => Succeeds (bindRun · b) r fun _ => True := by
  refine ⟨146, fun fuel hfu script hscr => ?_⟩
  have hsp : Task.Within (22 ≤ fuel) 146 (purgeRun fuel b) (fun _ r => PurgeDone b r)
      (fun _ _ => False) (Safe b) (sh.on b cs) :=
    Task.within_mono (purgeRun_spec h hcs fuel) le_rfl (fun _ _ h => h)
      (fun _ _ h => hp h.2) (fun _ h => h)
  obtain ⟨_, w, hr, hd⟩ := hsp.returns (Nat.le_trans (by decide) hfu) hscr
  obtain ⟨sh', cs', hst, hcs', hsh'⟩ := hd.bindable
  exact ⟨w, hr, hst ▸ bindable_succeeds hsh' hcs'⟩

theorem unfinished_fails (h : sh.Lawful) (hcs : Logged b sh.store cs) (hun : sh.Unfinished) :
    ¬ Succeeds (bindRun · b) (sh.on b cs) fun _ => True := by
  rintro ⟨n, hru⟩
  obtain ⟨w, hr, -⟩ := hru n (Nat.le_refl n) (List.replicate n (.answer ()))
    (Nat.le_of_eq (List.length_replicate).symm)
  have hr : bindRun n b ⟨sh.on b cs, List.replicate n (.answer ())⟩ = (.ok (), w) := hr
  have hp := bindRun_unfinished h hcs hun n (List.replicate n (.answer ()))
  rw [hr] at hp
  exact hp

variable {fuel : ℕ} {script : List (Entry Empty Unit)} {w : World (Registry I U) Empty Unit}

theorem bindRun_complete (h : sh.Lawful) (hcs : Logged b sh.store cs)
    (hr : bindRun fuel b ⟨sh.on b cs, script⟩ = (.ok (), w)) : BindComplete b w.state.disk := by
  by_cases hpurg : sh.Purging
  · obtain ⟨w', href, -⟩ := bindRun_refused (b := b) hpurg fuel script
    exact nomatch href.symm.trans hr
  · have hpu : sh.purge = none := by
      by_contra hne
      exact hpurg (.inl hne)
    by_cases hun : sh.Unfinished
    · have hp := bindRun_unfinished h hcs hun fuel script
      rw [hr] at hp
      exact hp.elim
    · have hp := (bindRun_spec ⟨h, hpu, hun⟩ hcs fuel).wp script
      rw [hr] at hp
      obtain ⟨sh', cs', hst, -, hsh', hi, hfwd, hre, ha, hs⟩ := hp
      rw [hst]
      refine ⟨?_, ?_, ?_, hs, congrArg (Option.map _) hi⟩
      · exact hsh'.lawful.forward_eq.trans (by rw [hfwd]; exact rfl)
      · exact hsh'.lawful.reverse_eq.trans (by rw [hre]; exact rfl)
      · exact hsh'.lawful.active_eq.trans (by rw [ha]; exact rfl)

theorem purgeRun_complete (h : sh.Lawful) (hcs : Logged b sh.store cs)
    (hr : purgeRun fuel b ⟨sh.on b cs, script⟩ = (.ok (), w)) : PurgeComplete w.state.disk := by
  have hpo := (purgeRun_spec h hcs fuel).wp script
  rw [hr] at hpo
  obtain ⟨sh', cs', hst, -, hpur, hp, huu⟩ := hpo
  have hlaw := hpur.lawful (by rw [hp]; exact fun h => nomatch h)
  obtain ⟨hfwd, hre, ha, hs⟩ := hpur.unbound
  rw [hst]
  refine ⟨hs, ?_, ?_, ?_, congrArg (Option.map _) hpur.intent, congrArg (Option.map _) hp, ?_⟩
  · exact hlaw.forward_eq.trans (by rw [hfwd]; exact rfl)
  · exact hlaw.reverse_eq.trans (by rw [hre]; exact rfl)
  · exact hlaw.active_eq.trans (by rw [ha]; exact rfl)
  · show dirOf b sh'.reverse false sh'.uuidDir = none
    rw [huu]
    rfl

/-- The recovery of a profile, from every state that crashed runs reach. -/
theorem registry_recovery {b : StoreBinding I U} {r : Registry I U} (h : Reached b r) :
    RegistryRecovery b r := by
  obtain ⟨sh, hsh, cs, hcs, rfl⟩ := h.safe
  have hp : (sh.on b cs).disk.purge = none ↔ sh.purge = none := Option.map_eq_none_iff
  refine ⟨⟨?_, ?_⟩, fun _ _ _ hr => bindRun_complete hsh hcs hr,
    fun _ _ _ hr => purgeRun_complete hsh hcs hr⟩
  · rintro ⟨hbi, -⟩ hun
    have hun : sh.Unfinished := Shape.unfinished_disk.mp hun
    exact unfinished_fails hsh hcs hun (hbi (hp.mpr hun.2.1))
  · intro hun
    have hun : ¬ sh.Unfinished := fun h => hun (Shape.unfinished_disk.mpr h)
    exact ⟨fun h => bindable_succeeds ⟨hsh, hp.mp h, hun⟩ hcs,
      fun h => recorded_succeeds hsh hcs fun h' => h (hp.mpr h')⟩

end Recovery

/-! ## A purge of nothing -/

/-- The purge of a binding that was never made, cut after its first step. -/
def strandedRegistry : Registry ℕ ℕ :=
  (RegistryRun.purge.task 0 testBinding ⟨{}, [.answer ()]⟩).2.state

theorem registry_recovery_stranded : RegistryRecovery testBinding strandedRegistry :=
  registry_recovery (.run .empty .purge 0 _)

theorem purge_strands :
    Reached testBinding strandedRegistry ∧ ¬ Recoverable testBinding strandedRegistry := by
  refine ⟨.run .empty .purge 0 _, ?_⟩
  have hlaw : ({ identityDir := .bare } : Shape).Lawful :=
    ⟨(fun h => nomatch h), (fun h => nomatch h), (fun h => nomatch h), .inl ⟨rfl, rfl, rfl, rfl⟩⟩
  have hlo : Logged testBinding ({ identityDir := .bare } : Shape).store [] :=
    ⟨(fun _ h => nomatch h), iff_of_false (fun h => nomatch h) (fun h => nomatch h)⟩
  have hst : strandedRegistry = ({ identityDir := .bare } : Shape).on testBinding [] := rfl
  rw [hst]
  rintro ⟨hbi, -⟩
  exact unfinished_fails hlaw hlo ⟨rfl, rfl, .inl rfl⟩ (hbi rfl)

end Keld.Profile
