/-
# `Keld.Profile.RegistryBinding` — a binding run, from any state a crash left

A turn of either loop is one snapshot, one decision and at most one record; it
lowers a rank that counts what is still to be done, so a run that is not cut
ends, and it ends with the binding complete.
-/
import Keld.Profile.RegistryLaw

namespace Keld.Profile

/-! ## The planner on a shape -/

section Planner

variable {I U : Type} {b : StoreBinding I U} {sh : Shape}

/-- What an observation of the store says. -/
def observationOf (b : StoreBinding I U) : Option Bool → StoreObservation U
  | none => .unknown
  | some false => .absent
  | some true => .present b.storeUuid true

variable [DecidableEq U]

theorem storeMatches_observationOf (store : Option Bool) :
    storeMatches (observationOf b store) b = .ok store := by
  rcases store with _ | _ | _
  · rfl
  · rfl
  · exact if_pos ⟨rfl, rfl⟩

variable [DecidableEq I]

theorem nextBindingAction_none (h : sh.intent = none) (store : Option Bool) :
    nextBindingAction b (sh.snapshot b (observationOf b store)) =
      unintendedBindingAction b sh.forward sh.reverse sh.active store := by
  unfold nextBindingAction Shape.snapshot
  simp only [Shape.recordMatches_recordOf, storeMatches_observationOf, h]
  rfl

theorem nextBindingAction_binding {phase : BindingPhase} (h : sh.intent = some (.binding phase))
    (store : Option Bool) :
    nextBindingAction b (sh.snapshot b (observationOf b store)) =
      bindingPhaseAction b sh.forward sh.reverse sh.active store phase := by
  unfold nextBindingAction Shape.snapshot
  simp only [Shape.recordMatches_recordOf, storeMatches_observationOf, h, Option.map_some]
  exact if_neg (fun hne => hne rfl)

end Planner

/-! ## What a binding run may start from -/

namespace Shape

/-- No purge is under way, and the directories are accepted. -/
structure Bindable (sh : Shape) : Prop where
  lawful : sh.Lawful
  purge : sh.purge = none
  finished : ¬ sh.Unfinished

/-- How many records and phases the metadata still needs. -/
def prepareRank (sh : Shape) : ℕ :=
  match sh.intent with
  | none => if sh.forward then 0 else 5
  | some (.binding .prepared) => if sh.reverse then 3 else 4
  | some (.binding .reverseWritten) => if sh.forward then 1 else 2
  | _ => 0

/-- What is left until the store is bound; `store` is what is known of it. -/
def bindRank (sh : Shape) (store : Option Bool) : ℕ :=
  (if store = none then 1 else 0) +
    match sh.intent with
    | none => 2
    | some (.binding .storeCreationAuthorized) => if store = some true then 6 else 8
    | some (.binding .storeVerified) => if sh.active then 2 else 4
    | _ => 10

/-- The intent of a bindable shape is none, or a binding's. -/
theorem Bindable.cases {sh : Shape} (h : sh.Bindable) :
    (sh.intent = none ∧ (sh.Unbound ∨ sh.Bound)) ∨
      ∃ phase, sh.intent = some (.binding phase) ∧ sh.BindingLaw phase := by
  have hphs := h.lawful.phases
  rw [h.purge] at hphs
  rcases hi : sh.intent with _ | phase | phase
  · rw [hi] at hphs
    exact .inl ⟨rfl, hphs⟩
  · rw [hi] at hphs
    exact .inr ⟨phase, rfl, hphs⟩
  · rw [hi] at hphs
    exact hphs.elim

/-- The phases in which the store is what is left. -/
def StorePhase (phase : BindingPhase) : Prop :=
  phase = .forwardWritten ∨ phase = .storeCreationAuthorized ∨ phase = .storeVerified

/-- With its metadata complete. -/
theorem Bindable.prepared {sh : Shape} (h : sh.Bindable) (hra : sh.prepareRank = 0) :
    (sh.intent = none ∧ sh.Bound) ∨
      ∃ phase, sh.intent = some (.binding phase) ∧ sh.BindingLaw phase ∧ StorePhase phase := by
  unfold prepareRank at hra
  rcases h.cases with ⟨hi, hun | hb⟩ | ⟨phase, hi, hlaw⟩
  · simp [hi, hun.1] at hra
  · exact .inl ⟨hi, hb⟩
  · refine .inr ⟨phase, hi, hlaw, ?_⟩
    rw [hi] at hra
    cases phase with
    | prepared | reverseWritten =>
      dsimp only at hra
      split at hra <;> exact absurd hra (by decide)
    | forwardWritten => exact .inl rfl
    | storeCreationAuthorized => exact .inr (.inl rfl)
    | storeVerified => exact .inr (.inr rfl)

/-- A store found in this state is the run's own. -/
def Recovers (sh : Shape) : Prop :=
  sh.intent = some (.binding .storeCreationAuthorized) ∨ sh.intent = some (.binding .storeVerified)

theorem Bindable.authorized {sh : Shape} (h : sh.Bindable)
    (hb : sh.identityDir = .bare ∨ sh.uuidDir = .bare) : sh.authorized = true := by
  rcases h.cases with ⟨hi, -⟩ | ⟨phase, hi, -⟩
  · exact absurd ⟨hi, h.purge, hb⟩ h.finished
  · unfold Shape.authorized
    rw [hi]

variable {phase : BindingPhase}

theorem bindable_of_phase {sh : Shape} (hfwd : sh.forward = true → sh.identityDir = .marked)
    (ha : sh.active = true → sh.identityDir = .marked)
    (hr : sh.reverse = true → sh.uuidDir = .marked) (hp : sh.purge = none)
    (hi : sh.intent = some (.binding phase)) (hlaw : sh.BindingLaw phase) : sh.Bindable where
  lawful := ⟨hfwd, ha, hr, by rw [hp, hi]; exact hlaw⟩
  purge := hp
  finished := fun h => nomatch hi.symm.trans h.1

theorem Bindable.intend {sh : Shape} (h : sh.Bindable) (hlaw : sh.BindingLaw phase) :
    { sh with intent := some (.binding phase) }.Bindable :=
  bindable_of_phase h.lawful.forward_marked h.lawful.active_marked h.lawful.reverse_marked h.purge
    rfl hlaw

theorem settle_marked {sh : Shape} : sh.settle.identityDir ≠ .bare ∧ sh.settle.uuidDir ≠ .bare := by
  obtain ⟨intent, purge, identityDir, uuidDir, forward, reverse, active, store⟩ := sh
  cases identityDir <;> cases uuidDir <;> simp [settle, settleDir, dirState, setDir]

theorem Bindable.settle {sh : Shape} (h : sh.Bindable) : sh.settle.Bindable where
  lawful := h.lawful.settle
  purge := by
    rw [settle_eq]
    exact h.purge
  finished := fun hun => hun.2.2.elim settle_marked.1 settle_marked.2

end Shape

/-! ## The turns -/

section Binding

variable {I U : Type} [DecidableEq I] [DecidableEq U] {b : StoreBinding I U} {sh : Shape}
  {P : Prop} {cs : List (StoreChange × RegistryDisk I U)}

/-- After a turn of `prepare_binding_metadata`. -/
def Prepares (b : StoreBinding I U) (cs : List (StoreChange × RegistryDisk I U)) (rank : ℕ)
    (r : Registry I U) : Prop :=
  ∃ sh : Shape, r = sh.on b cs ∧ Logged b sh.store cs ∧ sh.Bindable ∧ sh.prepareRank = rank

variable {F : ProfileErrorKind → Registry I U → Prop} {rank : ℕ} {l : StoreObservation U × Bool}
  {r : Registry I U}

/-- A snapshot of a bindable shape: the directories have their markers after it. -/
theorem bindable_snapshot {α : Type} {k : RegistrySnapshot I U → RegistryTask I U α} {n : ℕ}
    {Q : α → Registry I U → Prop} (h : sh.Bindable) (hcs : Logged b sh.store cs)
    (store : StoreObservation U)
    (hk : ∀ sh' : Shape, sh'.Bindable → Logged b sh'.store cs →
      sh' = { sh with identityDir := sh'.identityDir, uuidDir := sh'.uuidDir } →
      Task.Within P n (k (sh'.snapshot b store)) Q F (Safe b) (sh'.on b cs)) :
    Task.Within P (4 + n) (registrySnapshot b store >>= k) Q F (Safe b) (sh.on b cs) := by
  refine Task.within_call (registrySnapshot_spec h.lawful hcs store) ?_ ?_ le_rfl
  · rintro snapshot r ⟨rfl, rfl, -⟩
    have hs : sh.snapshot b store = sh.settle.snapshot b store := by
      rw [Shape.settle_eq]
      rfl
    rw [hs]
    have hlo : Logged b sh.settle.store cs := by
      rw [Shape.settle_eq]
      exact hcs
    exact hk sh.settle h.settle hlo Shape.settle_eq
  · rintro e r ⟨-, hb, hun⟩
    rw [h.authorized hb] at hun
    exact absurd hun (by decide)

theorem prepareBindingTurn_spec (h : sh.Bindable) (hcs : Logged b sh.store cs) :
    Task.Within P 7 (prepareBindingTurn b ())
      (Task.Next (fun _ r => ∃ rank < sh.prepareRank, Prepares b cs rank r)
        (fun _ r => Prepares b cs 0 r))
      (fun _ _ => False) (Safe b) (sh.on b cs) := by
  refine bindable_snapshot (n := 3) h hcs .unknown ?_
  intro sh' h' hcs hsh
  have hra : sh.prepareRank = sh'.prepareRank := by
    rw [hsh]
    rfl
  rw [hra]
  rcases h'.cases with ⟨hi, hun | hb⟩ | ⟨phase, hi, hlaw⟩
  · obtain ⟨hfwd, hr, hac, hs⟩ := hun
    have ha := nextBindingAction_none (b := b) hi none
    rw [hfwd, hr, hac] at ha
    refine within_ofExcept_ok ha (Task.within_then (n := 0)
      (writeIntent_spec h'.lawful hcs hi _) ?_ (by decide))
    rintro _ r rfl
    refine Task.within_pure ⟨4, ?_, _, rfl, hcs, h'.intend ⟨hfwd, hac, hs⟩, ?_⟩
    · simp only [Shape.prepareRank, hi, hfwd]
      decide
    · simp only [Shape.prepareRank, hr]
      rfl
  · obtain ⟨hfwd, hr, hac, hs⟩ := hb
    have ha := nextBindingAction_none (b := b) hi none
    rw [hfwd, hr, hac] at ha
    refine within_ofExcept_ok ha (Task.within_pure ⟨sh', rfl, hcs, h', ?_⟩)
    simp only [Shape.prepareRank, hi, hfwd]
    rfl
  · have ha := nextBindingAction_binding (b := b) hi none
    have hma := h'.lawful
    cases phase with
    | prepared =>
      obtain ⟨hfwd, hac, hs⟩ := hlaw
      cases hr : sh'.reverse with
      | true =>
        rw [hfwd, hr, hac] at ha
        refine within_ofExcept_ok ha (Task.within_then (n := 0)
          (advanceIntent_spec h'.lawful hcs hi _) ?_ (by decide))
        rintro _ r rfl
        refine Task.within_pure ⟨2, ?_, _, rfl, hcs, h'.intend ⟨hr, hac, hs⟩, ?_⟩
        · simp only [Shape.prepareRank, hi, hr]
          decide
        · simp only [Shape.prepareRank, hfwd]
          rfl
      | false =>
        rw [hfwd, hr, hac] at ha
        refine within_ofExcept_ok ha (Task.within_then (n := 0)
          (writeReverse_spec h'.lawful hcs hr) ?_ (by decide))
        rintro _ r rfl
        refine Task.within_pure ⟨3, ?_, _, rfl, hcs, Shape.bindable_of_phase hma.forward_marked
          hma.active_marked (fun _ => rfl) h'.purge hi ⟨hfwd, hac, hs⟩, ?_⟩
        · simp only [Shape.prepareRank, hi, hr]
          decide
        · simp only [Shape.prepareRank, hi]
          rfl
    | reverseWritten =>
      obtain ⟨hr, hac, hs⟩ := hlaw
      cases hfwd : sh'.forward with
      | true =>
        rw [hfwd, hr, hac] at ha
        refine within_ofExcept_ok ha (Task.within_then (n := 0)
          (advanceIntent_spec h'.lawful hcs hi _) ?_ (by decide))
        rintro _ r rfl
        refine Task.within_pure ⟨0, ?_, _, rfl, hcs, h'.intend ⟨hr, hfwd, hac, hs⟩, rfl⟩
        simp only [Shape.prepareRank, hi, hfwd]
        decide
      | false =>
        rw [hfwd, hr, hac] at ha
        refine within_ofExcept_ok ha (Task.within_then (n := 0)
          (writeForward_spec h'.lawful hcs hfwd hac) ?_ (by decide))
        rintro _ r rfl
        refine Task.within_pure ⟨1, ?_, _, rfl, hcs, Shape.bindable_of_phase (fun _ => rfl)
          (fun _ => rfl) hma.reverse_marked h'.purge hi ⟨hr, hac, hs⟩, ?_⟩
        · simp only [Shape.prepareRank, hi, hfwd]
          decide
        · simp only [Shape.prepareRank, hi]
          rfl
    | forwardWritten =>
      obtain ⟨hr, hfwd, hac, hs⟩ := hlaw
      rw [hfwd, hr, hac] at ha
      refine within_ofExcept_ok ha (Task.within_pure ⟨sh', rfl, hcs, h', ?_⟩)
      simp only [Shape.prepareRank, hi]
    | storeCreationAuthorized =>
      obtain ⟨hr, hfwd, hac⟩ := hlaw
      rw [hfwd, hr, hac] at ha
      refine within_ofExcept_ok ha (Task.within_pure ⟨sh', rfl, hcs, h', ?_⟩)
      simp only [Shape.prepareRank, hi]
    | storeVerified =>
      obtain ⟨hr, hfwd, hs⟩ := hlaw
      rw [hfwd, hr] at ha
      refine within_ofExcept_ok ha (Task.within_pure ⟨sh', rfl, hcs, h', ?_⟩)
      simp only [Shape.prepareRank, hi]

/-- A turn of `bind_store` at the given rank: what is known of the store is so, and a store of
the run's own has been selected. -/
def Binds (b : StoreBinding I U) (rank : ℕ) (l : StoreObservation U × Bool) (r : Registry I U) :
    Prop :=
  ∃ sh : Shape, ∃ cs, r = sh.on b cs ∧ Logged b sh.store cs ∧ sh.Bindable ∧
    sh.prepareRank = 0 ∧ ∃ store, (store = none ∨ store = some sh.store) ∧
      l.1 = observationOf b store ∧ (store = some true → sh.Recovers → l.2 = true) ∧
      sh.bindRank store = rank

/-- What a completed binding leaves. -/
def BindDone (b : StoreBinding I U) (r : Registry I U) : Prop :=
  ∃ sh : Shape, ∃ cs, r = sh.on b cs ∧ Logged b sh.store cs ∧ sh.Bindable ∧
    sh.intent = none ∧ sh.Bound

omit [DecidableEq I] [DecidableEq U] in
theorem Binds.safe (h : Binds b rank l r) : Safe b r := by
  obtain ⟨sh, cs, rfl, hcs, hsh, -⟩ := h
  exact hsh.lawful.safe hcs

omit [DecidableEq I] [DecidableEq U] in
theorem enumerateForBinding_spec (selected : Bool) :
    Task.Within P 0 (enumerateForBinding b selected)
      (fun o r => r = sh.on b cs ∧ o.1 = observationOf b (some sh.store) ∧
        (some sh.store = some true → sh.Recovers → o.2 = true)) F (Safe b) (sh.on b cs) := by
  refine within_readDisk ?_
  show Task.Within P 0 (if sh.store = true then _ else _) _ _ _ _
  cases hs : sh.store with
  | false =>
    rw [if_neg (by decide)]
    exact Task.within_pure ⟨rfl, rfl, nofun⟩
  | true =>
    rw [if_pos rfl]
    refine Task.within_pure ⟨rfl, rfl, fun _ hre => ?_⟩
    have hi : (sh.on b cs).disk.intent.map RegistryIntent.phase = sh.intent := by
      show (sh.intent.map _).map _ = _
      rw [Option.map_map]
      exact Option.map_id'
    simp only [hi]
    rcases hre with hre | hre <;> rw [hre] <;> exact Bool.or_true selected

omit [DecidableEq I] [DecidableEq U] in
/-- A turn that enumerates: the store is known after it, at a lower rank. -/
theorem binds_enumerated (h : sh.Bindable) (hcs : Logged b sh.store cs)
    (hra : sh.prepareRank = 0) (hlt : sh.bindRank (some sh.store) < sh.bindRank none)
    (selected : Bool) :
    Task.Within P 3
      (enumerateForBinding b selected >>= fun observed => pure (Sum.inl observed : _ ⊕ Unit))
      (Task.Next (fun l r => ∃ rank < sh.bindRank none, Binds b rank l r) (fun _ r => BindDone b r))
      (fun _ _ => False) (Safe b) (sh.on b cs) := by
  refine Task.within_then (n := 0) (enumerateForBinding_spec selected) ?_ (by decide)
  rintro o r ⟨rfl, hobs, hre⟩
  exact Task.within_pure ⟨_, hlt, sh, cs, rfl, hcs, h, hra, _, .inr rfl, hobs, hre, rfl⟩

theorem bindStoreTurn_spec (h : Binds b rank l r) :
    Task.Within P 7 (bindStoreTurn b l)
      (Task.Next (fun l' r' => ∃ rank' < rank, Binds b rank' l' r') (fun _ r' => BindDone b r'))
      (fun _ _ => False) (Safe b) r := by
  obtain ⟨sh, cs, rfl, hcs, hsh, hra, store, hk, hobs, hsel, rfl⟩ := h
  obtain ⟨observation, selected⟩ := l
  subst hobs
  refine bindable_snapshot (n := 3) hsh hcs _ ?_
  intro sh' h' hcs he
  have hra' : sh'.prepareRank = 0 := by
    rw [← hra, he]
    rfl
  have hbindRank : sh.bindRank store = sh'.bindRank store := by
    rw [he]
    rfl
  have hk' : store = none ∨ store = some sh'.store := by
    rw [he]
    exact hk
  have hsel' : store = some true → sh'.Recovers → selected = true := by
    rw [he]
    exact hsel
  rw [hbindRank]
  rcases h'.prepared hra' with ⟨hi, hfwd, hr, hac, hs⟩ | ⟨phase, hi, hlaw, hph⟩
  · have ha := nextBindingAction_none (b := b) hi store
    rw [hfwd, hr, hac] at ha
    rcases hk' with rfl | rfl
    · refine within_ofExcept_ok ha (binds_enumerated h' hcs hra' ?_ selected)
      simp [Shape.bindRank, hi]
    · rw [hs] at ha ⊢
      refine within_ofExcept_ok ha ?_
      exact Task.within_pure ⟨sh', cs, rfl, hcs, h', hi, hfwd, hr, hac, hs⟩
  · have ha := nextBindingAction_binding (b := b) hi store
    have hma := h'.lawful
    rcases hph with rfl | rfl | rfl
    · obtain ⟨hr, hfwd, hac, hs⟩ := hlaw
      rw [hfwd, hr, hac] at ha
      rcases hk' with rfl | rfl
      · refine within_ofExcept_ok ha (binds_enumerated h' hcs hra' ?_ selected)
        simp [Shape.bindRank, hi]
      · rw [hs] at ha ⊢
        refine within_ofExcept_ok ha (Task.within_then (n := 0)
          (advanceIntent_spec hma hcs hi _) ?_ (by decide))
        rintro _ r rfl
        refine Task.within_pure ⟨8, ?_, _, cs, rfl, hcs, h'.intend ⟨hr, hfwd, hac⟩,
          rfl, some false, .inr (congrArg some hs.symm), rfl, nofun, rfl⟩
        simp only [Shape.bindRank, hi]
        decide
    · obtain ⟨hr, hfwd, hac⟩ := hlaw
      rw [hfwd, hr, hac] at ha
      rcases hk' with rfl | rfl
      · refine within_ofExcept_ok ha (binds_enumerated h' hcs hra' ?_ selected)
        simp only [Shape.bindRank, hi]
        cases sh'.store <;> decide
      · cases hs : sh'.store with
        | false =>
          rw [hs] at ha
          have hpr : ProperChange b (.constructed, sh'.disk b) :=
            ⟨by rw [hma.forward_eq, hfwd]; exact rfl, by rw [hma.reverse_eq, hr]; exact rfl,
              by rw [hma.active_eq, hac]; exact rfl,
              congrArg (Option.map _) hi, hs⟩
          refine within_ofExcept_ok ha (Task.within_then (n := 0)
            (changeStore_spec hma hcs hpr) ?_ (by decide))
          rintro _ r ⟨cs', hcs', rfl⟩
          refine Task.within_pure ⟨6, ?_, _, cs', rfl, hcs', Shape.bindable_of_phase
            hma.forward_marked hma.active_marked hma.reverse_marked h'.purge hi
            ⟨hr, hfwd, hac⟩, hra', some true, .inr rfl, rfl, fun _ _ => rfl, ?_⟩
          · simp only [Shape.bindRank, hi]
            decide
          · simp only [Shape.bindRank, hi]
            rfl
        | true =>
          rw [hs] at ha
          refine within_ofExcept_ok ha (Task.within_then (n := 0)
            (advanceIntent_spec hma hcs hi _) ?_ (by decide))
          rintro _ r rfl
          refine Task.within_pure ⟨4, ?_, _, cs, rfl, hcs, h'.intend ⟨hr, hfwd, hs⟩, rfl, some true,
            .inr (congrArg some hs.symm), rfl, ?_, ?_⟩
          · simp only [Shape.bindRank, hi]
            decide
          · exact fun _ _ => hsel' (congrArg some hs) (.inl hi)
          · simp only [Shape.bindRank, hac]
            rfl
    · obtain ⟨hr, hfwd, hs⟩ := hlaw
      rw [hfwd, hr] at ha
      rcases hk' with rfl | rfl
      · refine within_ofExcept_ok ha (binds_enumerated h' hcs hra' ?_ selected)
        simp only [Shape.bindRank, hi, hs]
        cases sh'.active <;> decide
      · have hru := hsel' (congrArg some hs) (.inr hi)
        cases hac : sh'.active with
        | true =>
          rw [hac, hs] at ha
          rw [hs]
          subst hru
          refine within_ofExcept_ok ha (Task.within_then (n := 0)
            (clearIntent_spec hma hcs hi) ?_ (by decide))
          rintro _ r rfl
          have hid := hma.active_marked hac
          have huu := hma.reverse_marked hr
          refine Task.within_pure ⟨_, cs, rfl, hcs, ⟨⟨hma.forward_marked,
            hma.active_marked, hma.reverse_marked, ?_⟩, h'.purge, ?_⟩, rfl,
            hfwd, hr, hac, hs⟩
          · rw [h'.purge]
            exact .inr ⟨hfwd, hr, hac, hs⟩
          · rintro ⟨-, -, hb | hb⟩
            · exact absurd (hid.symm.trans hb) (by decide)
            · exact absurd (huu.symm.trans hb) (by decide)
        | false =>
          rw [hac, hs] at ha
          rw [hs]
          have hid := hma.forward_marked hfwd
          refine within_ofExcept_ok ha (Task.within_then (n := 0)
            (markBindingActive_spec hma hcs hid hac) ?_ (by decide))
          rintro _ r rfl
          refine Task.within_pure ⟨2, ?_, _, cs, rfl, hcs, Shape.bindable_of_phase
            hma.forward_marked (fun _ => hid) hma.reverse_marked h'.purge hi
            ⟨hr, hfwd, hs⟩, ?_, some true, .inr (congrArg some hs.symm), rfl,
            fun _ _ => hru, ?_⟩
          · simp only [Shape.bindRank, hi, hac]
            decide
          · simp only [Shape.prepareRank, hi]
          · simp only [Shape.bindRank, hi]
            rfl

/-! ## The run -/

/-- A purge is under way. -/
def Shape.Purging (sh : Shape) : Prop :=
  sh.purge ≠ none ∨ ∃ phase, sh.intent = some (.purging phase)

theorem Shape.not_purging (hp : sh.purge = none)
    (hi : ∀ phase, sh.intent ≠ some (.purging phase)) : ¬ sh.Purging := by
  rintro (h | ⟨phase, h⟩)
  · exact h hp
  · exact hi phase h

theorem Shape.Bindable.not_purging (h : sh.Bindable) : ¬ sh.Purging := by
  refine Shape.not_purging h.purge fun phase hi => ?_
  rcases h.cases with ⟨hn, -⟩ | ⟨phase', hbi, -⟩
  · exact nomatch hn.symm.trans hi
  · exact nomatch hbi.symm.trans hi

variable {n : ℕ} {E : Registry I U → Prop}

omit [DecidableEq U] in
theorem readPurgeRecord_spec {F : ProfileErrorKind → Registry I U → Prop} :
    Task.Within P n (readPurgeRecord b.identity)
      (fun record r => r = sh.on b cs ∧
        record = sh.purge.map fun phase => ⟨b.identity, .macos, phase⟩) F E (sh.on b cs) := by
  refine within_readDisk ?_
  have hd : (sh.on b cs).disk.purge = sh.purge.map fun phase => ⟨b.identity, .macos, phase⟩ :=
    rfl
  rw [hd]
  cases sh.purge with
  | none => exact Task.within_pure ⟨rfl, rfl⟩
  | some phase =>
    show Task.Within P n (if _ then _ else _) _ _ _ _
    rw [if_neg (by rintro (h | h) <;> exact h rfl)]
    exact Task.within_pure ⟨rfl, rfl⟩

omit [DecidableEq U] in
/-- A binding run goes on exactly where no purge is under way, and changes nothing either way. -/
theorem rejectPendingPurge_spec :
    Task.Within P n (rejectPendingPurge b.identity) (fun _ r => r = sh.on b cs ∧ ¬ sh.Purging)
      (fun e r => r = sh.on b cs ∧ e = .activeIntent ∧ sh.Purging) E (sh.on b cs) := by
  refine Task.within_then (m := 0) (n := n) readPurgeRecord_spec ?_ (Nat.le_of_eq (Nat.zero_add n))
  rintro record r ⟨rfl, rfl⟩
  cases hp : sh.purge with
  | some phase =>
    exact Task.within_throw ⟨rfl, rfl, .inl (by rw [hp]; exact nofun)⟩
  | none =>
    refine within_readDisk ?_
    have hi : (sh.on b cs).disk.intent.map RegistryIntent.phase = sh.intent := by
      show (sh.intent.map _).map _ = _
      rw [Option.map_map]
      exact Option.map_id'
    rw [hi]
    rcases hph : sh.intent with _ | phase | phase
    · exact Task.within_pure ⟨rfl, Shape.not_purging hp (by rw [hph]; exact nofun)⟩
    · exact Task.within_pure ⟨rfl, Shape.not_purging hp (by rw [hph]; exact nofun)⟩
    · exact Task.within_throw ⟨rfl, rfl, .inr ⟨phase, hph⟩⟩

/-- Under a pending purge a binding run is refused before it does anything. -/
theorem bindRun_refused (hpu : sh.Purging) (fuel : ℕ) (script : List (Entry Empty Unit)) :
    ∃ w, bindRun fuel b ⟨sh.on b cs, script⟩ = (.error (.failed .activeIntent), w) ∧
      w.state = sh.on b cs := by
  have hsp : Task.Within True 0 (rejectPendingPurge b.identity)
      (fun _ r => r = sh.on b cs ∧ ¬ sh.Purging)
      (fun e r => r = sh.on b cs ∧ e = .activeIntent ∧ sh.Purging) (fun _ => False) (sh.on b cs) :=
    rejectPendingPurge_spec
  have hp := hsp.wp script
  rcases hr : rejectPendingPurge b.identity ⟨sh.on b cs, script⟩ with ⟨(e | e) | a, w⟩
  all_goals rw [hr] at hp
  · exact hp.elim
  · obtain ⟨hst, rfl, -⟩ := hp
    exact ⟨w, Proc.bind_run_error hr, hst⟩
  · exact absurd hpu hp.2

theorem Shape.prepareRank_le : sh.prepareRank ≤ 5 := by
  unfold prepareRank
  repeat' split
  all_goals decide

theorem Shape.bindRank_le {store : Option Bool} : sh.bindRank store ≤ 11 := by
  unfold bindRank
  repeat' split
  all_goals decide

theorem prepareLoop_spec (h : sh.Bindable) (hcs : Logged b sh.store cs) (fuel : ℕ) :
    Task.Within (12 ≤ fuel) 42 (Task.loop (prepareBindingTurn b) fuel ())
      (fun _ r => Prepares b cs 0 r) (fun _ _ => False) (Safe b) (sh.on b cs) := by
  have hra : sh.prepareRank ≤ 5 := Shape.prepareRank_le
  refine Task.within_mono (Task.within_loop (fun rank _ r => Prepares b cs rank r) ?_ ?_
    (fun hfu => Nat.lt_of_le_of_lt hra (Nat.lt_of_lt_of_le (by decide) hfu))
    ⟨sh, rfl, hcs, h, rfl⟩) (Nat.mul_le_mul_left 7 (Nat.succ_le_succ hra)) (fun _ _ h => h)
    (fun _ _ h => h) (fun _ h => h)
  · rintro rank - r ⟨sh', rfl, hcs', hsh', rfl⟩
    exact prepareBindingTurn_spec hsh' hcs'
  · rintro rank - r ⟨sh', rfl, hcs', hsh', rfl⟩
    exact hsh'.lawful.safe hcs'

theorem bindStoreLoop_spec {rank : ℕ} {l : StoreObservation U × Bool} {r : Registry I U}
    (h : Binds b rank l r) (hra : rank ≤ 11) (fuel : ℕ) :
    Task.Within (12 ≤ fuel) 84 (Task.loop (bindStoreTurn b) fuel l) (fun _ r => BindDone b r)
      (fun _ _ => False) (Safe b) r :=
  Task.within_mono (Task.within_loop (Binds b) (fun _ _ _ h => bindStoreTurn_spec h)
    (fun _ _ _ h => h.safe) (fun hfu => Nat.lt_of_le_of_lt hra hfu) h)
    (Nat.mul_le_mul_left 7 (Nat.succ_le_succ hra)) (fun _ _ h => h) (fun _ _ h => h)
    (fun _ h => h)

theorem bindRun_spec (h : sh.Bindable) (hcs : Logged b sh.store cs) (fuel : ℕ) :
    Task.Within (12 ≤ fuel) 126 (bindRun fuel b) (fun _ r => BindDone b r) (fun _ _ => False)
      (Safe b) (sh.on b cs) := by
  refine Task.within_call (m := 0) (n := 126) rejectPendingPurge_spec ?_
    (fun _ _ h' => absurd h'.2.2 h.not_purging) le_rfl
  rintro _ r ⟨rfl, -⟩
  refine Task.within_then (n := 84) (prepareLoop_spec h hcs fuel) ?_ le_rfl
  rintro _ r ⟨sh', rfl, hcs', hsh', hra⟩
  exact bindStoreLoop_spec ⟨sh', cs, rfl, hcs', hsh', hra, none, .inl rfl, rfl,
    nofun, rfl⟩ Shape.bindRank_le fuel

/-- Where a directory is bare and nothing authorizes it, a binding run cannot succeed. -/
theorem bindRun_unfinished (h : sh.Lawful) (hcs : Logged b sh.store cs)
    (hun : sh.Unfinished) (fuel : ℕ) :
    Task.wp (bindRun fuel b) (fun _ _ => False) (fun _ r => r = sh.on b cs) (Safe b)
      (sh.on b cs) := by
  obtain ⟨hi, hp, hb⟩ := hun
  have hut : sh.authorized = false := by
    unfold Shape.authorized
    rw [hi]
  refine Task.wp_bind (Task.wp_mono (rejectPendingPurge_spec (P := True) (n := 0)).wp ?_
    (fun _ _ h => h.1) (fun _ h => h))
  rintro _ r ⟨rfl, -⟩
  refine Task.wp_bind ?_
  cases fuel with
  | zero => exact Task.wp_cut (h.safe hcs)
  | succ fuel =>
    refine Task.wp_loop_succ (Task.wp_bind (Task.wp_mono
      (registrySnapshot_spec (P := True) h hcs .unknown).wp ?_ (fun _ _ h => h.1) (fun _ h => h)))
    rintro snapshot r ⟨-, -, hau⟩
    exact absurd ((hau hb).symm.trans hut) (by decide)

theorem bindRun_safe (h : sh.Lawful) (hcs : Logged b sh.store cs) (fuel : ℕ) :
    Task.wp (bindRun fuel b) (fun _ => Safe b) (fun _ => Safe b) (Safe b) (sh.on b cs) := by
  by_cases hpu : sh.Purging
  · refine Task.wp_bind (Task.wp_mono (rejectPendingPurge_spec (P := True) (n := 0)).wp ?_ ?_
      (fun _ h => h))
    · exact fun _ _ h' => absurd hpu h'.2
    · rintro e r ⟨rfl, -⟩
      exact h.safe hcs
  · have hp : sh.purge = none := by
      by_contra hne
      exact hpu (.inl hne)
    by_cases hun : sh.Unfinished
    · refine Task.wp_mono (bindRun_unfinished h hcs hun fuel) (fun _ _ h => h.elim) ?_
        (fun _ h => h)
      rintro e r rfl
      exact h.safe hcs
    · refine Task.wp_mono (bindRun_spec ⟨h, hp, hun⟩ hcs fuel).wp ?_ (fun _ _ h => h.elim)
        (fun _ h => h)
      rintro _ r ⟨sh', cs', rfl, hcs', hsh', -⟩
      exact hsh'.lawful.safe hcs'

end Binding

end Keld.Profile
