/-
# `Keld.Window.Invariant` — the representation invariant of the registry

Which owner may call the registry when is the parent's business: it keeps one current
generation, and retires it by `role_lost` before it installs a successor.  Here that
promise is `Succession`, and `currentOwner` is the owner installed after the operations
so far.

`RepInv cur r` is what then holds of every reachable registry.  Its per-entry part,
`EntryInv`, is preserved along `EntryStep`; the two parts that look across entries are
proved beside it.  The last part also needs `ViewsFresh`: the UI thread never gives a
native view id to two builds.
-/
import Keld.Lib.Trace
import Keld.Window.Log

namespace Keld.Window

open WindowRegistry List

/-! ## Callers, and the owner the parent has installed -/

/-- The owner on whose behalf an operation is called. -/
def WindowOp.caller : WindowOp → Option WindowOwner
  | .create o _ _ _ _ _ | .setMaximized o _ _ | .setFullScreen o _ _ | .requestClose o _
  | .closeReply o _ _ _ | .destroy o _ _ | .subscribeSuccessor o => some o
  | _ => none

/-- The installed owner after one more operation. -/
def nextOwner (cur : Option WindowOwner) : WindowOp → Option WindowOwner
  | .roleLost o => if cur = some o then none else cur
  | op => op.caller.or cur

/-- The installed owner after a run: the last caller, until it is lost. -/
def currentOwner (ops : List WindowOp) : Option WindowOwner := ops.foldl nextOwner none

/-- An operation of `o` finds no owner installed, or `o`. -/
def Admissible (cur : Option WindowOwner) (op : WindowOp) : Prop :=
  ∀ o, op.caller = some o → cur = none ∨ cur = some o

/-- The loss of the old owner precedes every operation of a new one. -/
def Succession (ops : List WindowOp) : Prop :=
  Machine.Guarded (fun before op => Admissible (currentOwner before) op) ops

/-- A view id is never given to two builds. -/
def ViewsFresh (ops : List WindowOp) : Prop :=
  ∀ b b' view state state', .nativeBuilt b view state ∈ ops → .nativeBuilt b' view state' ∈ ops →
    b = b'

@[simp] theorem currentOwner_snoc (ops : List WindowOp) (op : WindowOp) :
    currentOwner (ops ++ [op]) = nextOwner (currentOwner ops) op := by
  simp [currentOwner]

instance (cur : Option WindowOwner) (op : WindowOp) : Decidable (Admissible cur op) :=
  decidable_of_iff (∀ o ∈ op.caller, cur = none ∨ cur = some o) (by simp [Admissible])

/-- `Succession`, checked operation by operation from an installed owner. -/
def successionFrom : Option WindowOwner → List WindowOp → Bool
  | _, [] => true
  | cur, op :: ops => decide (Admissible cur op) && successionFrom (nextOwner cur op) ops

variable {ops : List WindowOp} {cur cur' : Option WindowOwner} {op : WindowOp} {o : WindowOwner}
  {r r' : WindowRegistry} {k : ℕ} {e e' : Entry} {native : NativeWindow} {notes : List Note}
  {out : WindowOutcome}

theorem succession_of_check (h : successionFrom none ops = true) : Succession ops := by
  have hgen : ∀ (before : List WindowOp) (op : WindowOp) (after : List WindowOp)
      (cur : Option WindowOwner), successionFrom cur (before ++ op :: after) = true →
      Admissible (before.foldl nextOwner cur) op := by
    intro before
    induction before with
    | nil =>
      intro op after cur h
      simp only [nil_append, successionFrom, Bool.and_eq_true, decide_eq_true_eq] at h
      exact h.1
    | cons b before ih =>
      intro op after cur h
      simp only [cons_append, successionFrom, Bool.and_eq_true] at h
      exact ih op after _ h.2
  rintro before op after rfl
  exact hgen before op after none h

/-- An admissible operation keeps a live owner installed, unless it is the loss of it. -/
theorem nextOwner_of_admissible (ha : Admissible cur op) (hcur : cur = some o)
    (hl : op ≠ .roleLost o) :
    nextOwner cur op = some o := by
  cases op with
  | roleLost o' =>
    have hne : ¬ o = o' := by
      rintro rfl
      exact hl rfl
    simp [nextOwner, hcur, hne]
  | create o' | setMaximized o' | setFullScreen o' | requestClose o' | closeReply o'
  | destroy o' | subscribeSuccessor o' =>
  have hs := ha o' rfl
  rw [hcur] at hs
  rcases hs with h | h
  · cases h
  · simpa [nextOwner, WindowOp.caller] using h.symm
  | _ => simpa [nextOwner, WindowOp.caller] using hcur

theorem nextOwner_of_caller (hc : op.caller = some o) : nextOwner cur op = some o := by
  cases op <;> simp_all [WindowOp.caller, nextOwner]

/-! ## The invariant -/

/-- What holds of the entry at key `k`, given whether the session is ending and which
owner is installed. -/
structure EntryInv (ending : Bool) (cur : Option WindowOwner) (k : ℕ) (e : Entry) : Prop where
  id_eq : e.window.id = k
  incarnation_eq : e.window.incarnation = k
  /-- Live entries have one owner, the installed one. -/
  live : e.ownerLive = true → cur = some e.owner
  opening : ∀ call, e.phase = .opening call → call.owner = e.owner ∧ e.ownerLive = true ∧
    e.created = false ∧ e.adoptable = false ∧ e.destroyCalls = [] ∧ ending = false
  pending : ∀ native seq, e.phase = .closePending native seq → seq = e.lastCloseSeq
  adoptable : e.adoptable = true → e.ownerLive = true ∧ e.phase.isLive = true
  destroyCalls : e.destroyCalls ≠ [] → (∃ native, e.phase = .closing (some native)) ∧
    e.ownerLive = true ∧ ∀ call ∈ e.destroyCalls, call.owner = e.owner
  capacity : e.destroyCalls.length ≤ maxPendingDestroysPerWindow
  created : e.phase.isLive = true → e.created = true
  /-- A live owner's `Closing` window was created, except after a session end. -/
  closing : ∀ native, e.phase = .closing native → e.ownerLive = true → ending = false →
    e.created = true
  /-- A build awaited in `Closing` was never reported to an owner. -/
  late : e.phase = .closing none → e.created = false ∧ (e.ownerLive = true → ending = true)
  ended : ending = true → e.phase.isLive = false

/-- The deferred check stands only over windows whose build is in flight. -/
structure DeferredInv (r : WindowRegistry) : Prop where
  notEnding : r.ending = false
  someOpening : ∃ k e, r.entries.get? k = some e ∧ e.phase.isOpening = true
  onlyOpening : ∀ k e, r.entries.get? k = some e → e.phase.isOpening = true ∨
    e.phase.isDestroyed = true

/-- The representation invariant of the registry. -/
structure RepInv (cur : Option WindowOwner) (r : WindowRegistry) : Prop where
  entry : ∀ k e, r.entries.get? k = some e → EntryInv r.ending cur k e
  /-- Keys are exactly the ids minted so far. -/
  minted : ∀ k, (∃ e, r.entries.get? k = some e) ↔ 1 ≤ k ∧ k ≤ r.lastId
  lastId_eq : r.lastId = r.entries.length
  lastIncarnation_eq : r.lastIncarnation = r.entries.length
  capacity : r.entries.length ≤ proposedMaxCumulativeWindowIds
  ready : r.ready = true → r.ending = false
  deferred : r.deferredLastWindow = true → DeferredInv r

theorem RepInv.keyed (h : RepInv cur r) : Keyed r where
  id_eq := fun k e hk => (h.entry k e hk).id_eq
  le_lastId := fun k e hk => ((h.minted k).mp ⟨e, hk⟩).2

theorem repInv_new : RepInv none WindowRegistry.new where
  entry := by intro k e h; cases h
  minted := by
    intro k
    constructor
    · rintro ⟨e, h⟩
      cases h
    · intro h
      simp [WindowRegistry.new] at h
      omega
  lastId_eq := rfl
  lastIncarnation_eq := rfl
  capacity := Nat.zero_le _
  ready := by simp [WindowRegistry.new]
  deferred := by simp [WindowRegistry.new]

/-! ## One lemma per phase

An entry is on screen, being torn down, awaiting a late build, or gone; each of these
satisfies the invariant from a handful of facts. -/

section

variable {ending : Bool} (h : EntryInv ending cur k e)
include h

theorem EntryInv.onScreen_facts (hp : e.phase.isLive = true) :
    ending = false ∧ e.created = true ∧ e.destroyCalls = [] := by
  refine ⟨?_, h.created hp, ?_⟩
  · cases ending with
    | false => rfl
    | true => exact absurd (h.ended rfl) (by simp [hp])
  · by_contra hne
    obtain ⟨⟨native, hclg⟩, -⟩ := h.destroyCalls hne
    simp [hclg, Phase.isLive] at hp

theorem EntryInv.not_adoptable (hp : e.phase.isLive = false) : e.adoptable = false := by
  cases ha : e.adoptable with
  | false => rfl
  | true => exact absurd (h.adoptable ha).2 (by simp [hp])

theorem EntryInv.late_facts (hp : e.phase = .closing none) :
    e.adoptable = false ∧ e.destroyCalls = [] := by
  refine ⟨h.not_adoptable (by simp [hp, Phase.isLive]), ?_⟩
  by_contra hne
  obtain ⟨⟨native, hclg⟩, -⟩ := h.destroyCalls hne
  simp [hp] at hclg

end

theorem EntryInv.destroyed_facts {ending : Bool} {view : Option WebviewId}
    (h : EntryInv ending cur k e) (hp : e.phase = .destroyed view) :
    e.adoptable = false ∧ e.destroyCalls = [] := by
  refine ⟨h.not_adoptable (by simp [hp, Phase.isLive]), ?_⟩
  by_contra hne
  obtain ⟨⟨native, hclg⟩, -⟩ := h.destroyCalls hne
  simp [hp] at hclg

section

variable {ending : Bool} (hid : e.window.id = k ∧ e.window.incarnation = k)
  (hlive : e.ownerLive = true → cur = some e.owner)
include hid hlive

theorem EntryInv.onScreen (hp : e.phase.isLive = true)
    (hpe : ∀ native seq, e.phase = .closePending native seq → seq = e.lastCloseSeq)
    (had : e.adoptable = true → e.ownerLive = true)
    (hf : ending = false ∧ e.created = true ∧ e.destroyCalls = []) :
    EntryInv ending cur k e where
  id_eq := hid.1
  incarnation_eq := hid.2
  live := hlive
  opening := by intro call h; simp [h, Phase.isLive] at hp
  pending := hpe
  adoptable := fun h => ⟨had h, hp⟩
  destroyCalls := fun h => absurd hf.2.2 h
  capacity := by simp [hf.2.2]
  created := fun _ => hf.2.1
  closing := fun _ _ _ _ => hf.2.1
  late := by intro h; simp [h, Phase.isLive] at hp
  ended := by simp [hf.1]

theorem EntryInv.tearingDown (hp : e.phase = .closing (some native)) (had : e.adoptable = false)
    (hc : e.destroyCalls ≠ [] → e.ownerLive = true ∧ ∀ call ∈ e.destroyCalls, call.owner = e.owner)
    (hcap : e.destroyCalls.length ≤ maxPendingDestroysPerWindow)
    (hcre : e.ownerLive = true → ending = false → e.created = true) :
    EntryInv ending cur k e where
  id_eq := hid.1
  incarnation_eq := hid.2
  live := hlive
  opening := by simp [hp]
  pending := by simp [hp]
  adoptable := by simp [had]
  destroyCalls := fun h => ⟨⟨native, hp⟩, hc h⟩
  capacity := hcap
  created := by simp [hp, Phase.isLive]
  closing := fun _ _ => hcre
  late := by simp [hp]
  ended := by simp [hp, Phase.isLive]

theorem EntryInv.awaitingBuild (hp : e.phase = .closing none)
    (had : e.adoptable = false) (hc : e.destroyCalls = []) (hcre : e.created = false)
    (he : e.ownerLive = true → ending = true) : EntryInv ending cur k e where
  id_eq := hid.1
  incarnation_eq := hid.2
  live := hlive
  opening := by simp [hp]
  pending := by simp [hp]
  adoptable := by simp [had]
  destroyCalls := fun h => absurd hc h
  capacity := by simp [hc]
  created := by simp [hp, Phase.isLive]
  closing := by
    intro _ _ hl hne
    simp [he hl] at hne
  late := fun _ => ⟨hcre, he⟩
  ended := by simp [hp, Phase.isLive]

end

theorem EntryInv.tombstone {ending : Bool} {view : Option WebviewId}
    (hid : e.window.id = k ∧ e.window.incarnation = k)
    (hlive : e.ownerLive = true → cur = some e.owner) (hp : e.phase = .destroyed view)
    (had : e.adoptable = false) (hc : e.destroyCalls = []) :
    EntryInv ending cur k e where
  id_eq := hid.1
  incarnation_eq := hid.2
  live := hlive
  opening := by simp [hp]
  pending := by simp [hp]
  adoptable := by simp [had]
  destroyCalls := fun h => absurd hc h
  capacity := by simp [hc]
  created := by simp [hp, Phase.isLive]
  closing := by simp [hp]
  late := by simp [hp]
  ended := by simp [hp, Phase.isLive]

/-- Clearing the adoption mark keeps the invariant. -/
theorem EntryInv.claimed {ending : Bool} (h : EntryInv ending cur k e) :
    EntryInv ending cur k e.claimed := { h with
  opening := by
    intro call hp
    obtain ⟨h1, h2, h3, -, h5, h6⟩ := h.opening call hp
    exact ⟨h1, h2, h3, rfl, h5, h6⟩
  adoptable := by simp [Entry.claimed] }

theorem EntryInv.of_owner {ending : Bool} (h : EntryInv ending cur k e)
    (hlive : e.ownerLive = true → cur' = some e.owner) :
    EntryInv ending cur' k e :=
  ⟨h.id_eq, h.incarnation_eq, hlive, h.opening, h.pending, h.adoptable, h.destroyCalls,
    h.capacity, h.created, h.closing, h.late, h.ended⟩

/-! ## One step, one entry -/

theorem EntryStep.owner_eq (h : EntryStep r op e e' notes) (hop : op.sweeps e = false) :
    e'.owner = e.owner ∧ e'.ownerLive = e.ownerLive := by
  cases h with
  | takeOver hs => exact absurd (hop.symm.trans hs) (by simp)
  | lost _ | ended => cases hop
  | _ => exact ⟨rfl, rfl⟩

/-- `Destroyed` is final. -/
theorem EntryStep.destroyed (h : EntryStep r op e e' notes) (hd : e.phase.isDestroyed = true) :
    e'.phase.isDestroyed = true := by
  cases h with
  | keep | claim | spared | takeOver | adopt => exact hd
  | lost _ | ended => cases hp : e.phase <;> simp_all [loseRole, endEntry, Phase.isDestroyed]
  | failed _ _ | failedLate _ _ | released _ _ => rfl
  | requestClose _ hp _ | veto _ hp | allow _ hp | destroyOpen _ hp _ | destroyPending _ hp _
  | destroyClosing _ hp _ | built _ hp | cleanup _ hp | fact hp _ | factPending hp _
  | factClosing hp _ | nativeClose hp _ _ => simp [hp, Phase.isDestroyed] at hd

theorem isLive_opened (hp : e.phase = .opened native) : e.phase.isLive = true := by
  simp [hp, Phase.isLive]

theorem isLive_closePending {seq : ℕ} (hp : e.phase = .closePending native seq) :
    e.phase.isLive = true := by
  simp [hp, Phase.isLive]

/-- The invariant survives a step that is no sweep of the entry. -/
theorem EntryStep.inv_of_not_sweeps (h : EntryStep r op e e' notes) (hop : op.sweeps e = false)
    (hi : EntryInv r.ending cur k e) : EntryInv r.ending cur k e' := by
  have hid : e.window.id = k ∧ e.window.incarnation = k := ⟨hi.id_eq, hi.incarnation_eq⟩
  cases h with
  | keep _ => exact hi
  | claim _ _ | adopt _ _ _ => exact hi.claimed
  | requestClose ha hp _ =>
    refine EntryInv.onScreen hid hi.live rfl ?_ (by simp [Entry.claimed, Entry.requested])
      (hi.onScreen_facts (isLive_opened hp))
    intro native seq h
    cases h
    rfl
  | nativeClose hp _ _ =>
    refine EntryInv.onScreen hid hi.live rfl ?_ (fun h => (hi.adoptable h).1)
      (hi.onScreen_facts (isLive_opened hp))
    intro native seq h
    cases h
    rfl
  | veto _ hp =>
    exact EntryInv.onScreen hid hi.live rfl (by simp) (by simp [Entry.claimed])
      (hi.onScreen_facts (isLive_closePending hp))
  | allow _ hp =>
    obtain ⟨-, hcre, hc⟩ := hi.onScreen_facts (isLive_closePending hp)
    exact EntryInv.tearingDown hid hi.live rfl rfl (fun h => absurd hc h) hi.capacity
      (fun _ _ => hcre)
  | destroyOpen ha hp hlt =>
    obtain ⟨-, hcre, hc⟩ := hi.onScreen_facts (isLive_opened hp)
    exact EntryInv.tearingDown hid hi.live rfl rfl
      (fun _ => ⟨ha.live, by simp [Entry.destroying, hc, ha.owner_eq]⟩)
      (by simpa [Entry.destroying, Nat.succ_le_iff] using hlt) (fun _ _ => hcre)
  | destroyPending ha hp hlt =>
    obtain ⟨-, hcre, hc⟩ := hi.onScreen_facts (isLive_closePending hp)
    exact EntryInv.tearingDown hid hi.live rfl rfl
      (fun _ => ⟨ha.live, by simp [Entry.destroying, hc, ha.owner_eq]⟩)
      (by simpa [Entry.destroying, Nat.succ_le_iff] using hlt) (fun _ _ => hcre)
  | @destroyClosing o w c _ native ha hp hlt =>
    cases native with
    | none => exact absurd ha.notEnding (by simp [(hi.late hp).2 ha.live])
    | some native =>
      refine EntryInv.tearingDown hid hi.live hp rfl (fun _ => ⟨ha.live, ?_⟩)
        (by simpa [Nat.succ_le_iff] using hlt) (fun hl he => hi.closing _ hp hl he)
      intro call hm
      rcases mem_snoc.mp hm with hm | heq
      · exact (hi.destroyCalls (ne_nil_of_mem hm)).2.2 call hm
      · cases heq
        exact ha.owner_eq.symm
  | built _ hp =>
    obtain ⟨-, hl, -, had, hc, hen⟩ := hi.opening _ hp
    exact EntryInv.onScreen hid hi.live rfl (by simp) (by simp [had]) ⟨hen, rfl, hc⟩
  | cleanup _ hp =>
    obtain ⟨hcre, hen⟩ := hi.late hp
    obtain ⟨had, hc⟩ := hi.late_facts hp
    refine EntryInv.tearingDown hid hi.live rfl had (fun h => absurd hc h) hi.capacity ?_
    intro hl he
    simp [hen hl] at he
  | failed _ hp =>
    obtain ⟨-, -, -, had, hc, -⟩ := hi.opening _ hp
    exact EntryInv.tombstone hid hi.live rfl had hc
  | failedLate _ hp =>
    obtain ⟨had, hc⟩ := hi.late_facts hp
    exact EntryInv.tombstone hid hi.live rfl had hc
  | fact hp _ =>
    exact EntryInv.onScreen hid hi.live rfl (by simp) (fun h => (hi.adoptable h).1)
      (hi.onScreen_facts (isLive_opened hp))
  | factPending hp _ =>
    refine EntryInv.onScreen hid hi.live rfl ?_ (fun h => (hi.adoptable h).1)
      (hi.onScreen_facts (isLive_closePending hp))
    intro native seq h
    cases h
    exact hi.pending _ _ hp
  | factClosing hp _ =>
    exact ⟨hi.id_eq, hi.incarnation_eq, hi.live, hi.opening, hi.pending, hi.adoptable,
      hi.destroyCalls, hi.capacity, hi.created, hi.closing, hi.late, hi.ended⟩
  | released hp _ => exact EntryInv.tombstone hid hi.live rfl rfl rfl
  | takeOver hs => exact absurd (hop.symm.trans hs) (by simp)
  | lost _ | spared _ | ended => cases hop

section

variable {ending : Bool} (hi : EntryInv ending cur k e)
include hi

theorem EntryInv.lost : EntryInv ending cur' k (loseRole e) := by
  have hid : e.window.id = k ∧ e.window.incarnation = k := ⟨hi.id_eq, hi.incarnation_eq⟩
  unfold loseRole
  cases hp : e.phase with
  | opening call =>
    exact EntryInv.awaitingBuild hid (by simp) rfl rfl rfl (hi.opening _ hp).2.2.1 (by simp)
  | opened native =>
    obtain ⟨he, hcre, -⟩ := hi.onScreen_facts (isLive_opened hp)
    exact EntryInv.onScreen hid (by simp) rfl (by simp) (by simp) ⟨he, hcre, rfl⟩
  | closePending native seq =>
    obtain ⟨he, hcre, -⟩ := hi.onScreen_facts (isLive_closePending hp)
    exact EntryInv.onScreen hid (by simp) rfl (by simp) (by simp) ⟨he, hcre, rfl⟩
  | closing native =>
    cases native with
    | none => exact EntryInv.awaitingBuild hid (by simp) rfl rfl rfl (hi.late hp).1 (by simp)
    | some native =>
      exact EntryInv.tearingDown hid (by simp) rfl rfl (by simp) (Nat.zero_le _) (by simp)
  | destroyed view => exact EntryInv.tombstone hid (by simp) rfl rfl rfl

theorem EntryInv.takenOver (hs : survives e = true)
    (hcur : cur' = some o) : EntryInv ending cur' k (takeOver o e) := by
  have hlive : e.phase.isLive = true := by
    simp only [survives, Bool.and_eq_true] at hs
    exact hs.2
  exact EntryInv.onScreen ⟨hi.id_eq, hi.incarnation_eq⟩ (fun _ => hcur) hlive hi.pending
    (fun _ => rfl) (hi.onScreen_facts hlive)

theorem EntryInv.sessionEnded : EntryInv true cur k (endEntry e) := by
  have hid : e.window.id = k ∧ e.window.incarnation = k := ⟨hi.id_eq, hi.incarnation_eq⟩
  unfold endEntry
  cases hp : e.phase with
  | opening call =>
    obtain ⟨-, -, hcre, -, hc, -⟩ := hi.opening _ hp
    exact EntryInv.awaitingBuild hid hi.live rfl rfl hc hcre (fun _ => rfl)
  | opened native =>
    obtain ⟨-, hcre, hc⟩ := hi.onScreen_facts (isLive_opened hp)
    exact EntryInv.tearingDown hid hi.live rfl rfl (fun h => absurd hc h) hi.capacity
      (fun _ _ => hcre)
  | closePending native seq =>
    obtain ⟨-, hcre, hc⟩ := hi.onScreen_facts (isLive_closePending hp)
    exact EntryInv.tearingDown hid hi.live rfl rfl (fun h => absurd hc h) hi.capacity
      (fun _ _ => hcre)
  | closing native =>
    cases native with
    | none =>
      exact EntryInv.awaitingBuild hid hi.live rfl rfl (hi.late_facts hp).2 (hi.late hp).1
        (fun _ => rfl)
    | some native =>
      exact EntryInv.tearingDown hid hi.live rfl rfl (fun h => (hi.destroyCalls h).2)
        hi.capacity (by simp)
  | destroyed view =>
    exact EntryInv.tombstone hid hi.live rfl rfl (hi.destroyed_facts hp).2

end

/-- **The entry invariant survives every step of the entry.** -/
theorem EntryStep.inv (h : EntryStep r op e e' notes) (ha : Admissible cur op)
    (hi : EntryInv r.ending cur k e) :
    EntryInv (r.ending || decide (op = .sessionEnd)) (nextOwner cur op) k e' := by
  cases hop : op.sweeps e with
  | false =>
    have he : op ≠ .sessionEnd := by
      rintro rfl
      cases hop
    have hinv := h.inv_of_not_sweeps hop hi
    obtain ⟨ho, hlive⟩ := h.owner_eq hop
    rw [decide_eq_false he, Bool.or_false]
    refine hinv.of_owner (fun hl => ?_)
    rw [ho]
    rw [hlive] at hl
    refine nextOwner_of_admissible ha (hi.live hl) ?_
    rintro rfl
    cases hop
  | true =>
    cases h with
    | lost _ => simpa using hi.lost
    | @spared o _ hl =>
      simp only [reduceCtorEq, decide_false, Bool.or_false]
      refine hi.of_owner (fun hlive => ?_)
      refine nextOwner_of_admissible ha (hi.live hlive) ?_
      rintro ⟨⟩
      simp [losesRole, hlive] at hl
    | takeOver hs => simpa using hi.takenOver hs (nextOwner_of_caller rfl)
    | ended => simpa [nextOwner, WindowOp.caller] using hi.sessionEnded
    | keep hk => exact absurd (hop.symm.trans hk) (by simp)
    | claim _ hc => cases hc <;> cases hop
    | _ => cases hop

/-! ## One step, the whole registry -/

/-- The window a step mints. -/
def mintedBy (_ : WindowRegistry) (_ : WindowOp) : WindowOutcome → List WindowRef
  | .create (.ok (.build _ window _ _ _ _)) => [window]
  | _ => []

/-- The counters move together with the number of entries, and only a mint moves them. -/
theorem step_counters (h : Step r op r' out) :
    (mintedBy r op out = [] ∧ r'.lastId = r.lastId ∧ r'.lastIncarnation = r.lastIncarnation ∧
      r'.entries.length = r.entries.length) ∨
    (mintedBy r op out = [⟨r.lastId + 1, r.lastIncarnation + 1⟩] ∧ r'.lastId = r.lastId + 1 ∧
      r'.lastIncarnation = r.lastIncarnation + 1 ∧
      r.entries.length < proposedMaxCumulativeWindowIds ∧
      ∃ e, r'.entries = r.entries.insert (r.lastId + 1) e) := by
  cases h with
  | build _ _ _ hl => exact .inr ⟨rfl, rfl, rfl, hl, _, rfl⟩
  | idle hi => exact .inl ⟨by cases hi <;> rfl, rfl, rfl, rfl⟩
  | claim _ hc =>
    exact .inl ⟨by cases hc <;> rfl, rfl, rfl, OrdMap.length_set _ _ _⟩
  | _ =>
    exact .inl ⟨rfl, rfl, rfl, by simp [setEntry, roleLost, subscribeSuccessor, sessionEnd]⟩

theorem step_ready (h : Step r op r' out) (hr : r.ready = true → r.ending = false)
    (hre : r'.ready = true) :
    r'.ending = false := by
  cases h with
  | markReady he => exact he
  | ended => cases hre
  | _ => exact hr hre

theorem hasLiveWindows_iff :
    r.hasLiveWindows = true ↔ ∃ k e, r.entries.get? k = some e ∧ e.phase.isDestroyed = false := by
  rw [hasLiveWindows, OrdMap.values_any_iff]
  simp only [Bool.not_eq_true']

theorem onlyOpeningWindows_iff :
    r.onlyOpeningWindows = true ↔ (∃ k e, r.entries.get? k = some e ∧ e.phase.isOpening = true) ∧
      ∀ k e, r.entries.get? k = some e → e.phase.isOpening = true ∨ e.phase.isDestroyed = true := by
  rw [onlyOpeningWindows, Bool.and_eq_true, OrdMap.values_any_iff, OrdMap.values_all_iff]
  simp only [Bool.or_eq_true]

section

variable (h : DeferredInv r) (hk : r.entries.get? k = some e)
include h hk

theorem DeferredInv.not_other
    (hopg : e.phase.isOpening = false) (hde : e.phase.isDestroyed = false) : False := by
  rcases h.onlyOpening k e hk with h | h
  · simp [hopg] at h
  · simp [hde] at h

/-- Writing an entry back in its old phase does not disturb the deferred check. -/
theorem DeferredInv.setEntry (hp : e'.phase = e.phase) : DeferredInv (r.setEntry k e') where
  notEnding := h.notEnding
  someOpening := by
    obtain ⟨j, d, hj, hd⟩ := h.someOpening
    by_cases hjk : j = k
    · subst hjk
      cases hk.symm.trans hj
      exact ⟨j, e', by simp [get?_setEntry hk], hp ▸ hd⟩
    · exact ⟨j, d, by simp [get?_setEntry hk, hjk, hj], hd⟩
  onlyOpening := by
    intro j d hj
    rw [get?_setEntry hk] at hj
    split_ifs at hj with hjk
    · cases hj
      rw [hp]
      exact h.onlyOpening k e hk
    · exact h.onlyOpening j d hj

/-- A failed build that leaves other builds in flight leaves the check deferred. -/
theorem DeferredInv.failed
    (hlive : (r.setEntry k { e with phase := .destroyed none }).hasLiveWindows = true) :
    DeferredInv (r.setEntry k { e with phase := .destroyed none }) := by
  have hon : ∀ j d, (r.setEntry k { e with phase := .destroyed none }).entries.get? j = some d →
      d.phase.isOpening = true ∨ d.phase.isDestroyed = true := by
    intro j d hj
    rw [get?_setEntry hk] at hj
    split_ifs at hj with hjk
    · cases hj
      exact .inr rfl
    · exact h.onlyOpening j d hj
  obtain ⟨j, d, hj, hd⟩ := hasLiveWindows_iff.mp hlive
  refine ⟨h.notEnding, ⟨j, d, hj, ?_⟩, hon⟩
  rcases hon j d hj with ho | ho
  · exact ho
  · simp [hd] at ho

end

theorem recipient_eq_some {ending : Bool} (h : e.recipient ending = some o) :
    ending = false ∧ e.created = true ∧ e.ownerLive = true ∧ e.owner = o := by
  obtain ⟨hmap, he⟩ := Option.filter_eq_some_iff.mp h
  obtain ⟨fact, hf, rfl⟩ := Option.map_eq_some_iff.mp hmap
  unfold Entry.destroyedFact at hf
  split_ifs at hf with hc
  cases hf
  simp only [Bool.and_eq_true] at hc
  exact ⟨by simpa using he, hc.1, hc.2, rfl⟩

theorem RepInv.deferred_step (hi : RepInv cur r) (h : Step r op r' out)
    (hd : r'.deferredLastWindow = true) : DeferredInv r' := by
  cases h with
  | idle _ | factDestroyed | drops | markReady _ =>
    have hdef := hi.deferred hd
    exact ⟨hdef.notEnding, hdef.someOpening, hdef.onlyOpening⟩
  | claim ha _ => exact (hi.deferred hd).setEntry ha.get rfl
  | adopt _ _ hf => exact (hi.deferred hd).setEntry (OrdMap.find?_eq_some hf).1 rfl
  | build _ _ _ _ =>
    have hdef := hi.deferred hd
    refine ⟨hdef.notEnding, ⟨r.lastId + 1, _, by rw [OrdMap.get?_insert, if_pos rfl], rfl⟩, ?_⟩
    intro k e hk
    rw [OrdMap.get?_insert] at hk
    split_ifs at hk
    · cases hk
      exact .inl rfl
    · exact hdef.onlyOpening k e hk
  | requestClose ha hp _ | veto ha hp | allow ha hp | destroyOpen ha hp _
  | destroyPending ha hp _ | destroyClosing ha hp _ =>
  exact ((hi.deferred hd).not_other ha.get (by simp [hp, Phase.isOpening])
    (by simp [hp, Phase.isDestroyed])).elim
  | built _ _ | failedLast _ _ _ _ _ _ | releasedLast _ _ _ _ | ended => cases hd
  | cleanup hf hp | failedLate hf hp | fact hf hp | factPending hf hp | factClosing hf hp
  | nativeClose hf hp _ | released hf hp _ | releasedBusy hf hp _ _ _ =>
  exact ((hi.deferred hd).not_other (OrdMap.find?_eq_some hf).1
    (by simp [hp, Phase.isOpening]) (by simp [hp, Phase.isDestroyed])).elim
  | failed hf hp hnot =>
    have hg := (OrdMap.find?_eq_some hf).1
    obtain ⟨-, hlive, -, -, -, hen⟩ := (hi.entry _ _ hg).opening _ hp
    refine (hi.deferred hd).failed hg ?_
    by_contra hno
    exact hnot ⟨hd, hlive, hen, by simpa using hno⟩
  | releasedDeferred hf hp hr hon =>
    obtain ⟨hso, hal⟩ := onlyOpeningWindows_iff.mp hon
    exact ⟨(recipient_eq_some hr).1, hso, hal⟩
  | @roleLost o =>
    -- the flag survives only a loss that reaches no entry
    simp only [roleLost] at hd
    split_ifs at hd with hany
    have hdef := hi.deferred hd
    have hke : ∀ k e, r.entries.get? k = some e → losesRole o e = false := by
      intro k e hk
      by_contra hl
      exact hany (OrdMap.values_any_iff.mpr ⟨k, e, hk, by simpa using hl⟩)
    refine ⟨hdef.notEnding, ?_, ?_⟩
    · obtain ⟨k, e, hk, he⟩ := hdef.someOpening
      exact ⟨k, e, by simp [roleLost, hk, hke k e hk], he⟩
    · intro k e' hk
      simp only [roleLost, OrdMap.get?_map, Option.map_eq_some_iff] at hk
      obtain ⟨e, he, rfl⟩ := hk
      simpa [hke k e he] using hdef.onlyOpening k e he
  | @subscribe o =>
    have hdef := hi.deferred hd
    have hke : ∀ k e, r.entries.get? k = some e → survives e = false := by
      intro k e hk
      by_contra hs
      simp only [survives, Bool.not_eq_false, Bool.and_eq_true] at hs
      rcases hdef.onlyOpening k e hk with h | h <;>
        cases hp : e.phase <;> simp [hp, Phase.isLive, Phase.isOpening, Phase.isDestroyed] at hs h
    refine ⟨hdef.notEnding, ?_, ?_⟩
    · obtain ⟨k, e, hk, he⟩ := hdef.someOpening
      exact ⟨k, e, by simp [subscribeSuccessor, hk, hke k e hk], he⟩
    · intro k e' hk
      simp only [subscribeSuccessor, OrdMap.get?_map, Option.map_eq_some_iff] at hk
      obtain ⟨e, he, rfl⟩ := hk
      simpa [hke k e he] using hdef.onlyOpening k e he

/-- **The representation invariant survives every operation.** -/
theorem RepInv.step (hi : RepInv cur r) (ha : Admissible cur op) (h : Step r op r' out) :
    RepInv (nextOwner cur op) r' where
  entry := by
    intro k e' hk
    rw [step_ending h]
    rcases step_key h hk with ⟨e, he⟩ | ⟨rfl, -, hen, -, o, c, wd, ht, x, y, rfl, -, -, rfl⟩
    · obtain ⟨e'', he'', hs⟩ := step_entry h hi.keyed he
      cases he''.symm.trans hk
      exact hs.inv ha (hi.entry k e he)
    · refine ⟨rfl, ?_, fun _ => nextOwner_of_caller rfl, ?_, by simp [openingEntry],
        by simp [openingEntry], by simp [openingEntry], Nat.zero_le _,
        by simp [openingEntry, Phase.isLive], by simp [openingEntry],
        by simp [openingEntry], by simp [openingEntry, Phase.isLive]⟩
      · simp [openingEntry, hi.lastId_eq, hi.lastIncarnation_eq]
      · intro call hp
        cases hp
        exact ⟨rfl, rfl, rfl, rfl, rfl, by simp [hen]⟩
  minted := by
    intro k
    rcases step_counters h with ⟨-, hid, -, -⟩ | ⟨-, hid, -, -, e, hent⟩
    · rw [hid, ← hi.minted k]
      constructor
      · rintro ⟨e', hk⟩
        rcases step_key h hk with he | ⟨-, -, -, -, o, c, wd, ht, x, y, -, -, hid', -⟩
        · exact he
        · omega
      · rintro ⟨e, he⟩
        obtain ⟨e', he', -⟩ := step_entry h hi.keyed he
        exact ⟨e', he'⟩
    · rw [hid, hent]
      by_cases hk : k = r.lastId + 1
      · exact ⟨fun _ => by omega, fun _ => ⟨e, by rw [OrdMap.get?_insert, if_pos hk]⟩⟩
      · simp only [OrdMap.get?_insert, hk, if_false, hi.minted k]
        omega
  lastId_eq := by
    rcases step_counters h with ⟨-, hid, -, hl⟩ | ⟨-, hid, -, -, e, hent⟩
    · rw [hid, hl, hi.lastId_eq]
    · rw [hid, hent, OrdMap.length_insert_of_fresh hi.keyed.fresh, hi.lastId_eq]
  lastIncarnation_eq := by
    rcases step_counters h with ⟨-, -, hinc, hl⟩ | ⟨-, -, hinc, -, e, hent⟩
    · rw [hinc, hl, hi.lastIncarnation_eq]
    · rw [hinc, hent, OrdMap.length_insert_of_fresh hi.keyed.fresh, hi.lastIncarnation_eq]
  capacity := by
    rcases step_counters h with ⟨-, -, -, hl⟩ | ⟨-, -, -, hlt, e, hent⟩
    · rw [hl]
      exact hi.capacity
    · rw [hent, OrdMap.length_insert_of_fresh hi.keyed.fresh]
      exact hlt
  ready := step_ready h hi.ready
  deferred := hi.deferred_step h

theorem repInv_run (h : Succession ops) : RepInv (currentOwner ops) (machine.run ops) :=
  machine.run_induction (P := fun ops r => RepInv (currentOwner ops) r) repInv_new
    (fun ops op _ ha hi => by
      rw [currentOwner_snoc]
      exact hi.step ha (run_sound ops op)) h

/-! ## Minting and views -/

/-- The windows minted by a run, in order. -/
def mintedWindows (ops : List WindowOp) : List WindowRef := machine.collect mintedBy ops

/-- The ids and incarnations minted so far are `1, 2, …`, each with its counter. -/
theorem mintedWindows_eq (h : Succession ops) :
    mintedWindows ops =
      (List.range (machine.run ops).entries.length).map (fun i => ⟨i + 1, i + 1⟩) := by
  induction ops using reverseRecOn with
  | nil => rfl
  | append_singleton ops op ih =>
    obtain ⟨hops, -⟩ := Machine.guarded_snoc.mp h
    have hi := repInv_run hops
    rw [mintedWindows, Machine.collect_snoc]
    rw [mintedWindows] at ih
    rcases step_counters (run_sound ops op) with
      ⟨hmi, -, -, hl⟩ | ⟨hmi, -, -, -, e, hent⟩
    · rw [ih hops, hmi, hl, append_nil]
    · rw [ih hops, hmi, hent, OrdMap.length_insert_of_fresh hi.keyed.fresh e,
        range_succ, map_append, hi.lastId_eq, hi.lastIncarnation_eq]
      rfl

/-- No view names two windows. -/
def ViewsDistinct (r : WindowRegistry) : Prop :=
  ∀ k k' e e' view, r.entries.get? k = some e → r.entries.get? k' = some e' →
    e.view = some view → e'.view = some view → k = k'

/-- A step gives an entry no view but the one its own build reports. -/
theorem EntryStep.view {view : WebviewId} (h : EntryStep r op e e' notes) (hv : e'.view = some view)
    :
    e.view = some view ∨ ∃ state, op = .nativeBuilt e.window.incarnation view state := by
  cases h with
  | keep _ | claim _ _ | adopt _ _ _ | factClosing _ _ | takeOver _ | spared _ =>
    exact .inl hv
  | requestClose _ hp _ | veto _ hp | allow _ hp | destroyOpen _ hp _ | destroyPending _ hp _
  | nativeClose hp _ _ | fact hp _ | factPending hp _ =>
  left
  simp only [Entry.view, hp]
  exact hv
  | destroyClosing _ hp _ =>
    left
    exact hv
  | built hb hp =>
    cases hv
    exact .inr ⟨_, by rw [hb]⟩
  | cleanup hb hp =>
    cases hv
    exact .inr ⟨_, by rw [hb]⟩
  | failed _ _ | failedLate _ _ => cases hv
  | released hp hvi =>
    left
    simp only [Entry.view, hp, hvi]
    exact hv
  | lost _ =>
    left
    cases hp : e.phase <;> simp_all [loseRole, Entry.view]
  | ended =>
    left
    cases hp : e.phase <;> simp_all [endEntry, Entry.view]

/-- Every mapped view was reported by the build of its own window. -/
theorem view_built (h : Succession ops) :
    ∀ k e view, (machine.run ops).entries.get? k = some e → e.view = some view →
      ∃ state, .nativeBuilt e.window.incarnation view state ∈ ops := by
  refine machine.run_induction
    (P := fun ops r => ∀ k e view, r.entries.get? k = some e → e.view = some view →
      ∃ state, .nativeBuilt e.window.incarnation view state ∈ ops) ?_ ?_ h
  · intro k e view hk
    cases hk
  · intro ops op hops ha ih k e' view hk hv
    have hst := run_sound ops op
    rcases step_key hst hk with ⟨e, he⟩ | ⟨-, -, -, -, o, c, wd, ht, x, y, -, -, -, rfl⟩
    · obtain ⟨e'', he'', hs⟩ := step_entry hst (repInv_run hops).keyed he
      cases he''.symm.trans hk
      rw [hs.window_eq]
      rcases hs.view hv with hv | ⟨state, rfl⟩
      · obtain ⟨state, hm⟩ := ih k e view he hv
        exact ⟨state, mem_append_left _ hm⟩
      · exact ⟨state, mem_append_right _ mem_cons_self⟩
    · cases hv

theorem viewsDistinct_run (h : Succession ops) (hvi : ViewsFresh ops) :
    ViewsDistinct (machine.run ops) := by
  intro k k' e e' view hk hk' hv hv'
  obtain ⟨state, hb⟩ := view_built h k e view hk hv
  obtain ⟨state', hb'⟩ := view_built h k' e' view hk' hv'
  have he := hvi _ _ _ _ _ hb hb'
  have hi := repInv_run h
  rwa [(hi.entry k e hk).incarnation_eq, (hi.entry k' e' hk').incarnation_eq] at he

/-! ## Every reachable registry -/

/-- **The representation invariant.**  In every run whose owners succeed one another and whose
views are fresh, the registry reached satisfies `RepInv`, no view names two windows, and the
windows minted are strictly increasing in both halves and counted by both counters. -/
theorem reachable_repInv (ops : List WindowOp) (howners : Succession ops)
    (hviews : ViewsFresh ops) :
    RepInv (currentOwner ops) (machine.run ops) ∧ ViewsDistinct (machine.run ops) ∧
      (mintedWindows ops).Pairwise (fun a b => a.id < b.id ∧ a.incarnation < b.incarnation) ∧
      (∀ w, w ∈ mintedWindows ops ↔
        ∃ k e, (machine.run ops).entries.get? k = some e ∧ e.window = w) ∧
      (machine.run ops).lastId = (mintedWindows ops).length ∧
      (machine.run ops).lastIncarnation = (mintedWindows ops).length ∧
      (mintedWindows ops).length ≤ proposedMaxCumulativeWindowIds := by
  have hi := repInv_run howners
  have hmi := mintedWindows_eq howners
  have hl : (mintedWindows ops).length = (machine.run ops).entries.length := by
    simp [hmi]
  refine ⟨hi, viewsDistinct_run howners hviews, ?_, ?_, ?_, ?_, ?_⟩
  · rw [hmi, pairwise_map]
    refine List.Pairwise.imp ?_ pairwise_lt_range
    intro i j hij
    exact ⟨Nat.succ_lt_succ hij, Nat.succ_lt_succ hij⟩
  · intro w
    simp only [hmi, mem_map, mem_range]
    constructor
    · rintro ⟨i, hlt, rfl⟩
      obtain ⟨e, he⟩ := (hi.minted (i + 1)).mpr ⟨by omega, by rw [hi.lastId_eq]; omega⟩
      have hinv := hi.entry _ e he
      refine ⟨i + 1, e, he, ?_⟩
      cases hw : e.window
      simp only [WindowRef.mk.injEq]
      exact ⟨by simpa [hw] using hinv.id_eq, by simpa [hw] using hinv.incarnation_eq⟩
    · rintro ⟨k, e, he, rfl⟩
      obtain ⟨hpos, hle⟩ := (hi.minted k).mp ⟨e, he⟩
      have hinv := hi.entry _ e he
      rw [hi.lastId_eq] at hle
      refine ⟨k - 1, by omega, ?_⟩
      cases hw : e.window
      simp only [WindowRef.mk.injEq]
      have h1 := hinv.id_eq
      have h2 := hinv.incarnation_eq
      simp only [hw] at h1 h2
      omega
  · rw [hl, hi.lastId_eq]
  · rw [hl, hi.lastIncarnation_eq]
  · rw [hl]
    exact hi.capacity

/-- A run with a hand-over: the first owner is lost with one window on screen and one build in
flight, and its successor closes what it took over. -/
def handover : List WindowOp :=
  let o₁ : WindowOwner := ⟨10, 1⟩
  let o₂ : WindowOwner := ⟨11, 2⟩
  let state : WindowState := ⟨⟨0, 0, 800, 600⟩, true, false, false⟩
  [.markReady, .subscribeSuccessor o₁, .create o₁ 1 800 600 none none, .nativeBuilt 1 7 state,
    .create o₁ 2 800 600 none none, .roleLost o₁, .nativeBuilt 2 8 state, .subscribeSuccessor o₂,
    .nativeClose 7, .closeReply o₂ ⟨1, 1⟩ 1 .allow, .nativeReleased 8, .nativeReleased 7]

theorem handover_succession : Succession handover := succession_of_check (by decide)

theorem handover_viewsFresh : ViewsFresh handover := by
  intro b b' view state state' h h'
  simp only [handover, mem_cons, reduceCtorEq, WindowOp.nativeBuilt.injEq, not_mem_nil,
    or_false, false_or] at h h'
  rcases h with ⟨rfl, rfl, -⟩ | ⟨rfl, rfl, -⟩ <;> rcases h' with ⟨rfl, h, -⟩ | ⟨rfl, h, -⟩ <;>
    first | rfl | cases h

/-- The invariant at the end of a hand-over, where two windows were minted. -/
theorem handover_repInv :
    Succession handover ∧ ViewsFresh handover ∧ (mintedWindows handover).length = 2 ∧
      RepInv (some ⟨11, 2⟩) (machine.run handover) :=
  ⟨handover_succession, handover_viewsFresh, by decide,
    (reachable_repInv handover handover_succession handover_viewsFresh).1⟩

end Keld.Window
