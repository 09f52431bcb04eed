/-
# `Keld.Window.Adoption` — survivors are adopted before anything is built

A subscription takes over what a lost role left on screen and marks the `Open` survivors.
A `Create` adopts the marked windows of its owner, lowest id first; an admitted call clears
the mark of the window it names.  So a mark is spent once, and only the next loss and
take-over sets another: `AdoptInv`, kept along `EntryStep`, says that a window was adopted
no more often than it was taken over.
-/
import Keld.Window.Invariant
import Mathlib.Data.List.Perm.Subperm

namespace Keld.Window

open WindowRegistry List OrdMap

/-! ## What a run builds, takes over and adopts -/

/-- The build an operation starts, under its owner. -/
def builtFor (_ : WindowRegistry) : WindowOp → WindowOutcome → List (WindowOwner × WindowRef)
  | .create o _ _ _ _ _, .create (.ok (.build _ w _ _ _ _)) => [(o, w)]
  | _, _ => []

/-- The survivors an operation takes over, under their new owner. -/
def takenOver (r : WindowRegistry) : WindowOp → WindowOutcome → List (WindowOwner × WindowRef)
  | .subscribeSuccessor o, _ => (r.entries.values.filter survives).map (fun e => (o, e.window))
  | _, _ => []

/-- The windows that are not gone and whose owner is live, each under its owner. -/
def WindowRegistry.liveWindows (r : WindowRegistry) : List (WindowOwner × WindowRef) :=
  (r.entries.values.filter (fun e => e.ownerLive && !e.phase.isDestroyed)).map
    (fun e => (e.owner, e.window))

/-- The adoptions of a window, in order. -/
def adoptions (l : List Note) : List PendingWindowCall :=
  l.filterMap fun
    | .adopted call => some call
    | _ => none

/-- The adoption mark, as a number. -/
def Entry.mark (e : Entry) : ℕ := if e.adoptable then 1 else 0

/-- The caller and the window of an addressed call. -/
def WindowOp.addressed : WindowOp → Option (WindowOwner × WindowRef)
  | .setMaximized o w _ | .setFullScreen o w _ | .requestClose o w | .closeReply o w _ _
  | .destroy o w _ => some (o, w)
  | _ => none

variable {ops : List WindowOp} {op : WindowOp} {cur : Option WindowOwner} {o : WindowOwner}
  {r r' : WindowRegistry} {k : ℕ} {e e' : Entry} {out : WindowOutcome} {w : WindowRef}
  {notes : List Note}

@[simp] theorem adoptions_append (l m : List Note) :
    adoptions (l ++ m) = adoptions l ++ adoptions m := by
  simp [adoptions]

@[simp] theorem adoptions_facts (facts : List OwnedWindowEvent) :
    adoptions (facts.map .fact) = [] := by
  simp [adoptions]

theorem adoptions_request (seq : ℕ) (fact : Option OwnedWindowEvent) :
    adoptions (requestNotes seq fact) = [] := by
  cases fact <;> rfl

theorem adoptions_factNotes (e : Entry) (event : Option WindowEvent) :
    adoptions (e.factNotes event) = [] := by
  cases event <;> cases h : e.ownerLive <;> simp [Entry.factNotes, h] <;> rfl

/-! ## One step, one mark -/

/-- A step of an entry, seen from its mark: it spends the mark at most, or takes it over. -/
inductive MarkStep (op : WindowOp) (e e' : Entry) (notes : List Note) : Prop
  | spend : (adoptions notes).length + e'.mark ≤ e.mark →
      (e'.ownerLive = true → e.ownerLive = true ∧ e'.owner = e.owner) → MarkStep op e e' notes
  | take {o : WindowOwner} : op = .subscribeSuccessor o → survives e = true → e' = takeOver o e → notes = [] →
      MarkStep op e e' notes

theorem EntryStep.markStep (h : EntryStep r op e e' notes) : MarkStep op e e' notes := by
  have hke : ∀ {e' : Entry} {notes : List Note}, adoptions notes = [] →
      e'.adoptable = e.adoptable ∨ e'.adoptable = false → e'.owner = e.owner →
      e'.ownerLive = e.ownerLive → MarkStep op e e' notes := by
    intro e' notes hn ha ho hl
    refine .spend ?_ fun hl' => ⟨hl ▸ hl', ho⟩
    rw [hn, Entry.mark, Entry.mark]
    obtain ha | ha := ha <;> simp [ha]
  cases h with
  | takeOver hs => exact .take rfl hs rfl rfl
  | adopt _ _ ha =>
    refine .spend ?_ fun hl => ⟨hl, rfl⟩
    have hm : e.adoptable = true := by
      simp only [adoptableBy, Bool.and_eq_true] at ha
      exact ha.1.2
    simp [adoptions, Entry.mark, Entry.claimed, hm]
  | lost _ => exact .spend (by simp [adoptions, Entry.mark, loseRole]) (by rintro ⟨⟩)
  | requestClose _ _ _ => exact hke (adoptions_request _ _) (.inr rfl) rfl rfl
  | nativeClose _ _ _ => exact hke (adoptions_request _ _) (.inl rfl) rfl rfl
  | fact _ _ | factPending _ _ => exact hke (adoptions_factNotes _ _) (.inl rfl) rfl rfl
  | released _ _ =>
    refine hke ?_ (.inr rfl) rfl rfl
    rw [adoptions_append, adoptions_facts]
    rfl
  | failed _ _ =>
    refine hke ?_ (.inl rfl) rfl rfl
    split_ifs <;> rfl
  | ended =>
    refine hke ?_ (.inr rfl) rfl rfl
    unfold endEffects
    cases e.phase <;> rfl
  | claim _ _ | veto _ _ | allow _ _ | destroyOpen _ _ _ | destroyPending _ _ _
  | destroyClosing _ _ _ => exact hke rfl (.inr rfl) rfl rfl
  | keep _ | built _ _ | cleanup _ _ | failedLate _ _ | factClosing _ _ | spared _ =>
    exact hke rfl (.inl rfl) rfl rfl

/-- A mark is new only on an `Open` survivor that is taken over. -/
theorem MarkStep.marked (h : MarkStep op e e' notes) (hn : e.adoptable = false)
    (hm : e'.adoptable = true) :
    ∃ o native, op = .subscribeSuccessor o ∧ survives e = true ∧ e.phase = .opened native := by
  cases h with
  | spend hle _ =>
    rw [Entry.mark, Entry.mark, hn, hm] at hle
    exact absurd hle (by simp)
  | @take o hop hs he _ =>
    subst he
    cases hp : e.phase with
    | opened native => exact ⟨o, native, hop, hs, rfl⟩
    | _ => simp [takeOver, hp] at hm

/-! ## Every run -/

/-- Builds and take-overs of a run. -/
def origins (ops : List WindowOp) : List (WindowOwner × WindowRef) :=
  machine.collect builtFor ops ++ machine.collect takenOver ops

/-- How often the window was taken over. -/
def timesTaken (ops : List WindowOp) (w : WindowRef) : ℕ :=
  ((machine.collect takenOver ops).map Prod.snd).count w

structure AdoptInv (ops : List WindowOp) (e : Entry) : Prop where
  origin : e.ownerLive = true → (e.owner, e.window) ∈ origins ops
  spent : (adoptions (log ops e.window)).length + e.mark ≤ timesTaken ops e.window

theorem origins_mono : origins ops ⊆ origins (ops ++ [op]) := by
  intro a ha
  simp only [origins, Machine.collect_snoc, mem_append] at ha ⊢
  exact ha.imp .inl .inl

theorem timesTaken_snoc (op : WindowOp) : timesTaken (ops ++ [op]) w = timesTaken ops w +
    ((takenOver (machine.run ops) op (machine.outcome ops op)).map Prod.snd).count w := by
  rw [timesTaken, Machine.collect_snoc, map_append, count_append, timesTaken]

theorem adoptInv_run (ops : List WindowOp) :
    ∀ k e, (machine.run ops).entries.get? k = some e → AdoptInv ops e := by
  induction ops using reverseRecOn with
  | nil => nofun
  | append_singleton ops op ih =>
    intro k e' hk
    have hst := run_sound ops op
    obtain ⟨e, he⟩ | ⟨rfl, -, -, -, o, c, wd, ht, x, y, rfl, ho, -, rfl⟩ := step_key hst hk
    · obtain ⟨d, hd, hs⟩ := step_entry hst (keyed_run ops) he
      cases hd.symm.trans hk
      have hw := hs.window_eq
      obtain ⟨hor, hsp⟩ := ih k e he
      cases hs.markStep with
      | spend hle hl =>
        constructor
        · intro hl'
          rw [(hl hl').2, hw]
          exact origins_mono (hor (hl hl').1)
        · rw [hw, log_snoc, adoptions_append, length_append, timesTaken_snoc]
          omega
      | @take o hop hsv he' hn =>
        subst hop
        have hm : (o, e.window) ∈ takenOver (machine.run ops) (.subscribeSuccessor o)
            (machine.outcome ops (.subscribeSuccessor o)) :=
          mem_map.mpr ⟨e, mem_filter.mpr ⟨mem_values_iff.mpr ⟨k, he⟩, hsv⟩, rfl⟩
        constructor
        · intro _
          rw [he', origins, Machine.collect_snoc _ takenOver]
          exact mem_append_right _ (mem_append_right _ hm)
        · have hpos : 0 < ((takenOver (machine.run ops) (.subscribeSuccessor o)
              (machine.outcome ops (.subscribeSuccessor o))).map Prod.snd).count e.window :=
            count_pos_iff.mpr (mem_map_of_mem hm)
          have hle : e'.mark ≤ 1 := by
            unfold Entry.mark
            split_ifs <;> simp
          rw [hw, log_snoc, hn, append_nil, timesTaken_snoc]
          omega
    · have hlog : log ops (openingEntry ⟨(machine.run ops).lastId + 1,
          (machine.run ops).lastIncarnation + 1⟩ o c).window = [] :=
        log_eq_nil (Nat.lt_succ_self _)
      constructor
      · intro _
        rw [origins, Machine.collect_snoc, ho]
        exact mem_append_left _ (mem_append_right _ (mem_singleton_self _))
      · rw [log_snoc, hlog, ho]
        simp [noted, openingEntry, adoptions, Entry.mark]

theorem liveWindows_nodup (hke : Keyed r) : r.liveWindows.Nodup := by
  have hv : r.entries.values.Pairwise fun d e => (d.owner, d.window) ≠ (e.owner, e.window) := by
    refine pairwise_map.mpr (r.entries.sorted.imp_of_mem fun {a b} ha hb hlt heq => ?_)
    have hid := congrArg WindowRef.id (Prod.mk.inj heq).2
    rw [hke.id_eq a.1 a.2 (mem_toList_iff.mp ha), hke.id_eq b.1 b.2 (mem_toList_iff.mp hb)] at hid
    exact hlt.ne hid
  exact pairwise_map.mpr (hv.filter _)

/-- Every live window was built for its owner or taken over by it. -/
theorem liveWindows_subset (ops : List WindowOp) : (machine.run ops).liveWindows ⊆ origins ops := by
  intro a ha
  obtain ⟨e, he, rfl⟩ := mem_map.mp ha
  obtain ⟨hm, hl⟩ := mem_filter.mp he
  obtain ⟨k, hk⟩ := mem_values_iff.mp hm
  rw [Bool.and_eq_true] at hl
  exact (adoptInv_run ops k e hk).origin hl.1

/-! ### Subscribing again -/

/-- Nothing on screen is without a live owner. -/
def NoSurvivors (r : WindowRegistry) : Prop :=
  ∀ k e, r.entries.get? k = some e → survives e = false

theorem noSurvivors_subscribe (o : WindowOwner) : NoSurvivors (r.subscribeSuccessor o) := by
  intro k e hk
  simp only [subscribeSuccessor, get?_map, Option.map_eq_some_iff] at hk
  obtain ⟨d, -, rfl⟩ := hk
  split_ifs with hs
  · simp [survives, takeOver]
  · simpa using hs

theorem NoSurvivors.subscribe (h : NoSurvivors r) (o : WindowOwner) : r.subscribeSuccessor o = r := by
  have he : r.entries.map (fun e => if survives e then takeOver o e else e) = r.entries := by
    refine ext_get? fun k => ?_
    rw [get?_map]
    cases hk : r.entries.get? k with
    | none => rfl
    | some e => simp [h k e hk]
  simp [subscribeSuccessor, he]

/-- Only a role loss leaves a window on screen without its owner. -/
theorem EntryStep.survives_false (h : EntryStep r op e e' notes) (hi : EntryInv r.ending cur k e)
    (hop : ∀ o, op ≠ .roleLost o) (hs : survives e = false) : survives e' = false := by
  cases h with
  | keep _ | claim _ _ | adopt _ _ _ | factClosing _ _ => exact hs
  | requestClose ha _ _ | veto ha _ => simp [WindowRegistry.survives, ha.live, Entry.requested, Entry.claimed]
  | built _ hp => simp [WindowRegistry.survives, (hi.opening _ hp).2.1]
  | fact hp _ | factPending hp _ | nativeClose hp _ _ =>
    simpa [WindowRegistry.survives, Entry.requested, hp, Phase.isLive] using hs
  | lost _ | spared _ => exact absurd rfl (hop _)
  | takeOver _ => rfl
  | destroyClosing _ hp _ =>
    simp [WindowRegistry.survives, Entry.claimed, hp, Phase.isLive]
  | allow _ _ | destroyOpen _ _ _ | destroyPending _ _ _ | cleanup _ _ | failed _ _
  | failedLate _ _ | released _ _ => exact Bool.and_false _
  | ended => cases hp : e.phase <;> simp [WindowRegistry.survives, endEntry, hp, Phase.isLive]

theorem noSurvivors_run {before after : List WindowOp} (h : Succession (before ++ after))
    (hn : NoSurvivors (machine.run before)) (hl : ∀ o, .roleLost o ∉ after) :
    NoSurvivors (machine.run (before ++ after)) := by
  induction after using reverseRecOn with
  | nil => rwa [append_nil]
  | append_singleton after op ih =>
    rw [← append_assoc] at h ⊢
    have hops := (Machine.guarded_snoc.mp h).1
    have hn := ih hops fun o ho => hl o (mem_append_left _ ho)
    intro k e' hk
    have hst := run_sound (before ++ after) op
    obtain ⟨e, he⟩ | ⟨-, -, -, -, o, c, wd, ht, x, y, -, -, -, rfl⟩ := step_key hst hk
    · obtain ⟨d, hd, hs⟩ := step_entry hst (keyed_run _) he
      cases hd.symm.trans hk
      refine hs.survives_false ((repInv_run hops).entry k e he) (fun o ho => ?_) (hn k e he)
      exact hl o (mem_append_right _ (mem_singleton.mpr ho.symm))
    · rfl

/-! ### Calls -/

theorem Admitted.entry (ha : Admitted r o w e) :
    r.admittedEntry o w = .ok (r.setEntry w.id e.claimed, e.claimed) := by
  have hf : (some e).filter (fun e => e.window == w && !e.phase.isDestroyed) = some e := by
    simp [ha.window_eq, ha.notDestroyed]
  simp [admittedEntry, requireReady, ha.ready, ha.notEnding, ha.get, hf, ha.live, ha.owner_eq,
    Entry.claimed]

theorem beginClose_adoptable (e : Entry) : (beginClose e).1.adoptable = e.adoptable := by
  unfold beginClose
  split
  · split <;> rfl
  all_goals rfl

/-- An admitted call clears the mark of its window, whatever it does beyond that. -/
theorem Admitted.clears (ha : Admitted r o w e) (hop : op.addressed = some (o, w)) :
    ∃ e', (r.step op).1.entries.get? w.id = some e' ∧ e'.adoptable = false := by
  suffices h : ∃ d, (r.step op).1 = r.setEntry w.id d ∧ d.adoptable = false by
    obtain ⟨d, hd, hm⟩ := h
    refine ⟨d, ?_, hm⟩
    rw [hd, get?_setEntry ha.get, if_pos rfl]
  cases op with
  | setMaximized | setFullScreen =>
    cases hop
    refine ⟨e.claimed, ?_, rfl⟩
    simp only [step, setMaximized, setFullScreen, admittedView, ha.entry]
    split <;> rfl
  | requestClose =>
    cases hop
    simp only [step, requestClose, ha.entry, setEntry_setEntry]
    split_ifs
    · exact ⟨e.claimed, rfl, rfl⟩
    · exact ⟨(beginClose e.claimed).1, rfl, beginClose_adoptable _⟩
  | closeReply _ _ seq v =>
    cases hop
    simp only [step, closeReply, ha.entry, setEntry_setEntry]
    split
    · split_ifs
      · exact ⟨e.claimed, rfl, rfl⟩
      · cases v <;> exact ⟨_, rfl, rfl⟩
    · exact ⟨e.claimed, rfl, rfl⟩
  | destroy =>
    cases hop
    simp only [step, destroy, ha.entry, setEntry_setEntry]
    split_ifs
    · exact ⟨e.claimed, rfl, rfl⟩
    · split <;> exact ⟨_, rfl, rfl⟩
  | _ => cases hop

/-- The adoptable window of `o` of lowest id. -/
def Lowest (r : WindowRegistry) (o : WindowOwner) (k : ℕ) (e : Entry) : Prop :=
  r.entries.get? k = some e ∧ adoptableBy o e = true ∧
    ∀ j d, r.entries.get? j = some d → adoptableBy o d = true → k ≤ j

/-- How a `Create` is answered by the registry `r`. -/
structure CreateLaw (r : WindowRegistry) (o : WindowOwner) (c : CorrelationId) (wd ht : ℕ)
    (x y : Option ℤ) : Prop where
  refused : ¬ (r.ready = true ∧ r.ending = false) →
    r.create o c wd ht x y = (r, .error .notReady)
  adopts : r.ready = true → r.ending = false → ∀ k e, Lowest r o k e →
    r.create o c wd ht x y = (r.setEntry k e.claimed, .ok (.adopted e.window))
  builds : r.ready = true → r.ending = false →
    (∀ k e, r.entries.get? k = some e → adoptableBy o e = false) →
    r.entries.length < proposedMaxCumulativeWindowIds →
    r.create o c wd ht x y =
      ({ r with
          lastId := r.lastId + 1
          lastIncarnation := r.lastIncarnation + 1
          entries := r.entries.insert (r.lastId + 1)
            (openingEntry ⟨r.lastId + 1, r.lastIncarnation + 1⟩ o c) },
        .ok (.build (r.lastIncarnation + 1) ⟨r.lastId + 1, r.lastIncarnation + 1⟩ wd ht x y))
  full : r.ready = true → r.ending = false →
    (∀ k e, r.entries.get? k = some e → adoptableBy o e = false) →
    proposedMaxCumulativeWindowIds ≤ r.entries.length →
    r.create o c wd ht x y = (r, .error .sessionWindowCapacity)

theorem RepInv.createLaw (hi : RepInv cur r) (c : CorrelationId) (wd ht : ℕ) (x y : Option ℤ) :
    CreateLaw r o c wd ht x y := by
  have hcap := hi.capacity
  have hid : checkedSucc32 r.lastId = some (r.lastId + 1) := by
    refine if_pos ?_
    rw [hi.lastId_eq]
    exact (Nat.succ_le_succ hcap).trans_lt (by decide)
  have hinc : checkedSucc64 r.lastIncarnation = some (r.lastIncarnation + 1) := by
    refine if_pos ?_
    rw [hi.lastIncarnation_eq]
    exact (Nat.succ_le_succ hcap).trans_lt (by decide)
  have hno : (∀ k e, r.entries.get? k = some e → adoptableBy o e = false) →
      r.entries.find? (adoptableBy o) = none := by
    intro hn
    cases hf : r.entries.find? (adoptableBy o) with
    | none => rfl
    | some a =>
      obtain ⟨hg, ha⟩ := OrdMap.find?_eq_some (k := a.1) (v := a.2) hf
      exact absurd ha (by simp [hn _ _ hg])
  constructor
  · intro hn
    simp [create, requireReady, hn]
  · intro hr he k e ⟨hk, hp, hl⟩
    simp [create, requireReady, hr, he, find?_of_lowest hk hp hl, Entry.claimed]
  · intro hr he hn hlt
    simp [create, requireReady, hr, he, hno hn, hid, hinc, Nat.not_le.mpr hlt]
  · intro hr he hn hle
    simp [create, requireReady, hr, he, hno hn, hid, hinc, hle]

/-! ## Adoption, in every run -/

/-- What adoption is like in the registry that a run reaches. -/
structure AdoptionLaw (ops : List WindowOp) : Prop where
  create : ∀ o c wd ht x y, CreateLaw (machine.run ops) o c wd ht x y
  /-- A window is adopted at most once for each time it is taken over. -/
  adoptions : ∀ k e, (machine.run ops).entries.get? k = some e →
    (adoptions (log ops e.window)).length + e.mark ≤ timesTaken ops e.window
  claimed : ∀ op o w e, Admitted (machine.run ops) o w e → op.addressed = some (o, w) →
    ∃ e', (machine.run (ops ++ [op])).entries.get? w.id = some e' ∧ e'.adoptable = false
  /-- Only a take-over of an `Open` survivor sets a mark. -/
  marked : ∀ op k e e', (machine.run ops).entries.get? k = some e →
    (machine.run (ops ++ [op])).entries.get? k = some e' → e.adoptable = false →
    e'.adoptable = true →
    ∃ o native, op = .subscribeSuccessor o ∧ survives e = true ∧ e.phase = .opened native
  again : ∀ before after o, ops = before ++ .subscribeSuccessor o :: after →
    (∀ o', .roleLost o' ∉ after) →
    machine.run (ops ++ [.subscribeSuccessor o]) = machine.run ops
  live : ∀ o, (machine.run ops).liveWindows.countP (·.1 = o) ≤
    (machine.collect builtFor ops).countP (·.1 = o)
      + (machine.collect takenOver ops).countP (·.1 = o)

theorem adoption_law (ops : List WindowOp) (howners : Succession ops) : AdoptionLaw ops where
  create _ := (repInv_run howners).createLaw
  adoptions k e hk := (adoptInv_run ops k e hk).spent
  claimed op o w e ha hop := by
    rw [machine.run_snoc]
    exact ha.clears hop
  marked op k e e' hk hk' := by
    obtain ⟨d, hd, hs⟩ := step_entry (run_sound ops op) (keyed_run ops) hk
    cases hd.symm.trans hk'
    exact hs.markStep.marked
  again before after o ho hl := by
    rw [append_cons] at ho
    have hn : NoSurvivors (machine.run (before ++ [.subscribeSuccessor o])) := by
      rw [machine.run_snoc]
      exact noSurvivors_subscribe o
    rw [machine.run_snoc]
    refine NoSurvivors.subscribe ?_ o
    rw [ho] at howners ⊢
    exact noSurvivors_run howners hn hl
  live o := by
    rw [← countP_append]
    exact (subperm_of_subset (liveWindows_nodup (keyed_run ops)) (liveWindows_subset ops)).countP_le _

theorem handover_adoption : AdoptionLaw handover :=
  adoption_law handover handover_succession

/-- A window that outlives two losses is adopted by each successor. -/
def twoLosses : List WindowOp :=
  handover.take 4 ++ [.roleLost ⟨10, 1⟩, .subscribeSuccessor ⟨11, 2⟩,
    .create ⟨11, 2⟩ 2 800 600 none none, .roleLost ⟨11, 2⟩, .subscribeSuccessor ⟨12, 3⟩,
    .create ⟨12, 3⟩ 3 800 600 none none]

theorem twoLosses_adopts_twice :
    Succession twoLosses ∧ ¬ (adoptions (log twoLosses ⟨1, 1⟩)).length ≤ 1 :=
  ⟨succession_of_check (by decide), by decide⟩

end Keld.Window
