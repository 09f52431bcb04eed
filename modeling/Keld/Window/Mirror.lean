/-
# `Keld.Window.Mirror` — the app's mirror agrees with the registry

A subscribing owner is replayed one `Created` fact for each window on screen that is
now its own, and from then on is sent every fact addressed to it.  The facade folds
the facts (`Mirror.apply`), and clears a pending close itself when its own `CloseReply`
is applied.

A mirror at one window depends on what was said about that window only
(`foldl_apply_at`), so the agreement is proved entry by entry: `MirrorInv e inputs`.
The recovery gap needs no case of its own: the replay at the subscription is where the
invariant starts.

The app's `WindowSource` fails at the first fact it does not expect; it expects all it is sent.
-/
import Keld.Window.Invariant
import Keld.Window.SourceLaw

namespace Keld.Window

open WindowRegistry List Phase

/-! ## The mirror -/

/-- What an app keeps of one window. -/
structure MirrorWindow where
  state : WindowState
  pendingClose : Option ℕ
deriving DecidableEq, Repr

/-- What changes a mirror: a delivered fact, or the app's own applied `CloseReply`. -/
inductive MirrorInput where
  | fact (event : WindowEvent)
  | replied (window : WindowRef) (closeSeq : ℕ)
deriving DecidableEq, Repr

def MirrorInput.window : MirrorInput → WindowRef
  | .fact event => event.window
  | .replied w _ => w

/-- An input about a window the app already knows and still has. -/
def MirrorInput.routine : MirrorInput → Bool
  | .fact (.created _ _ _) | .fact (.destroyed _) => false
  | _ => true

/-- The mirror of one window after one input about it. -/
def mirrorStep (x : Option MirrorWindow) : MirrorInput → Option MirrorWindow
  | .fact (.created _ state pending) => some ⟨state, pending⟩
  | .fact (.bounds _ bounds) => x.map (fun m => { m with state := { m.state with bounds } })
  | .fact (.focus _ focused) => x.map (fun m => { m with state := { m.state with focused } })
  | .fact (.maximized _ maximized) =>
    x.map (fun m => { m with state := { m.state with maximized } })
  | .fact (.fullScreen _ fullScreen) =>
    x.map (fun m => { m with state := { m.state with fullScreen } })
  | .fact (.closeRequested _ seq) => x.map (fun m => { m with pendingClose := some seq })
  | .fact (.destroyed _) => none
  | .replied _ seq =>
    x.map (fun m => if m.pendingClose = some seq then { m with pendingClose := none } else m)

abbrev Mirror := WindowRef → Option MirrorWindow

def Mirror.empty : Mirror := fun _ => none

/-- One input changes the mirror at the window it is about. -/
def Mirror.apply (m : Mirror) (i : MirrorInput) : Mirror :=
  fun w => if i.window = w then mirrorStep (m w) i else m w

/-- The inputs about one window. -/
def inputsAbout (w : WindowRef) (is : List MirrorInput) : List MirrorInput :=
  is.filter (fun i => i.window = w)

@[simp] theorem inputsAbout_append (w : WindowRef) (is js : List MirrorInput) :
    inputsAbout w (is ++ js) = inputsAbout w is ++ inputsAbout w js := by
  simp [inputsAbout]

/-! ## What is delivered -/

/-- The input to `o`'s mirror in one note about the window `w`. -/
def noteInput (o : WindowOwner) (op : WindowOp) (w : WindowRef) : Note → Option MirrorInput
  | .fact fact => if fact.owner = o then some (.fact fact.event) else none
  | .closeSettled seq how =>
    if how ≠ .abandoned ∧ op.caller = some o then some (.replied w seq) else none
  | _ => none

/-- The inputs to `o`'s mirror in one operation: facts addressed to it, and its applied reply. -/
def mirroredBy (o : WindowOwner) (r : WindowRegistry) (op : WindowOp) (out : WindowOutcome) :
    List MirrorInput :=
  (noted r op out).filterMap (fun n => noteInput o op n.1 n.2)

/-- Everything delivered to `o` from its subscription after `pre` to the end of `post`: the replay,
then the inputs of each operation. -/
def delivered (pre : List WindowOp) (o : WindowOwner) (post : List WindowOp) :
    List MirrorInput :=
  ((machine.run (pre ++ [.subscribeSuccessor o])).replay o).map .fact ++
    machine.collectFrom (mirroredBy o) (machine.run (pre ++ [.subscribeSuccessor o])) post

variable {r : WindowRegistry} {op : WindowOp} {e e' : Entry} {notes : List Note}
  {cur : Option WindowOwner} {k : ℕ} {fact : OwnedWindowEvent} {is : List MirrorInput}
  {o : WindowOwner} {pre : List WindowOp}

/-- A fact is about the window that changes, and goes to the live owner of it. -/
theorem EntryStep.fact_owner (h : EntryStep r op e e' notes) (hi : EntryInv r.ending cur k e)
    (hf : .fact fact ∈ notes) :
    fact.owner = e.owner ∧ e.ownerLive = true ∧ fact.event.window = e.window := by
  have hreq : ∀ {seq : ℕ}, .fact fact ∈ requestNotes seq (e.requestFact seq) →
      fact.owner = e.owner ∧ e.ownerLive = true ∧ fact.event.window = e.window := by
    intro seq hm
    unfold requestNotes Entry.requestFact at hm
    split_ifs at hm with hl
    · simp only [Option.toList_some, map_cons, map_nil, mem_cons, reduceCtorEq,
        Note.fact.injEq, not_mem_nil, or_false, false_or] at hm
      rw [hm]
      exact ⟨rfl, hl, rfl⟩
    · simp at hm
  have hst : ∀ {f : NativeFact} {state : WindowState},
      .fact fact ∈ e.factNotes (f.update e.window state).2 →
      fact.owner = e.owner ∧ e.ownerLive = true ∧ fact.event.window = e.window := by
    intro f state hm
    unfold Entry.factNotes at hm
    split_ifs at hm with hl
    · simp only [mem_map, Option.mem_toList, Note.fact.injEq] at hm
      obtain ⟨event, hev, rfl⟩ := hm
      exact ⟨rfl, hl, update_window hev⟩
    · cases hm
  cases h with
  | keep _ | claim _ _ | failedLate _ _ | factClosing _ _ | takeOver _ => cases hf
  | adopt _ _ _ | cleanup _ _ | spared _ | veto _ _ | destroyClosing _ _ _ =>
    simp at hf
  | allow | destroyOpen | destroyPending | lost => simp at hf
  | requestClose _ _ _ | nativeClose _ _ _ => exact hreq hf
  | built _ hp =>
    obtain ⟨ho, hli, -⟩ := hi.opening _ hp
    simp only [mem_cons, Note.fact.injEq, reduceCtorEq, not_mem_nil, or_false] at hf
    rw [hf]
    exact ⟨ho, hli, rfl⟩
  | failed _ _ =>
    split_ifs at hf
    · simp at hf
    · cases hf
  | fact _ _ | factPending _ _ => exact hst hf
  | released _ _ =>
    unfold Entry.destroyedFact at hf
    split_ifs at hf with hc
    · simp only [Bool.and_eq_true] at hc
      simp only [Option.toList_some, map_cons, map_nil, cons_append,
        nil_append, mem_cons, Note.fact.injEq, reduceCtorEq, not_mem_nil,
        or_false] at hf
      rw [hf]
      exact ⟨rfl, hc.2, rfl⟩
    · simp at hf
  | ended =>
    obtain ⟨effect, -, he⟩ := mem_map.mp hf
    cases effect <;> cases he

/-- Every fact in a note is about the window it is noted under, and goes to a live owner. -/
theorem noted_fact {r' : WindowRegistry} {out : WindowOutcome} (hi : RepInv cur r)
    (h : Step r op r' out) {w : WindowRef} (hn : (w, .fact fact) ∈ noted r op out) :
    fact.event.window = w ∧ ∃ k e, r.entries.get? k = some e ∧ e.window = w ∧
      e.owner = fact.owner ∧ e.ownerLive = true := by
  have hen : (∃ k e, r.entries.get? k = some e ∧ e.window = w) → fact.event.window = w ∧
      ∃ k e, r.entries.get? k = some e ∧ e.window = w ∧ e.owner = fact.owner ∧
        e.ownerLive = true := by
    rintro ⟨k, e, hk, rfl⟩
    obtain ⟨e', -, hs⟩ := step_entry h hi.keyed hk
    have hm : Note.fact fact ∈ notesOf e.window (noted r op out) :=
      mem_filterMap.mpr ⟨_, hn, by simp⟩
    obtain ⟨h1, h2, h3⟩ := hs.fact_owner (hi.entry k e hk) hm
    exact ⟨h3, k, e, hk, rfl, h1.symm, h2⟩
  rcases noted_window h hn with hw | ⟨k, e', hk', hw⟩
  · exact hen hw
  · rcases step_key h hk' with ⟨e, he⟩ | ⟨rfl, -, -, -, o, c, wd, ht, x, y, rfl, rfl, -, rfl⟩
    · obtain ⟨e'', he'', hs⟩ := step_entry h hi.keyed he
      cases he''.symm.trans hk'
      exact hen ⟨k, e, he, hs.window_eq.symm.trans hw⟩
    · simp [noted] at hn

/-- The inputs about one window are read off the notes under it. -/
theorem inputsAbout_notes (o : WindowOwner) (op : WindowOp) (w : WindowRef) :
    ∀ (ns : List (WindowRef × Note)), (∀ v fact, (v, .fact fact) ∈ ns → fact.event.window = v) →
      inputsAbout w (ns.filterMap (fun n => noteInput o op n.1 n.2)) =
        (notesOf w ns).filterMap (noteInput o op w)
  | [], _ => rfl
  | (v, n) :: ns, h => by
    have ih := inputsAbout_notes o op w ns (fun v fact hm => h v fact (mem_cons_of_mem _ hm))
    have hw : ∀ i, noteInput o op v n = some i → i.window = v := by
      intro i hi
      cases n with
      | fact fact =>
        simp only [noteInput] at hi
        split_ifs at hi
        cases hi
        exact h v fact mem_cons_self
      | closeSettled seq how =>
        simp only [noteInput] at hi
        split_ifs at hi
        cases hi
        rfl
      | _ => cases hi
    by_cases hv : v = w
    · subst hv
      rw [notesOf_cons_self]
      cases hn : noteInput o op v n with
      | none =>
        rw [filterMap_cons_none hn, filterMap_cons_none (by exact hn)]
        exact ih
      | some i =>
        rw [filterMap_cons_some hn, filterMap_cons_some (by exact hn), ← ih]
        simp [inputsAbout, hw i hn]
    · have hsk : notesOf w ((v, n) :: ns) = notesOf w ns := by simp [notesOf, hv]
      rw [hsk, ← ih]
      cases hn : noteInput o op v n with
      | none => rw [filterMap_cons_none (by exact hn)]
      | some i =>
        rw [filterMap_cons_some (by exact hn)]
        simp [inputsAbout, hw i hn, hv]

/-! ## The invariant -/

/-- An entry against what its owner was told about its window since the subscription. -/
structure MirrorInv (e : Entry) (is : List MirrorInput) : Prop where
  /-- Every window on screen is owned: the subscription took over what there was. -/
  screen : e.phase.isLive = true → e.ownerLive = true
  silent : e.ownerLive = false ∨ e.created = false → is = []
  told : e.created = true → e.ownerLive = true → ∃ state pending rest,
    (∀ i ∈ rest, i.routine = true) ∧
      is = .fact (.created e.window state pending) :: (rest ++
        if e.phase.isDestroyed then [.fact (.destroyed e.window)] else [])
  opened : ∀ native, e.phase = .opened native →
    is.foldl mirrorStep none = some ⟨native.state, none⟩
  closePending : ∀ native seq, e.phase = .closePending native seq →
    is.foldl mirrorStep none = some ⟨native.state, some seq⟩

/-- Nothing was said, and nothing on screen changed. -/
theorem MirrorInv.quiet (hm : MirrorInv e is) (hw : e'.window = e.window)
    (hc : e'.created = e.created) (hl : e'.ownerLive = e.ownerLive)
    (hd : e'.phase.isDestroyed = e.phase.isDestroyed)
    (hp : e'.phase = e.phase ∨ e'.phase.isLive = false) : MirrorInv e' is where
  screen := by
    intro hli
    rcases hp with hp | hp
    · rw [hl]
      exact hm.screen (hp ▸ hli)
    · simp [hp] at hli
  silent := by
    rw [hl, hc]
    exact hm.silent
  told := by
    rw [hl, hc, hw, hd]
    exact hm.told
  opened := by
    intro native hn
    rcases hp with hp | hp
    · exact hm.opened native (hp ▸ hn)
    · simp [hn, isLive] at hp
  closePending := by
    intro native seq hn
    rcases hp with hp | hp
    · exact hm.closePending native seq (hp ▸ hn)
    · simp [hn, isLive] at hp

theorem MirrorInv.unborn (hc : e.created = false) (hp : e.phase.isLive = false) :
    MirrorInv e [] where
  screen := by simp [hp]
  silent := fun _ => rfl
  told := by simp [hc]
  opened := by intro native hn; simp [hn, isLive] at hp
  closePending := by intro native seq hn; simp [hn, isLive] at hp

/-- Routine news about a window its owner has. -/
theorem MirrorInv.news {news : List MirrorInput} (hm : MirrorInv e is) (hw : e'.window = e.window)
    (hc : e'.created = true) (hl : e'.ownerLive = true) (hce : e.created = true)
    (hle : e.ownerLive = true) (hd : e.phase.isDestroyed = false)
    (hd' : e'.phase.isDestroyed = false) (hne : ∀ i ∈ news, i.routine = true)
    (hop : ∀ native, e'.phase = .opened native →
      (is ++ news).foldl mirrorStep none = some ⟨native.state, none⟩)
    (hp : ∀ native seq, e'.phase = .closePending native seq →
      (is ++ news).foldl mirrorStep none = some ⟨native.state, some seq⟩) :
    MirrorInv e' (is ++ news) where
  screen := fun _ => hl
  silent := by simp [hl, hc]
  told := by
    intro _ _
    obtain ⟨state, pending, rest, hr, his⟩ := hm.told hce hle
    refine ⟨state, pending, rest ++ news, ?_, ?_⟩
    · intro i hi
      rcases mem_append.mp hi with hi | hi
      · exact hr i hi
      · exact hne i hi
    · rw [his, hd, hd', hw]
      simp
  opened := hop
  closePending := hp

/-- A close request of a window its owner has. -/
theorem MirrorInv.request {native : NativeWindow} {seq : ℕ} (hm : MirrorInv e is)
    (hp : e.phase = .opened native) (hc : e.created = true) (hl : e.ownerLive = true)
    (hw : e'.window = e.window) (hc' : e'.created = true) (hl' : e'.ownerLive = true)
    (hp' : e'.phase = .closePending native seq) :
    MirrorInv e' (is ++ [.fact (.closeRequested e.window seq)]) := by
  refine hm.news hw hc' hl' hc hl (by simp [hp, isDestroyed])
    (by simp [hp', isDestroyed]) (by simp [MirrorInput.routine]) ?_ ?_
  · intro native' hn
    simp [hp'] at hn
  · intro native' seq' hn
    obtain ⟨rfl, rfl⟩ := closePending.inj (hp'.symm.trans hn)
    rw [foldl_append, hm.opened _ hp]
    rfl

/-- The last news: the window is gone. -/
theorem MirrorInv.gone (hm : MirrorInv e is) (hw : e'.window = e.window) (hc : e.created = true)
    (hl : e.ownerLive = true) (hc' : e'.created = true) (hl' : e'.ownerLive = true)
    (hd : e.phase.isDestroyed = false) (hd' : e'.phase.isDestroyed = true) :
    MirrorInv e' (is ++ [.fact (.destroyed e.window)]) where
  screen := fun _ => hl'
  silent := by simp [hl', hc']
  told := by
    intro _ _
    obtain ⟨state, pending, rest, hr, his⟩ := hm.told hc hl
    exact ⟨state, pending, rest, hr, by simp [his, hd, hd', hw]⟩
  opened := by intro native hn; simp [hn, isDestroyed] at hd'
  closePending := by intro native seq hn; simp [hn, isDestroyed] at hd'

/-- A delivered state fact makes the change the registry made. -/
theorem mirrorStep_update (f : NativeFact) (w : WindowRef) (state : WindowState)
    (pending : Option ℕ) :
    ((f.update w state).2.toList.map .fact).foldl mirrorStep (some ⟨state, pending⟩) =
      some ⟨(f.update w state).1, pending⟩ := by
  cases f with
  | bounds rect =>
    simp only [NativeFact.update, updateBounds]
    split_ifs <;> rfl
  | focus value =>
    simp only [NativeFact.update, updateFocus]
    split_ifs <;> rfl
  | maximized value =>
    simp only [NativeFact.update, updateMaximized]
    split_ifs <;> rfl
  | fullScreen value =>
    simp only [NativeFact.update, updateFullScreen]
    split_ifs <;> rfl

theorem update_routine (f : NativeFact) (w : WindowRef) (state : WindowState) :
    ∀ i ∈ (f.update w state).2.toList.map MirrorInput.fact, i.routine = true := by
  intro i hi
  obtain ⟨event, hev, rfl⟩ := mem_map.mp hi
  cases f <;> simp only [NativeFact.update, updateBounds, updateFocus, updateMaximized,
    updateFullScreen] at hev <;> split_ifs at hev <;>
    simp only [Option.toList_none, Option.toList_some, not_mem_nil,
      mem_singleton] at hev <;> subst hev <;> rfl

theorem factNotes_inputs (op : WindowOp) (hl : e.ownerLive = true) (ho : e.owner = o)
    (event : Option WindowEvent) :
    (e.factNotes event).filterMap (noteInput o op e.window) = event.toList.map .fact := by
  cases event <;> simp [Entry.factNotes, hl, noteInput, ho]

theorem requestNotes_inputs (op : WindowOp) (hl : e.ownerLive = true) (ho : e.owner = o) (seq : ℕ) :
    (requestNotes seq (e.requestFact seq)).filterMap (noteInput o op e.window) =
      [.fact (.closeRequested e.window seq)] := by
  subst ho
  simp [requestNotes, Entry.requestFact, hl, filterMap_cons, noteInput]

/-- **The mirror follows every step of an entry**, while its owner is not lost. -/
theorem MirrorInv.step (hm : MirrorInv e is) (hi : EntryInv r.ending (some o) k e)
    (hlo : op ≠ .roleLost o) (h : EntryStep r op e e' notes) :
    MirrorInv e' (is ++ notes.filterMap (noteInput o op e.window)) := by
  have how : e.ownerLive = true → e.owner = o := by
    intro hl
    exact (Option.some.inj (hi.live hl)).symm
  have hsc : e.phase.isLive = true → e.ownerLive = true ∧ e.owner = o ∧ e.created = true := by
    intro hp
    exact ⟨hm.screen hp, how (hm.screen hp), hi.created hp⟩
  -- steps that deliver nothing
  have hno : notes.filterMap (noteInput o op e.window) = [] → MirrorInv e' is →
      MirrorInv e' (is ++ notes.filterMap (noteInput o op e.window)) := by
    intro hni hq
    rwa [hni, append_nil]
  cases h with
  | keep _ => exact hno rfl hm
  | claim _ _ | adopt _ _ _ | factClosing _ _ | spared _ | destroyClosing _ _ _ =>
    exact hno rfl (hm.quiet rfl rfl rfl rfl (.inl rfl))
  | requestClose ha hp hlt | nativeClose hp _ hlt =>
    obtain ⟨hl, ho, hc⟩ := hsc (isLive_opened hp)
    rw [requestNotes_inputs _ hl ho]
    exact hm.request hp hc hl rfl hc hl rfl
  | @veto o' w _ native seq ha hp =>
    obtain ⟨hl, ho, hc⟩ := hsc (isLive_closePending hp)
    have hcl : o' = o := ha.owner_eq.symm.trans ho
    have hin : [Note.closeSettled seq .vetoed].filterMap
        (noteInput o (.closeReply o' w seq .veto) e.window) = [.replied e.window seq] := by
      simp [noteInput, WindowOp.caller, hcl]
    rw [hin]
    refine hm.news rfl hc hl hc hl (by simp [hp, isDestroyed]) rfl
      (by simp [MirrorInput.routine]) ?_ ?_
    · intro native' hn
      cases hn
      rw [foldl_append, hm.closePending _ _ hp]
      simp [mirrorStep]
    · intro native' seq' hn
      cases hn
  | @allow o' w _ native seq ha hp =>
    obtain ⟨hl, ho, hc⟩ := hsc (isLive_closePending hp)
    have hcl : o' = o := ha.owner_eq.symm.trans ho
    have hin : [Note.closeSettled seq .allowed, Note.teardown native.view].filterMap
        (noteInput o (.closeReply o' w seq .allow) e.window) = [.replied e.window seq] := by
      simp [filterMap_cons, noteInput, WindowOp.caller, hcl]
    rw [hin]
    refine hm.news rfl hc hl hc hl (by simp [hp, isDestroyed]) rfl
      (by simp [MirrorInput.routine]) ?_ ?_
    · intro native' hn
      cases hn
    · intro native' seq' hn
      cases hn
  | destroyOpen _ hp _ =>
    exact hno rfl (hm.quiet rfl rfl rfl (by simp [hp, Entry.destroying, isDestroyed]) (.inr rfl))
  | destroyPending _ hp _ =>
    refine hno ?_ (hm.quiet rfl rfl rfl (by simp [hp, Entry.destroying, isDestroyed]) (.inr rfl))
    simp [filterMap_cons, noteInput]
  | @built b view state _ call _ hp =>
    obtain ⟨hca, hl, hc, -⟩ := hi.opening _ hp
    have hni := hm.silent (.inr hc)
    have hin : [Note.fact ⟨call.owner, .created e.window state none⟩,
        Note.createAnswered .created call].filterMap
        (noteInput o (.nativeBuilt b view state) e.window) =
        [.fact (.created e.window state none)] := by
      simp [filterMap_cons, noteInput, hca, how hl]
    rw [hin, hni]
    refine ⟨fun _ => hl, ?_, ?_, ?_, ?_⟩
    · simp [hl]
    · intro _ _
      exact ⟨state, none, [], by simp, by simp [isDestroyed]⟩
    · intro native hn
      cases hn
      rfl
    · intro native seq hn
      cases hn
  | cleanup _ hp =>
    exact hno rfl (hm.quiet rfl rfl rfl (by simp [hp, isDestroyed]) (.inr rfl))
  | failed _ hp =>
    obtain ⟨-, -, hc, -⟩ := hi.opening _ hp
    refine hno (by split_ifs <;> rfl) ?_
    rw [hm.silent (.inr hc)]
    exact MirrorInv.unborn hc rfl
  | failedLate _ hp =>
    have hc := (hi.late hp).1
    refine hno rfl ?_
    rw [hm.silent (.inr hc)]
    exact MirrorInv.unborn hc rfl
  | @fact view _ native f hp _ =>
    obtain ⟨hl, ho, hc⟩ := hsc (isLive_opened hp)
    rw [factNotes_inputs _ hl ho]
    refine hm.news rfl hc hl hc hl (by simp [hp, isDestroyed]) rfl
      (update_routine f e.window native.state) ?_ ?_
    · intro native' hn
      cases hn
      rw [foldl_append, hm.opened _ hp]
      exact mirrorStep_update f e.window native.state none
    · intro native' seq hn
      cases hn
  | @factPending view _ native seq f hp _ =>
    obtain ⟨hl, ho, hc⟩ := hsc (isLive_closePending hp)
    rw [factNotes_inputs _ hl ho]
    refine hm.news rfl hc hl hc hl (by simp [hp, isDestroyed]) rfl
      (update_routine f e.window native.state) ?_ ?_
    · intro native' hn
      cases hn
    · intro native' seq' hn
      cases hn
      rw [foldl_append, hm.closePending _ _ hp]
      exact mirrorStep_update f e.window native.state (some seq)
  | @released view _ native hp _ =>
    have hin : (e.destroyedFact.toList.map Note.fact ++
        [Note.destroysAnswered e.destroyCalls]).filterMap
        (noteInput o (.nativeReleased view) e.window) =
        if e.created && e.ownerLive then [.fact (.destroyed e.window)] else [] := by
      unfold Entry.destroyedFact
      split_ifs with hbo
      · simp only [Bool.and_eq_true] at hbo
        simp [noteInput, how hbo.2]
      · simp [noteInput]
    rw [hin]
    split_ifs with hbo
    · simp only [Bool.and_eq_true] at hbo
      exact hm.gone rfl hbo.1 hbo.2 hbo.1 hbo.2 (by simp [hp, isDestroyed]) rfl
    · -- a window never shown, or of a lost generation: its owner hears nothing of it
      have hsil : e.ownerLive = false ∨ e.created = false := by
        cases hc : e.created <;> cases hl : e.ownerLive <;> simp_all
      rw [hm.silent hsil, append_nil]
      refine ⟨fun hli => ?_, fun _ => rfl, ?_, ?_, ?_⟩
      · cases hli
      · intro hc hl
        exact absurd (by simp [show e.created = true from hc, show e.ownerLive = true from hl]) hbo
      · intro native hn
        cases hn
      · intro native seq hn
        cases hn
  | @lost o' _ hl =>
    simp only [losesRole, Bool.and_eq_true, beq_iff_eq] at hl
    exact absurd (by rw [← hl.1, how hl.2]) hlo
  | takeOver hs =>
    simp only [survives, Bool.and_eq_true, Bool.not_eq_true'] at hs
    have := hm.screen hs.2
    simp [hs.1] at this
  | ended =>
    have hin : ((endEffects e).map SessionEffect.note).filterMap
        (noteInput o .sessionEnd e.window) = [] := by
      cases hp : e.phase <;> simp [endEffects, hp, SessionEffect.note, noteInput]
    refine hno hin (hm.quiet rfl rfl rfl ?_ (.inr ?_))
    · cases hp : e.phase <;> simp [endEntry, hp, isDestroyed]
    · cases hp : e.phase <;> simp [endEntry, hp, isLive]

/-! ## Every run -/

theorem inputsAbout_eq_filterMap (w : WindowRef) (is : List MirrorInput) :
    inputsAbout w is = is.filterMap (fun i => if i.window = w then some i else none) := by
  rw [inputsAbout, ← filterMap_eq_filter]
  congr 1
  funext i
  simp [Option.guard]

theorem replayEvent_window {event : WindowEvent} (h : replayEvent o e = some event) :
    event.window = e.window := by
  unfold replayEvent at h
  split at h
  · split_ifs at h
    cases h
    rfl
  · split_ifs at h
    cases h
    rfl
  · cases h

/-- The replay says at most one thing about a window. -/
theorem inputsAbout_replay (hke : Keyed r) (o : WindowOwner) (hk : r.entries.get? k = some e) :
    inputsAbout e.window ((r.replay o).map .fact) = (replayEvent o e).toList.map .fact := by
  have hre : (r.replay o).map MirrorInput.fact =
      r.entries.values.flatMap (fun e => (replayEvent o e).toList.map .fact) := by
    rw [replay, map_filterMap, filterMap_eq_flatMap_toList]
    refine flatMap_congr (fun e _ => ?_)
    cases replayEvent o e <;> rfl
  rw [inputsAbout_eq_filterMap, hre, OrdMap.filterMap_flatMap_values hk]
  · cases he : replayEvent o e with
    | none => rfl
    | some event => simp [MirrorInput.window, replayEvent_window he]
  · intro j d hj hne
    cases hd : replayEvent o d with
    | none => rfl
    | some event =>
      have hw : ¬ d.window = e.window := (hke.window_ne hk hj hne).symm
      simp [MirrorInput.window, replayEvent_window hd, hw]

/-- What a taken-over window is replayed as. -/
theorem replayEvent_takeOver (h : e.phase.isLive = true) :
    ∃ native, e.view = some native.view ∧
      replayEvent o (takeOver o e) = some (.created e.window native.state e.phase.pendingClose) ∧
      (e.phase = .opened native ∨ ∃ seq, e.phase = .closePending native seq) := by
  cases hp : e.phase with
  | opened native =>
    exact ⟨native, by simp [Entry.view, hp], by simp [replayEvent, takeOver, hp], .inl rfl⟩
  | closePending native seq =>
    exact ⟨native, by simp [Entry.view, hp], by simp [replayEvent, takeOver, hp], .inr ⟨seq, rfl⟩⟩
  | _ => simp [hp, isLive] at h

/-- At the subscription of the first owner after a gap, every window on screen is taken over and
replayed. -/
theorem mirrorInv_subscribe (hpre : Succession pre) (hf : currentOwner pre = none) :
    ∀ k e, (machine.run (pre ++ [.subscribeSuccessor o])).entries.get? k = some e →
      MirrorInv e (inputsAbout e.window (delivered pre o [])) := by
  have hi := repInv_run hpre
  rw [hf] at hi
  intro k e' hk
  have hab : inputsAbout e'.window (delivered pre o []) = (replayEvent o e').toList.map .fact := by
    rw [delivered, Machine.collectFrom, append_nil]
    exact inputsAbout_replay (keyed_run _) o hk
  rw [hab]
  have hr : machine.run (pre ++ [.subscribeSuccessor o]) =
      (machine.run pre).subscribeSuccessor o := Machine.run_snoc _ _ _
  rw [hr, subscribeSuccessor, OrdMap.get?_map, Option.map_eq_some_iff] at hk
  obtain ⟨e, he, rfl⟩ := hk
  have hinv := hi.entry k e he
  -- nobody is live before the subscription
  have hde : e.ownerLive = false := by
    cases hl : e.ownerLive with
    | false => rfl
    | true => cases hinv.live hl
  split_ifs with hs
  · have hli : e.phase.isLive = true := by
      simp only [survives, Bool.and_eq_true] at hs
      exact hs.2
    obtain ⟨native, -, hre, hph⟩ := replayEvent_takeOver (o := o) hli
    rw [hre]
    refine ⟨fun _ => rfl, ?_, ?_, ?_, ?_⟩
    · rintro (h | h)
      · cases h
      · exact absurd (h.symm.trans (hinv.created hli)) (by simp)
    · intro _ _
      refine ⟨native.state, e.phase.pendingClose, [], by simp, ?_⟩
      have hd : (takeOver o e).phase.isDestroyed = false := by
        rcases hph with hp | ⟨seq, hp⟩ <;> simp [takeOver, hp, isDestroyed]
      rw [hd]
      rfl
    · intro native' hn
      rcases hph with hp | ⟨seq, hp⟩
      · obtain rfl := opened.inj (hp.symm.trans hn)
        simp [mirrorStep, hp, pendingClose]
      · exact absurd (hp.symm.trans hn) (by simp)
    · intro native' seq' hn
      rcases hph with hp | ⟨seq, hp⟩
      · exact absurd (hp.symm.trans hn) (by simp)
      · obtain ⟨rfl, rfl⟩ := closePending.inj (hp.symm.trans hn)
        simp [mirrorStep, hp, pendingClose]
  · have hoff : e.phase.isLive = false := by
      simpa [survives, hde] using hs
    have hno : replayEvent o e = none := by
      cases hp : e.phase <;> simp [replayEvent, hp, hde]
    rw [hno]
    refine ⟨?_, fun _ => rfl, ?_, ?_, ?_⟩
    · intro h
      simp [hoff] at h
    · intro _ h
      simp [hde] at h
    · intro native hn
      simp [hn, isLive] at hoff
    · intro native seq hn
      simp [hn, isLive] at hoff

/-- Only windows of the registry are ever mirrored. -/
theorem window_of_delivered :
    ∀ post, Succession (pre ++ .subscribeSuccessor o :: post) →
      ∀ i ∈ delivered pre o post,
        ∃ k e, (machine.run (pre ++ .subscribeSuccessor o :: post)).entries.get? k = some e ∧
          e.window = i.window := by
  intro post
  induction post using reverseRecOn with
  | nil =>
    intro _ i hm
    rw [delivered, Machine.collectFrom, append_nil, mem_map] at hm
    obtain ⟨event, hev, rfl⟩ := hm
    obtain ⟨e, he, hre⟩ := mem_filterMap.mp hev
    obtain ⟨k, hk⟩ := OrdMap.mem_values_iff.mp he
    exact ⟨k, e, hk, (replayEvent_window hre).symm⟩
  | append_singleton post op ih =>
    intro hs i hm
    rw [show pre ++ .subscribeSuccessor o :: (post ++ [op]) =
      (pre ++ .subscribeSuccessor o :: post) ++ [op] by simp] at hs ⊢
    obtain ⟨hb, -⟩ := Machine.guarded_snoc.mp hs
    have hst := run_sound (pre ++ .subscribeSuccessor o :: post) op
    have hmo : (∃ k e, (machine.run (pre ++ .subscribeSuccessor o :: post)).entries.get? k =
          some e ∧ e.window = i.window) →
        ∃ k e, (machine.run ((pre ++ .subscribeSuccessor o :: post) ++ [op])).entries.get? k =
          some e ∧ e.window = i.window := by
      rintro ⟨k, e, hk, hw⟩
      obtain ⟨e', hk', hst'⟩ := step_entry hst (keyed_run _) hk
      exact ⟨k, e', hk', hst'.window_eq.trans hw⟩
    rw [delivered, Machine.collectFrom_snoc, ← append_assoc, mem_append] at hm
    rcases hm with hm | hm
    · exact hmo (ih hb i hm)
    · rw [append_assoc, singleton_append, mirroredBy, mem_filterMap] at hm
      obtain ⟨⟨w, n⟩, hn, hin⟩ := hm
      have hw : i.window = w := by
        cases n with
        | fact fact =>
          simp only [noteInput] at hin
          split_ifs at hin
          cases hin
          exact (noted_fact (repInv_run hb) hst hn).1
        | closeSettled seq how =>
          simp only [noteInput] at hin
          split_ifs at hin
          cases hin
          rfl
        | _ => cases hin
      rw [hw] at hmo ⊢
      rcases noted_window hst hn with h | h
      · exact hmo h
      · exact h

theorem delivered_snoc (pre : List WindowOp) (o : WindowOwner) (post : List WindowOp)
    (op : WindowOp) :
    delivered pre o (post ++ [op]) = delivered pre o post ++
      mirroredBy o (machine.run (pre ++ .subscribeSuccessor o :: post)) op
        (machine.outcome (pre ++ .subscribeSuccessor o :: post) op) := by
  rw [delivered, Machine.collectFrom_snoc, ← append_assoc, ← delivered, append_assoc,
    singleton_append]

/-- While its owner is not lost, every entry stands in the mirror invariant. -/
theorem mirrorInv_run (hf : currentOwner pre = none) :
    ∀ post, Succession (pre ++ .subscribeSuccessor o :: post) → .roleLost o ∉ post →
      currentOwner (pre ++ .subscribeSuccessor o :: post) = some o ∧
      ∀ k e, (machine.run (pre ++ .subscribeSuccessor o :: post)).entries.get? k = some e →
        MirrorInv e (inputsAbout e.window (delivered pre o post)) := by
  intro post
  induction post using reverseRecOn with
  | nil =>
    intro hs _
    obtain ⟨hpre, -⟩ := Machine.guarded_snoc.mp hs
    exact ⟨by rw [currentOwner_snoc]; exact nextOwner_of_caller rfl, mirrorInv_subscribe hpre hf⟩
  | append_singleton post op ih =>
    intro hs hlo
    simp only [mem_append, mem_singleton, not_or] at hlo
    rw [show pre ++ .subscribeSuccessor o :: (post ++ [op]) =
      (pre ++ .subscribeSuccessor o :: post) ++ [op] by simp] at hs ⊢
    obtain ⟨hb, ha⟩ := Machine.guarded_snoc.mp hs
    obtain ⟨hcur, hinv⟩ := ih hb hlo.1
    have hi := repInv_run hb
    rw [hcur] at hi ha
    have hst := run_sound (pre ++ .subscribeSuccessor o :: post) op
    refine ⟨?_, ?_⟩
    · rw [currentOwner_snoc, hcur]
      exact nextOwner_of_admissible ha rfl (fun h => hlo.2 h.symm)
    · intro k e' hk
      have hab : ∀ w, inputsAbout w (delivered pre o (post ++ [op])) =
          inputsAbout w (delivered pre o post) ++
            (notesOf w (noted (machine.run (pre ++ .subscribeSuccessor o :: post)) op
              (machine.outcome (pre ++ .subscribeSuccessor o :: post) op))).filterMap
              (noteInput o op w) := by
        intro w
        rw [delivered_snoc, inputsAbout_append, mirroredBy, inputsAbout_notes]
        intro v fact hm
        exact (noted_fact hi hst hm).1
      rw [hab]
      rcases step_key hst hk with
        ⟨e, he⟩ | ⟨rfl, -, -, -, o', c, wd, ht, x, y, rfl, ho, -, rfl⟩
      · obtain ⟨e'', he'', hes⟩ := step_entry hst hi.keyed he
        cases he''.symm.trans hk
        rw [hes.window_eq]
        exact (hinv k e he).step (hi.entry k e he) (fun h => hlo.2 h.symm) hes
      · -- a fresh window has not been spoken of
        have hn : inputsAbout (openingEntry ⟨(machine.run
            (pre ++ .subscribeSuccessor o :: post)).lastId + 1, (machine.run
            (pre ++ .subscribeSuccessor o :: post)).lastIncarnation + 1⟩ o' c).window
            (delivered pre o post) = [] := by
          refine filter_eq_nil_iff.mpr (fun i hm hw => ?_)
          obtain ⟨k, e, hk, hwi⟩ := window_of_delivered post hb i hm
          have hle := hi.keyed.le_lastId k e hk
          rw [decide_eq_true_eq] at hw
          have hid := congrArg WindowRef.id (hwi.trans hw)
          rw [hi.keyed.id_eq k e hk] at hid
          simp only [openingEntry] at hid
          omega
        rw [hn, ho]
        simp only [noted, openingEntry, notesOf_cons_self, notesOf_nil, nil_append]
        exact MirrorInv.unborn rfl rfl

/-- The source of the app after one input. -/
def WindowSource.take (source : WindowSource) : MirrorInput → WindowSource
  | .fact event => (source.apply event).2
  | .replied w seq => (source.acceptHostCloseReply w seq).2

def factsOf (is : List MirrorInput) : List WindowEvent :=
  is.filterMap fun
    | .fact event => some event
    | _ => none

variable {source : WindowSource} {front back : List MirrorInput} {event : WindowEvent}

theorem mem_factsOf : event ∈ factsOf is ↔ .fact event ∈ is := by
  refine mem_filterMap.trans ⟨?_, fun hm => ⟨_, hm, rfl⟩⟩
  rintro ⟨_ | _, hm, he⟩ <;> cases he
  exact hm

/-- What is said of a window begins with its `Created` and ends with its `Destroyed`. -/
theorem MirrorInv.order {i : MirrorInput} (hm : MirrorInv e (front ++ i :: back)) :
    (front = [] ∧ ∃ state pending, i = .fact (.created e.window state pending)) ∨
      (∃ state pending, .fact (.created e.window state pending) ∈ front) ∧
        .fact (.destroyed e.window) ∉ front ∧ ∀ w s p, i ≠ .fact (.created w s p) := by
  obtain ⟨hl, hc⟩ := not_or.mp fun hs => by simpa using hm.silent hs
  obtain ⟨state, pending, rest, hr, he⟩ :=
    hm.told (Bool.not_eq_false _ ▸ hc) (Bool.not_eq_false _ ▸ hl)
  rcases front with _ | ⟨c, front⟩
  · exact .inl ⟨rfl, state, pending, (cons.inj he).1⟩
  obtain ⟨rfl, ht⟩ := cons.inj he
  change front ++ i :: back = _ at ht
  -- only the last of them is not routine
  have hp : (front ++ i :: back).Pairwise fun j _ => j.routine = true := by
    rw [ht]
    refine pairwise_append.mpr ⟨pairwise_of_forall_mem_list fun j hj _ _ => hr j hj, ?_,
      fun j hj _ _ => hr j hj⟩
    split_ifs <;> simp
  refine .inr ⟨⟨state, pending, mem_cons_self⟩, fun hd => ?_, ?_⟩
  · rcases mem_cons.mp hd with hd | hd
    · cases hd
    · cases (pairwise_append.mp hp).2.2 _ hd i mem_cons_self
  · rintro w s p rfl
    have hi : _ ∈ rest ++ _ := ht ▸ mem_append_right front mem_cons_self
    rcases mem_append.mp hi with hd | hd
    · cases hr _ hd
    · split_ifs at hd <;> simp at hd

section

variable {post : List WindowOp} (howners : Succession (pre ++ .subscribeSuccessor o :: post))
include howners

theorem delivered_ids (hm : .fact event ∈ delivered pre o post) :
    1 ≤ event.window.id ∧ event.window.id ≤ proposedMaxCumulativeWindowIds ∧
      event.window.incarnation = event.window.id := by
  obtain ⟨k, e, hk, hw⟩ := window_of_delivered post howners _ hm
  have hi := repInv_run howners
  obtain ⟨hpos, hle⟩ := (hi.minted k).mp ⟨e, hk⟩
  have hen := hi.entry k e hk
  rw [show event.window = e.window from hw.symm, hen.incarnation_eq, hen.id_eq]
  exact ⟨hpos, hle.trans (hi.lastId_eq ▸ hi.capacity), rfl⟩

variable (hfirst : currentOwner pre = none) (hlost : .roleLost o ∉ post)
include hfirst hlost

/-- A fact may come where it is delivered. -/
theorem delivered_extends (hd : delivered pre o post = front ++ .fact event :: back)
    (hmi : Mirrors source (factsOf front)) : Extends (factsOf front) event := by
  rw [append_cons] at hd
  have hids : ∀ fact, .fact fact ∈ front ++ [.fact event] → _ := fun _ hm =>
    delivered_ids howners (hd ▸ mem_append_left back hm)
  obtain ⟨hpos, hmax, hin⟩ := hids event (mem_append_right _ mem_cons_self)
  obtain ⟨k, e, hk, hw⟩ := window_of_delivered post howners (.fact event) (hd ▸ by simp)
  change e.window = event.window at hw
  have hm := (mirrorInv_run hfirst post howners hlost).2 k e hk
  have hab : inputsAbout event.window (.fact event :: back) =
      .fact event :: inputsAbout event.window back := filter_cons_of_pos (decide_eq_true rfl)
  rw [hd, ← append_cons, hw, inputsAbout_append, hab] at hm
  have hpa : event.window.id ≠ 0 ∧ event.window.incarnation ≠ 0 := by omega
  rcases hm.order with ⟨hno, state, pending, ⟨⟩⟩ | ⟨⟨state, pending, hc⟩, hde, hnc⟩
  · have hfr : ∀ earlier ∈ factsOf front, earlier.window.id ≠ e.window.id := by
      intro earlier hme hid
      have hwe : earlier.window = e.window := windowRef_ext hid
        ((hids earlier (mem_append_left _ (mem_factsOf.mp hme))).2.2.trans (hid.trans hin.symm))
      exact filter_eq_nil_iff.mp hno _ (mem_factsOf.mp hme) (decide_eq_true hwe)
    have hle : (source.windows.set e.window.id none).size ≤ proposedMaxCumulativeWindowIds := by
      refine InsertMap.size_le fun id hg => ?_
      rw [InsertMap.get?_set] at hg
      split_ifs at hg with he
      · exact he ▸ ⟨hpos, hmax⟩
      · obtain ⟨fact, hf, rfl⟩ := by simpa using (hmi.unknown id).not.mp hg
        exact (hids fact (mem_append_left _ (mem_factsOf.mp hf))).imp_right And.left
    rw [InsertMap.size_set_fresh ((hmi.unknown _).mpr hfr), hmi.size] at hle
    exact ⟨hpa, fun _ => ⟨hfr, hle⟩, by rintro ⟨⟩⟩
  · rw [hw] at hc hde
    refine ⟨hpa, fun hf => ?_, fun _ => ⟨⟨state, pending, ?_⟩, fun hdes => ?_⟩⟩
    · obtain ⟨state, pending, he⟩ := isCreated_iff.mp hf
      exact absurd (congrArg _ he) (hnc _ _ _)
    · exact mem_factsOf.mpr (mem_filter.mp hc).1
    · exact hde (mem_filter.mpr ⟨mem_factsOf.mp hdes, decide_eq_true rfl⟩)

theorem mirrors_delivered (hd : delivered pre o post = front ++ back) :
    Mirrors (front.foldl WindowSource.take .new) (factsOf front) ∧
      (front.foldl WindowSource.take .new).failure = none := by
  induction front using reverseRecOn generalizing back with
  | nil => exact ⟨mirrors_new, rfl⟩
  | append_singleton front i ih =>
    rw [append_assoc, singleton_append] at hd
    obtain ⟨hmi, hl⟩ := ih hd
    rw [foldl_append, foldl_cons, foldl_nil]
    cases i with
    | replied w seq =>
      have hre := hmi.acceptHostCloseReply w seq
      exact ⟨by simpa [factsOf, WindowSource.take] using hre, (accept_failure ..).trans hl⟩
    | fact event =>
      obtain ⟨next, hap, hl, hm⟩ :=
        hmi.apply_of_extends hl (delivered_extends howners hfirst hlost hd hmi)
      rw [WindowSource.take, hap]
      exact ⟨by simpa [factsOf] using hm, hl⟩

end

/-- **No fact is refused.**  In every run in which `o` subscribes as the next owner and is not
lost since, its source takes whatever it is delivered, and has a live snapshot of each window
that `o` was told of and not told the end of. -/
theorem source_takes_all (pre : List WindowOp) (o : WindowOwner) (post : List WindowOp)
    (howners : Succession (pre ++ .subscribeSuccessor o :: post))
    (hfirst : currentOwner pre = none) (hlost : .roleLost o ∉ post) :
    ((delivered pre o post).foldl WindowSource.take .new).failure = none ∧
    ∀ w, (((delivered pre o post).foldl WindowSource.take .new).target w).isSome ↔
      (∃ state pending, .fact (.created w state pending) ∈ delivered pre o post) ∧
        .fact (.destroyed w) ∉ delivered pre o post := by
  obtain ⟨hmi, hl⟩ := mirrors_delivered howners hfirst hlost (append_nil _).symm
  refine ⟨hl, fun w => hmi.target_isSome.trans ?_⟩
  simp only [hl, Known, mem_factsOf, true_and]

theorem handover_source :
    ((delivered (handover.take 7) ⟨11, 2⟩ (handover.drop 8)).foldl
      WindowSource.take .new).failure = none :=
  (source_takes_all (handover.take 7) ⟨11, 2⟩ (handover.drop 8) handover_succession (by decide)
    (by decide)).1

end Keld.Window
