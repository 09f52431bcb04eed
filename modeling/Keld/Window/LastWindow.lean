/-
# `Keld.Window.LastWindow` — who is told that the last window is gone

A release reports at once when nothing is left, or sets a flag when only builds in
flight are left; a failed build consumes the flag.

**Soundness** (`lastWindow_sound`).  A report goes to the live owner, after a
`Destroyed` fact to it, out of a registry in which every window is gone, and between
two reports some window opened.  The last part rests on `Quiet`: with every window
gone and no check deferred nothing can report until a window opens.

**Completeness** (`lastWindow_complete`).  From a `Destroyed` fact to an installed
owner on, with nothing opening, the report is made, deferred or still owed (`Tally`).
The one way to lose it is a teardown of a lost generation that outlives the last fact
to the owner: the code defers only over builds in flight, and the end of such a
teardown has no live owner to tell.
-/
import Keld.Window.Invariant

namespace Keld.Window

open WindowRegistry List OrdMap Phase Machine

/-! ## What a step reports -/

/-- The owner an operation tells of the last window. -/
def announcedBy (_ : WindowRegistry) (_ : WindowOp) : WindowOutcome → List WindowOwner
  | .released out => out.lastWindow.toList
  | .failed out => out.lastWindow.toList
  | _ => []

/-- The `Destroyed` fact an operation hands out. -/
def destroyedBy (_ : WindowRegistry) (_ : WindowOp) : WindowOutcome → List OwnedWindowEvent
  | .released out => out.fact.toList
  | _ => []

/-- The window an operation opens. -/
def openedBy (_ : WindowRegistry) (_ : WindowOp) : WindowOutcome → List WindowRef
  | .built (.created fact _) => [fact.event.window]
  | _ => []

variable {r r' : WindowRegistry} {op : WindowOp} {out : WindowOutcome} {k : ℕ} {e : Entry}
  {o : WindowOwner} {ops before : List WindowOp} {w : WindowRef} {orphans : Bool}
  {reports : List WindowOwner}

/-- A release that hands out a `Destroyed` fact, outside a session end. -/
theorem destroyed_step {fact : OwnedWindowEvent} (h : Step r op r' out)
    (hf : fact ∈ destroyedBy r op out) :
    ∃ k e view native, op = .nativeReleased view ∧ r.entries.get? k = some e ∧
      e.phase = .closing (some native) ∧ e.created = true ∧ e.ownerLive = true ∧
      fact = ⟨e.owner, .destroyed e.window⟩ ∧ r'.entries.get? k = some (e.released view) ∧
      (r.ending = true ∧ announcedBy r op out = [] ∨
        r.ending = false ∧ r'.hasLiveWindows = false ∧ r'.deferredLastWindow = false ∧
          announcedBy r op out = [e.owner] ∨
        r.ending = false ∧ r'.onlyOpeningWindows = true ∧ r'.deferredLastWindow = true ∧
          announcedBy r op out = [] ∨
        r.ending = false ∧ r'.hasLiveWindows = true ∧ r'.onlyOpeningWindows = false ∧
          r'.deferredLastWindow = r.deferredLastWindow ∧ announcedBy r op out = []) := by
  have hfa : ∀ {e : Entry}, fact ∈ e.destroyedFact.toList →
      e.created = true ∧ e.ownerLive = true ∧ fact = ⟨e.owner, .destroyed e.window⟩ := by
    intro e he
    unfold Entry.destroyedFact at he
    split_ifs at he with hc
    · simp only [Bool.and_eq_true] at hc
      exact ⟨hc.1, hc.2, by simpa using he⟩
    · cases he
  cases h with
  | idle hi => cases hi <;> cases hf
  | claim _ hc => cases hc <;> cases hf
  | @released view k e native hfi hp hr =>
    obtain ⟨hg, -⟩ := find?_eq_some hfi
    obtain ⟨hc, hl, heq⟩ := hfa hf
    refine ⟨k, e, view, native, rfl, hg, hp, hc, hl, heq, by simp [get?_setEntry hg],
      .inl ⟨?_, rfl⟩⟩
    by_contra hen
    simp [Entry.recipient, Entry.destroyedFact, hc, hl, hen] at hr
  | @releasedBusy view k e native o hfi hp hr hli hon =>
    obtain ⟨hg, -⟩ := find?_eq_some hfi
    obtain ⟨hc, hl, heq⟩ := hfa hf
    exact ⟨k, e, view, native, rfl, hg, hp, hc, hl, heq, by simp [get?_setEntry hg],
      .inr (.inr (.inr ⟨(recipient_eq_some hr).1, hli, hon, rfl, rfl⟩))⟩
  | @releasedDeferred view k e native o hfi hp hr hon =>
    obtain ⟨hg, -⟩ := find?_eq_some hfi
    obtain ⟨hc, hl, heq⟩ := hfa hf
    exact ⟨k, e, view, native, rfl, hg, hp, hc, hl, heq, by simp [get?_setEntry hg],
      .inr (.inr (.inl ⟨(recipient_eq_some hr).1, hon, rfl, rfl⟩))⟩
  | @releasedLast view k e native o hfi hp hr hli =>
    obtain ⟨hg, -⟩ := find?_eq_some hfi
    obtain ⟨hc, hl, heq⟩ := hfa hf
    obtain ⟨hen, -, -, rfl⟩ := recipient_eq_some hr
    exact ⟨k, e, view, native, rfl, hg, hp, hc, hl, heq, by simp [get?_setEntry hg],
      .inr (.inl ⟨hen, hli, rfl, rfl⟩)⟩
  | _ => cases hf

/-- A failed build that consumes the deferred check. -/
structure FailedLast (r r' : WindowRegistry) (o : WindowOwner) : Prop where
  deferred : r.deferredLastWindow = true
  notEnding : r.ending = false
  failing : ∃ k e call, r.entries.get? k = some e ∧ e.phase = .opening call ∧
    call.owner = o ∧ e.ownerLive = true ∧
    r'.entries.get? k = some { e with phase := .destroyed none }
  empty : r'.hasLiveWindows = false
  cleared : r'.deferredLastWindow = false

/-- Every other step reports nothing, or is a failed build that consumes the flag; and apart
from that, the flag is only ever cleared, by a session end or by a loss that reaches an entry. -/
theorem quiet_step (h : Step r op r' out) (hd : destroyedBy r op out = [])
    (ho : openedBy r op out = []) :
    (∃ o, announcedBy r op out = [o] ∧ FailedLast r r' o) ∨
      announcedBy r op out = [] ∧
        (r'.deferredLastWindow = r.deferredLastWindow ∨ r'.deferredLastWindow = false ∧
          (op = .sessionEnd ∨ ∃ o k e, op = .roleLost o ∧ r.entries.get? k = some e ∧
            losesRole o e = true)) := by
  cases h with
  | idle hi =>
    right
    cases hi <;> exact ⟨rfl, .inl rfl⟩
  | claim _ hc =>
    right
    cases hc <;> exact ⟨rfl, .inl rfl⟩
  | built _ _ => cases ho
  | failedLast hf hp hdef hli hen he =>
    obtain ⟨hg, -⟩ := find?_eq_some hf
    exact .inl ⟨_, rfl, hdef, hen, ⟨_, _, _, hg, hp, rfl, hli, by
      simp [get?_setEntry hg]⟩, he, rfl⟩
  | releasedDeferred _ _ hr _ | releasedLast _ _ hr _ =>
    obtain ⟨-, hc, hl, -⟩ := recipient_eq_some hr
    simp [destroyedBy, Entry.releaseOutcome, Entry.destroyedFact, hc, hl] at hd
  | @roleLost o =>
    right
    refine ⟨rfl, ?_⟩
    simp only [roleLost]
    split_ifs with hany
    · obtain ⟨k, e, hk, hl⟩ := values_any_iff.mp hany
      exact .inr ⟨rfl, .inr ⟨o, k, e, rfl, hk, hl⟩⟩
    · exact .inl rfl
  | ended => exact .inr ⟨rfl, .inr ⟨rfl, .inl rfl⟩⟩
  | _ => exact .inr ⟨rfl, .inl rfl⟩

/-- A window that was shown after a step that opens none was shown before it. -/
theorem step_created (h : Step r op r' out) (ho : openedBy r op out = []) {e' : Entry}
    (hk : r'.entries.get? k = some e') (hc : e'.created = true) :
    ∃ e, r.entries.get? k = some e ∧ e.created = true := by
  have hset : ∀ {k' : ℕ} {e₁ e₂ : Entry}, r.entries.get? k' = some e₁ →
      (r.setEntry k' e₂).entries.get? k = some e' → e₂.created = e₁.created →
      ∃ e, r.entries.get? k = some e ∧ e.created = true := by
    intro k' e₁ e₂ hk' h' heq
    rw [get?_setEntry hk'] at h'
    split_ifs at h' with hkk
    · cases h'
      exact ⟨e₁, hkk ▸ hk', heq ▸ hc⟩
    · exact ⟨e', h', hc⟩
  cases h with
  | idle _ | markReady _ | factDestroyed | drops => exact ⟨e', hk, hc⟩
  | claim ha _ | requestClose ha _ _ | veto ha _ | allow ha _ | destroyOpen ha _ _
  | destroyPending ha _ _ | destroyClosing ha _ _ => exact hset ha.get hk rfl
  | adopt _ _ hf => exact hset (find?_eq_some hf).1 hk rfl
  | build _ _ _ _ =>
    rw [get?_insert] at hk
    split_ifs at hk
    · cases hk
      cases hc
    · exact ⟨e', hk, hc⟩
  | built _ _ => cases ho
  | cleanup hf _ | failed hf _ _ | failedLast hf _ _ _ _ _ | failedLate hf _
  | fact hf _ | factPending hf _ | factClosing hf _ | nativeClose hf _ _ | released hf _ _
  | releasedBusy hf _ _ _ _ | releasedDeferred hf _ _ _ | releasedLast hf _ _ _ =>
  exact hset (find?_eq_some hf).1 hk rfl
  | @roleLost o =>
    simp only [roleLost, get?_map, Option.map_eq_some_iff] at hk
    obtain ⟨e, he, rfl⟩ := hk
    exact ⟨e, he, by split_ifs at hc <;> exact hc⟩
  | subscribe =>
    simp only [subscribeSuccessor, get?_map, Option.map_eq_some_iff] at hk
    obtain ⟨e, he, rfl⟩ := hk
    exact ⟨e, he, by split_ifs at hc <;> exact hc⟩
  | ended =>
    simp only [sessionEnd, get?_map, Option.map_eq_some_iff] at hk
    obtain ⟨e, he, rfl⟩ := hk
    exact ⟨e, he, hc⟩

/-! ## Quiet registries -/

/-- Every window that was ever shown is gone, and no check is deferred. -/
structure Quiet (r : WindowRegistry) : Prop where
  notDeferred : r.deferredLastWindow = false
  gone : ∀ k e, r.entries.get? k = some e → e.created = true → e.phase.isDestroyed = true

theorem not_hasLiveWindows (h : r.hasLiveWindows = false) (hk : r.entries.get? k = some e) :
    e.phase.isDestroyed = true := by
  cases hd : e.phase.isDestroyed with
  | true => rfl
  | false => exact absurd (hasLiveWindows_iff.mpr ⟨k, e, hk, hd⟩) (by simp [h])

/-- A quiet registry reports nothing and stays quiet until a window opens. -/
theorem Quiet.step (hq : Quiet r) (hke : Keyed r) (h : Step r op r' out)
    (ho : openedBy r op out = []) :
    Quiet r' ∧ announcedBy r op out = [] ∧ destroyedBy r op out = [] := by
  have hd : destroyedBy r op out = [] := by
    by_contra hne
    obtain ⟨fact, hf⟩ := exists_mem_of_ne_nil _ hne
    obtain ⟨k, e, -, native, -, hk, hp, hc, -⟩ := destroyed_step h hf
    have := hq.gone k e hk hc
    simp [hp, isDestroyed] at this
  have hfl : r'.deferredLastWindow = false ∧ announcedBy r op out = [] := by
    rcases quiet_step h hd ho with ⟨o, -, hl⟩ | ⟨hann, hkept | ⟨hclr, -⟩⟩
    · exact absurd hq.notDeferred (by simp [hl.deferred])
    · exact ⟨hkept.trans hq.notDeferred, hann⟩
    · exact ⟨hclr, hann⟩
  refine ⟨⟨hfl.1, ?_⟩, hfl.2, hd⟩
  intro k e' hk hc
  obtain ⟨e, he, hce⟩ := step_created h ho hk hc
  obtain ⟨e'', he'', hs⟩ := step_entry h hke he
  cases he''.symm.trans hk
  exact hs.destroyed (hq.gone k e he hce)

/-- A report leaves a quiet registry. -/
theorem announced_step (h : Step r op r' out) (ha : o ∈ announcedBy r op out) :
    r.ending = false ∧ r'.hasLiveWindows = false ∧ r'.deferredLastWindow = false ∧
      (∃ w, ⟨o, .destroyed w⟩ ∈ destroyedBy r op out) ∨ FailedLast r r' o := by
  by_cases hd : destroyedBy r op out = []
  · have ho : openedBy r op out = [] := by
      cases h with
      | built _ _ => cases ha
      | idle hi => cases hi <;> rfl
      | claim _ hc => cases hc <;> rfl
      | _ => rfl
    rcases quiet_step h hd ho with ⟨o', hann, hl⟩ | ⟨hann, -⟩
    · rw [hann, mem_singleton] at ha
      exact .inr (ha ▸ hl)
    · rw [hann] at ha
      cases ha
  · obtain ⟨fact, hf⟩ := exists_mem_of_ne_nil _ hd
    obtain ⟨k, e, view, native, -, -, -, -, -, hfa, -, hca⟩ := destroyed_step h hf
    rcases hca with ⟨-, hann⟩ | ⟨hen, he, hdef, hann⟩ | ⟨-, -, -, hann⟩ | ⟨-, -, -, -, hann⟩
    · rw [hann] at ha
      cases ha
    · rw [hann, mem_singleton] at ha
      refine .inl ⟨hen, he, hdef, e.window, ?_⟩
      rw [ha, ← hfa]
      exact hf
    · rw [hann] at ha
      cases ha
    · rw [hann] at ha
      cases ha

theorem Quiet.run (hq : Quiet (machine.run ops)) :
    ∀ (is : List WindowOp), machine.collectFrom openedBy (machine.run ops) is = [] →
      Quiet (machine.run (ops ++ is)) := by
  intro is
  induction is using reverseRecOn with
  | nil =>
    intro _
    rwa [append_nil]
  | append_singleton is i ih =>
    intro ho
    rw [collectFrom_snoc, append_eq_nil_iff] at ho
    rw [← append_assoc]
    exact ((ih ho.1).step (keyed_run _) (run_sound _ i) ho.2).1

/-! ## Soundness -/

/-- A window that cannot leave the registry without a `Destroyed` fact to the installed owner. -/
def Owed (e : Entry) : Prop :=
  e.phase.isLive = true ∨ ∃ native, e.phase = .closing native ∧ e.ownerLive = true

/-- A teardown of a lost generation. -/
def Entry.orphanClosing (e : Entry) : Bool :=
  !e.ownerLive &&
    match e.phase with
    | .closing _ => true
    | _ => false

/-- Some teardown of a lost generation is still under way. -/
def WindowRegistry.hasOrphans (r : WindowRegistry) : Bool :=
  r.entries.values.any Entry.orphanClosing

theorem mem_destroyedBy_of_note {view : WebviewId} {fact : OwnedWindowEvent}
    (h : Note.fact fact ∈ notesOf w (noted r (.nativeReleased view) out)) :
    fact ∈ destroyedBy r (.nativeReleased view) out := by
  obtain ⟨n, hn, hw⟩ := mem_filterMap.mp h
  split_ifs at hw
  cases out with
  | released out =>
    simp only [noted] at hn
    split_ifs at hn
    · cases hn
    · simp only [under, mem_flatMap, mem_map] at hn
      obtain ⟨v, -, m, hm, rfl⟩ := hn
      cases hw
      simpa [releaseNotes, destroyedBy] using hm
  | _ => cases hn

/-- An owed window stays owed until it hands its fact to the installed owner. -/
theorem Owed.step (hi : RepInv (some o) r) (he : r.ending = false) (h : Step r op r' out)
    (hlo : op ≠ .roleLost o) (he' : op ≠ .sessionEnd) (hk : r.entries.get? k = some e)
    (ho : Owed e) :
    (∃ e', r'.entries.get? k = some e' ∧ Owed e') ∨
      ∃ w, ⟨o, .destroyed w⟩ ∈ destroyedBy r op out := by
  obtain ⟨e', hk', hs⟩ := step_entry h hi.keyed hk
  have hinv := hi.entry k e hk
  -- a live entry is the installed owner's
  have how : e.ownerLive = true → e.owner = o := by
    intro hl
    exact (Option.some.inj (hinv.live hl)).symm
  generalize hnotes : notesOf e.window (noted r op out) = notes at hs
  cases hs with
  | keep _ | claim _ _ | adopt _ _ _ | factClosing _ _ | spared _ => exact .inl ⟨_, hk', ho⟩
  | requestClose _ _ _ | veto _ _ | fact _ _ | factPending _ _ | nativeClose _ _ _ =>
    exact .inl ⟨_, hk', .inl rfl⟩
  | allow ha _ | destroyOpen ha _ _ | destroyPending ha _ _ =>
    exact .inl ⟨_, hk', .inr ⟨_, rfl, ha.live⟩⟩
  | destroyClosing ha hp _ => exact .inl ⟨_, hk', .inr ⟨_, hp, ha.live⟩⟩
  | built _ _ => exact .inl ⟨_, hk', .inl rfl⟩
  | failed _ hp =>
    rcases ho with hl | ⟨native, hp', -⟩
    · simp [hp, isLive] at hl
    · simp [hp] at hp'
  | cleanup _ hp | failedLate _ hp =>
    rcases ho with hl | ⟨native, -, hl⟩
    · simp [hp, isLive] at hl
    · simp [(hinv.late hp).2 hl] at he
  | released hp _ =>
    rcases ho with hl | ⟨native, -, hl⟩
    · simp [hp, isLive] at hl
    · refine .inr ⟨e.window, mem_destroyedBy_of_note (w := e.window) ?_⟩
      rw [hnotes]
      simp [Entry.destroyedFact, hl, hinv.closing _ hp hl he, how hl]
  | @lost o' _ hl =>
    simp only [losesRole, Bool.and_eq_true, beq_iff_eq] at hl
    exact absurd (by rw [← hl.1, how hl.2]) hlo
  | takeOver hs =>
    simp only [survives, Bool.and_eq_true] at hs
    exact .inl ⟨_, hk', .inl hs.2⟩
  | ended => exact absurd rfl he'

/-- Where the report stands, given whether a teardown of a lost generation outlived the last
fact and what has been reported since the first. -/
inductive Tally (o : WindowOwner) (orphans : Bool) (reports : List WindowOwner)
    (r : WindowRegistry) : Prop
  | made : orphans = false → reports = [o] → Quiet r → Tally o orphans reports r
  | deferred : orphans = false → reports = [] → r.deferredLastWindow = true →
      Tally o orphans reports r
  | owed : reports = [] → r.deferredLastWindow = false →
      (orphans = true ∨ ∃ k e, r.entries.get? k = some e ∧ Owed e) → Tally o orphans reports r

theorem not_deferred_of_closing {cur : Option WindowOwner} {native : Option NativeWindow}
    (hi : RepInv cur r) (hk : r.entries.get? k = some e) (hp : e.phase = .closing native) :
    r.deferredLastWindow = false := by
  cases hd : r.deferredLastWindow with
  | false => rfl
  | true =>
    exact ((hi.deferred hd).not_other hk (by simp [hp, isOpening]) (by simp [hp, isDestroyed])).elim

theorem hasOrphans_eq_false
    (h : ∀ k e native, r.entries.get? k = some e → e.phase = .closing native → e.ownerLive = true) :
    r.hasOrphans = false := by
  by_contra hne
  obtain ⟨k, e, hk, ho⟩ := values_any_iff.mp (Bool.not_eq_false _ ▸ hne)
  cases hp : e.phase <;> simp [Entry.orphanClosing, hp] at ho
  simp [h k e _ hk hp] at ho

/-- A fact to the installed owner settles where the report stands. -/
theorem Tally.fact (hi : RepInv (some o) r) (hen : r.ending = false) (h : Step r op r' out)
    (hf : ⟨o, .destroyed w⟩ ∈ destroyedBy r op out) :
    Tally o r'.hasOrphans (announcedBy r op out) r' := by
  obtain ⟨k, e, view, native, -, hk, hp, -, -, hfa, -, hca⟩ := destroyed_step h hf
  have ho : o = e.owner := congrArg OwnedWindowEvent.owner hfa
  rcases hca with ⟨hen', -⟩ | ⟨-, he, hdef, hann⟩ | ⟨-, hon, hdef, hann⟩ | ⟨-, hli, hon, hdef, hann⟩
  · simp [hen] at hen'
  · refine .made (hasOrphans_eq_false ?_) (ho ▸ hann)
      ⟨hdef, fun k e hk _ => not_hasLiveWindows he hk⟩
    intro k e native hk hp
    have := not_hasLiveWindows he hk
    simp [hp, isDestroyed] at this
  · obtain ⟨-, ha⟩ := onlyOpeningWindows_iff.mp hon
    refine .deferred (hasOrphans_eq_false ?_) hann hdef
    intro k e native hk hp
    have := ha k e hk
    simp [hp, isDestroyed, isOpening] at this
  · refine .owed hann (hdef.trans (not_deferred_of_closing hi hk hp)) ?_
    -- something is left that is neither a build in flight nor a tombstone
    obtain ⟨j, d, hj, hd⟩ := hasLiveWindows_iff.mp hli
    have hot : ∃ j d, r'.entries.get? j = some d ∧ d.phase.isOpening = false ∧
        d.phase.isDestroyed = false := by
      by_contra hno
      have ha : ∀ j d, r'.entries.get? j = some d →
          d.phase.isOpening = true ∨ d.phase.isDestroyed = true := by
        intro j d hj
        by_contra hne
        simp only [not_or, Bool.not_eq_true] at hne
        exact hno ⟨j, d, hj, hne.1, hne.2⟩
      have hopg := (ha j d hj).resolve_right (by simp [hd])
      have := onlyOpeningWindows_iff.mpr ⟨⟨j, d, hj, hopg⟩, ha⟩
      simp [hon] at this
    obtain ⟨j, d, hj, hnotOpening, hnotDestroyed⟩ := hot
    cases hp : d.phase with
    | opening call => simp [hp, isOpening] at hnotOpening
    | destroyed view => simp [hp, isDestroyed] at hnotDestroyed
    | opened native => exact .inr ⟨j, d, hj, .inl (isLive_opened hp)⟩
    | closePending native seq => exact .inr ⟨j, d, hj, .inl (isLive_closePending hp)⟩
    | closing native =>
      cases hl : d.ownerLive with
      | true => exact .inr ⟨j, d, hj, .inr ⟨native, hp, hl⟩⟩
      | false =>
        exact .inl (values_any_iff.mpr ⟨j, d, hj, by simp [Entry.orphanClosing, hl, hp]⟩)

theorem destroyedBy_owner (hi : RepInv (some o) r) (h : Step r op r' out)
    (hn : ∀ w, ⟨o, .destroyed w⟩ ∉ destroyedBy r op out) : destroyedBy r op out = [] := by
  by_contra hne
  obtain ⟨fact, hf⟩ := exists_mem_of_ne_nil _ hne
  obtain ⟨k, e, view, native, -, hk, -, -, hl, rfl, -⟩ := destroyed_step h hf
  obtain rfl : o = e.owner := Option.some.inj ((hi.entry k e hk).live hl)
  exact hn e.window hf

/-- Any other step, with the owner installed and nothing opening, leaves the tally standing. -/
theorem Tally.other (hi : RepInv (some o) r) (he : r.ending = false) (h : Step r op r' out)
    (hn : ∀ w, ⟨o, .destroyed w⟩ ∉ destroyedBy r op out) (hopen : openedBy r op out = [])
    (hlo : op ≠ .roleLost o) (he' : op ≠ .sessionEnd) (ht : Tally o orphans reports r) :
    Tally o orphans (reports ++ announcedBy r op out) r' := by
  have hd := destroyedBy_owner hi h hn
  have hli : ∀ {k : ℕ} {e : Entry}, r.entries.get? k = some e → e.ownerLive = true →
      e.owner = o := by
    intro k e hk hl
    exact (Option.some.inj ((hi.entry k e hk).live hl)).symm
  cases ht with
  | made hor hrep hq =>
    obtain ⟨hq', hann, -⟩ := hq.step hi.keyed h hopen
    exact .made hor (by rw [hrep, hann]; rfl) hq'
  | deferred hor hrep hdef =>
    rcases quiet_step h hd hopen with
      ⟨o', hann, hla⟩ | ⟨hann, hke | ⟨-, hse | ⟨o', k, e, hop, hk, hl⟩⟩⟩
    · obtain ⟨k, e, call, hk, hp, rfl, hl, -⟩ := hla.failing
      have how := ((hi.entry k e hk).opening call hp).1.trans (hli hk hl)
      exact .made hor (by rw [hrep, hann, how]; rfl)
        ⟨hla.cleared, fun k e hk _ => not_hasLiveWindows hla.empty hk⟩
    · exact .deferred hor (by rw [hrep, hann]; rfl) (hke.trans hdef)
    · exact absurd hse he'
    · simp only [losesRole, Bool.and_eq_true, beq_iff_eq] at hl
      exact absurd (by rw [hop, ← hl.1, hli hk hl.2]) hlo
  | owed hrep hdef howed =>
    have hfl : announcedBy r op out = [] ∧ r'.deferredLastWindow = false := by
      rcases quiet_step h hd hopen with ⟨o', -, hla⟩ | ⟨hann, hke | ⟨hclr, -⟩⟩
      · exact absurd (hdef.symm.trans hla.deferred) (by simp)
      · exact ⟨hann, hke.trans hdef⟩
      · exact ⟨hann, hclr⟩
    refine .owed (by rw [hrep, hfl.1]; rfl) hfl.2 ?_
    rcases howed with ho | ⟨k, e, hk, ho⟩
    · exact .inl ho
    · rcases ho.step hi he h hlo he' hk with ⟨e', hk', ho'⟩ | ⟨w, hw⟩
      · exact .inr ⟨k, e', hk', ho'⟩
      · exact absurd hw (hn w)

theorem Tally.reports_eq_nil {fact : OwnedWindowEvent} (h : Step r op r' out)
    (hf : fact ∈ destroyedBy r op out) (ht : Tally o orphans reports r) : reports = [] := by
  obtain ⟨k, e, view, native, -, hk, hp, hc, -⟩ := destroyed_step h hf
  cases ht with
  | made _ _ hq =>
    have := hq.gone k e hk hc
    simp [hp, isDestroyed] at this
  | deferred _ hrep _ | owed hrep _ _ => exact hrep

/-- The tally, from the first `Destroyed` fact to `o` to the end of the run. -/
theorem tally_run {i : WindowOp} (he : (machine.run before).ending = false)
    (hf : ∃ w, ⟨o, .destroyed w⟩ ∈ destroyedBy (machine.run before) i (machine.outcome before i)) :
    ∀ after, Succession (before ++ i :: after) → .roleLost o ∉ after → .sessionEnd ∉ after →
      machine.collectFrom openedBy (machine.run (before ++ [i])) after = [] →
      currentOwner (before ++ i :: after) = some o ∧
      (machine.run (before ++ i :: after)).ending = false ∧
      ∃ mid j rest, i :: after = mid ++ j :: rest ∧
        (∃ w, ⟨o, .destroyed w⟩ ∈
          destroyedBy (machine.run (before ++ mid)) j (machine.outcome (before ++ mid) j)) ∧
        (∀ w, ⟨o, .destroyed w⟩ ∉
          machine.collectFrom destroyedBy (machine.run (before ++ mid ++ [j])) rest) ∧
        Tally o (machine.run (before ++ mid ++ [j])).hasOrphans
          (machine.collectFrom announcedBy (machine.run before) (i :: after))
          (machine.run (before ++ i :: after)) := by
  intro after
  induction after using reverseRecOn with
  | nil =>
    intro hs _ _ _
    obtain ⟨hb, ha⟩ := guarded_snoc.mp hs
    obtain ⟨w, hw⟩ := hf
    have hi := repInv_run hb
    have hst := run_sound before i
    obtain ⟨k, e, view, native, rfl, hk, -, -, hl, hfa, -⟩ := destroyed_step hst hw
    have how : o = e.owner := congrArg OwnedWindowEvent.owner hfa
    have hcur : currentOwner before = some o := by
      rw [how]
      exact (hi.entry k e hk).live hl
    rw [hcur] at hi
    refine ⟨by rw [currentOwner_snoc]; exact hcur, ?_, [], .nativeReleased view, [], rfl,
      ⟨w, by simpa using hw⟩, by simp [collectFrom], ?_⟩
    · simp [step_ending hst, he]
    · have ht := Tally.fact hi he hst hw
      simpa [collectFrom, outcome] using ht
  | append_singleton after op ih =>
    intro hs hlo hno ho
    rw [show before ++ i :: (after ++ [op]) = (before ++ i :: after) ++ [op] by simp] at hs ⊢
    obtain ⟨hb, ha⟩ := guarded_snoc.mp hs
    simp only [mem_append, mem_singleton, not_or] at hlo hno
    rw [collectFrom_snoc, append_eq_nil_iff, append_assoc, singleton_append] at ho
    obtain ⟨hcur, he', mid, j, rest, heq, hj, hr, ht⟩ := ih hb hlo.1 hno.1 ho.1
    have hi := repInv_run hb
    rw [hcur] at hi ha
    have hst := run_sound (before ++ i :: after) op
    refine ⟨?_, ?_, ?_⟩
    · rw [currentOwner_snoc, hcur]
      exact nextOwner_of_admissible ha rfl (fun h => hlo.2 h.symm)
    · rw [step_ending hst, he']
      simpa using fun h => hno.2 h.symm
    · rw [show i :: (after ++ [op]) = (i :: after) ++ [op] by simp, collectFrom_snoc]
      by_cases hfa : ∃ w, ⟨o, .destroyed w⟩ ∈ destroyedBy (machine.run (before ++ i :: after))
          op (machine.outcome (before ++ i :: after) op)
      · obtain ⟨w, hw⟩ := hfa
        refine ⟨i :: after, op, [], rfl, ⟨w, hw⟩, by simp [collectFrom], ?_⟩
        rw [ht.reports_eq_nil hst hw, nil_append]
        exact Tally.fact hi he' hst hw
      · simp only [not_exists] at hfa
        refine ⟨mid, j, rest ++ [op], by simp [heq], hj, ?_, ?_⟩
        · intro w hw
          rw [collectFrom_snoc, mem_append] at hw
          rcases hw with hw | hw
          · exact hr w hw
          · refine hfa w ?_
            rw [heq]
            simpa using hw
        · exact ht.other hi he' hst hfa ho.2 (fun h => hlo.2 h.symm) (fun h => hno.2 h.symm)

theorem announcedBy_of_ending (h : Step r op r' out) (he : r.ending = true) :
    announcedBy r op out = [] := by
  by_contra hne
  obtain ⟨o, ho⟩ := exists_mem_of_ne_nil _ hne
  rcases announced_step h ho with ⟨hnot, -⟩ | hl
  · simp [he] at hnot
  · exact absurd (he.symm.trans hl.notEnding) (by simp)

/-- After a session end nothing is reported. -/
theorem reports_of_ending (he : (machine.run before).ending = true) :
    ∀ is, machine.collectFrom announcedBy (machine.run before) is = [] ∧
      (machine.run (before ++ is)).ending = true := by
  intro is
  induction is using reverseRecOn with
  | nil => exact ⟨rfl, by rwa [append_nil]⟩
  | append_singleton is i ih =>
    have hs := run_sound (before ++ is) i
    rw [collectFrom_snoc, ih.1, announcedBy_of_ending hs ih.2, ← append_assoc, step_ending hs, ih.2]
    exact ⟨rfl, rfl⟩

/-- **Completeness of the last-window report.**  From a `Destroyed` fact to `o` to an empty
registry, with `o` not lost, the session not ended and nothing opening, exactly one step reports
the last window, to `o`, unless the session had ended before or a teardown of a lost generation
was still under way after the last `Destroyed` fact to `o`; then none does. -/
theorem lastWindow_complete (before : List WindowOp) (i : WindowOp) (after : List WindowOp)
    (o : WindowOwner) (howners : Succession (before ++ i :: after))
    (hfact : ∃ w, ⟨o, .destroyed w⟩ ∈
      destroyedBy (machine.run before) i (machine.outcome before i))
    (hlost : .roleLost o ∉ after) (hend : .sessionEnd ∉ after)
    (hopen : machine.collectFrom openedBy (machine.run (before ++ [i])) after = [])
    (hempty : ∀ k e, (machine.run (before ++ i :: after)).entries.get? k = some e →
      e.phase.isDestroyed = true) :
    ∃ mid j rest, i :: after = mid ++ j :: rest ∧
      (∃ w, ⟨o, .destroyed w⟩ ∈
        destroyedBy (machine.run (before ++ mid)) j (machine.outcome (before ++ mid) j)) ∧
      (∀ w, ⟨o, .destroyed w⟩ ∉
        machine.collectFrom destroyedBy (machine.run (before ++ mid ++ [j])) rest) ∧
      machine.collectFrom announcedBy (machine.run before) (i :: after) =
        if (machine.run before).ending || (machine.run (before ++ mid ++ [j])).hasOrphans then []
        else [o] := by
  cases he : (machine.run before).ending with
  | true =>
    obtain ⟨w, hw⟩ := hfact
    obtain ⟨mid, j, rest, heq, ⟨fact, hj, w', hw'⟩, hr⟩ :=
      machine.exists_last_emission destroyedBy (fun fact => ∃ w, fact = ⟨o, .destroyed w⟩)
        before i ⟨_, hw, w, rfl⟩ after
    exact ⟨mid, j, rest, heq, ⟨w', hw' ▸ hj⟩, fun w hm => hr _ hm ⟨w, rfl⟩,
      (reports_of_ending he _).1⟩
  | false =>
    obtain ⟨hcur, -, mid, j, rest, heq, hj, hr, ht⟩ :=
      tally_run he hfact after howners hlost hend hopen
    refine ⟨mid, j, rest, heq, hj, hr, ?_⟩
    rw [Bool.false_or]
    cases ht with
    | made hor hrep _ =>
      rw [hor, hrep]
      rfl
    | deferred _ _ hdef =>
      -- a deferred check stands over a build in flight, but every window is gone
      obtain ⟨k, e, hk, ho⟩ := ((repInv_run howners).deferred hdef).someOpening
      have hg := hempty k e hk
      cases hp : e.phase <;> simp [hp, isOpening, isDestroyed] at ho hg
    | owed hrep _ howed =>
      rcases howed with hor | ⟨k, e, hk, ho⟩
      · rw [hor, hrep]
        rfl
      · have hg := hempty k e hk
        rcases ho with hl | ⟨native, hp, -⟩
        · cases hp : e.phase <;> simp [hp, isLive, isDestroyed] at hl hg
        · simp [hp, isDestroyed] at hg

/-- A successor closes its only window while the build of a lost generation is still awaited,
and that build fails last. -/
def orphanedRun : List WindowOp :=
  let o₁ : WindowOwner := ⟨10, 1⟩
  let o₂ : WindowOwner := ⟨11, 2⟩
  [.markReady, .subscribeSuccessor o₁, .create o₁ 1 800 600 none none, .roleLost o₁,
    .subscribeSuccessor o₂, .create o₂ 4 800 600 none none,
    .nativeBuilt 2 7 ⟨⟨0, 0, 800, 600⟩, true, false, false⟩, .destroy o₂ ⟨2, 2⟩ 5]

/-- There the owner of the last `Destroyed` fact is never told, although it is neither lost nor
the session ended, nothing opens, and a failed build leaves the registry empty. -/
theorem orphanedRun_unreported :
    Succession (orphanedRun ++ .nativeReleased 7 :: [.nativeFailed 1]) ∧
      .sessionEnd ∉ orphanedRun ++ .nativeReleased 7 :: [.nativeFailed 1] ∧
      .roleLost ⟨11, 2⟩ ∉ orphanedRun ++ .nativeReleased 7 :: [.nativeFailed 1] ∧
      destroyedBy (machine.run orphanedRun) (.nativeReleased 7)
        (machine.outcome orphanedRun (.nativeReleased 7)) = [⟨⟨11, 2⟩, .destroyed ⟨2, 2⟩⟩] ∧
      machine.collectFrom openedBy (machine.run (orphanedRun ++ [.nativeReleased 7]))
        [.nativeFailed 1] = [] ∧
      (machine.run (orphanedRun ++ .nativeReleased 7 :: [.nativeFailed 1])).hasLiveWindows = false ∧
      machine.collectFrom announcedBy (machine.run orphanedRun)
        (.nativeReleased 7 :: [.nativeFailed 1]) = [] := by
  refine ⟨succession_of_check (by decide), by decide, by decide, by decide, by decide, by decide,
    by decide⟩

/-- In the hand-over the teardown of the lost generation ends before the last fact, and the
successor is told. -/
theorem handover_complete :
    ∃ mid j rest, .nativeReleased 7 :: [] = mid ++ j :: rest ∧
      machine.collectFrom announcedBy (machine.run handover.dropLast) (.nativeReleased 7 :: []) =
        if (machine.run handover.dropLast).ending ||
          (machine.run (handover.dropLast ++ mid ++ [j])).hasOrphans then [] else [⟨11, 2⟩] := by
  obtain ⟨mid, j, rest, he, -, -, hrep⟩ :=
    lastWindow_complete handover.dropLast (.nativeReleased 7) [] ⟨11, 2⟩ handover_succession
      ⟨⟨1, 1⟩, by decide⟩ (by decide) (by decide) (by decide)
      (fun k e hk => not_hasLiveWindows (r := machine.run handover) (by decide) hk)
  exact ⟨mid, j, rest, he, hrep⟩

end Keld.Window
