/-
# `Keld.Window.Log` — the log of one window

What a run says about one window is spread over the outcomes of many operations.
`noted` writes it down, each note under its window, and `log ops w` is the part under
`w`.  Where an operation names a view, a build or a call, the registry before the step
finds the window.

`EntryStep r op e e' notes` is then the whole life of one window: how its entry moves
in one operation and exactly what is noted about it (`step_entry`).  A property of all
windows over all runs is proved by `entry_induction`: it holds of a freshly minted
entry with its one note, and it survives one `EntryStep`.
-/
import Keld.Window.Steps

namespace Keld.Window

open WindowRegistry List OrdMap AbandonedClose

/-! ## Notes -/

/-- How an admitted `Create` is answered. -/
inductive CreateAnswer where
  | created
  | failed
  | interrupted
deriving DecidableEq, Repr

/-- How a requested close ends. -/
inductive CloseEnd where
  | vetoed
  | allowed
  | abandoned
deriving DecidableEq, Repr

/-- One line of a window's log. -/
inductive Note where
  | minted (call : PendingWindowCall)
  | adopted (call : PendingWindowCall)
  | createAnswered (answer : CreateAnswer) (call : PendingWindowCall)
  | fact (fact : OwnedWindowEvent)
  | closeIssued (closeSeq : ℕ)
  | closeSettled (closeSeq : ℕ) (how : CloseEnd)
  | teardown (view : WebviewId)
  | destroyAdmitted (call : PendingWindowCall)
  | destroysAnswered (calls : List PendingWindowCall)
  | ownerLost (owner : WindowOwner)
deriving DecidableEq, Repr

def SessionEffect.note : SessionEffect → Note
  | .teardown t => .teardown t.view
  | .createInterrupted call => .createAnswered .interrupted call
  | .closeAbandoned close => .closeSettled close.closeSeq .abandoned

def AbandonedClose.note (close : AbandonedClose) : WindowRef × Note :=
  (close.window, .closeSettled close.closeSeq .abandoned)

def FactOutcome.notes : FactOutcome → List (WindowRef × Note)
  | .event fact => [(fact.event.window, .fact fact)]
  | _ => []

/-- The notes of an accepted `Destroy`, after those of the close it abandons. -/
def destroyNotes (w : WindowRef) (call : PendingWindowCall) :
    CloseOutcome → List (WindowRef × Note)
  | .teardown t => [(w, .destroyAdmitted call), (t.window, .teardown t.view)]
  | _ => [(w, .destroyAdmitted call)]

/-- The notes of a new close request. -/
def requestNotes (closeSeq : ℕ) (fact : Option OwnedWindowEvent) : List Note :=
  .closeIssued closeSeq :: fact.toList.map .fact

/-- The notes of an effective release. -/
def releaseNotes (out : ReleaseOutcome) : List Note :=
  out.fact.toList.map .fact ++ [.destroysAnswered out.destroyCalls]

/-- The window a view shows. -/
def WindowRegistry.windowOfView (r : WindowRegistry) (view : WebviewId) : Option WindowRef :=
  (r.entries.find? (hasView view)).map (·.2.window)

/-- The window a build is for. -/
def WindowRegistry.windowOfBuild (r : WindowRegistry) (build : ℕ) : Option WindowRef :=
  (r.entries.find? (hasBuild build)).map (·.2.window)

/-- Notes about a window that was looked up. -/
def under (w : Option WindowRef) (notes : List Note) : List (WindowRef × Note) :=
  w.toList.flatMap (fun w => notes.map (w, ·))

/-- What one operation of the registry `r` says, each note under its window. -/
def noted (r : WindowRegistry) : WindowOp → WindowOutcome → List (WindowRef × Note)
  | .create o c _ _ _ _, .create (.ok (.build _ w _ _ _ _)) => [(w, .minted ⟨o, c⟩)]
  | .create o c _ _ _ _, .create (.ok (.adopted w)) => [(w, .adopted ⟨o, c⟩)]
  | .requestClose _ w, .closeCall (.ok (.requested seq fact)) _ =>
    under (some w) (requestNotes seq fact)
  | .closeReply _ w seq _, .closeCall (.ok .vetoed) _ => [(w, .closeSettled seq .vetoed)]
  | .closeReply _ w seq _, .closeCall (.ok (.teardown t)) _ =>
    [(w, .closeSettled seq .allowed), (t.window, .teardown t.view)]
  | .destroy o w c, .closeCall (.ok out) abandoned =>
    abandoned.map note ++ destroyNotes w ⟨o, c⟩ out
  | .nativeBuilt _ _ _, .built (.created fact reply) =>
    [(fact.event.window, .fact fact),
      (fact.event.window, .createAnswered .created ⟨reply.owner, reply.correlation⟩)]
  | .nativeBuilt _ _ _, .built (.cleanup t) => [(t.window, .teardown t.view)]
  | .nativeFailed b, .failed out =>
    under (r.windowOfBuild b) (out.call.toList.map (.createAnswered .failed ·))
  | .nativeFact _ _, .fact out => out.notes
  | .nativeClose view, .close (.requested seq fact) =>
    under (r.windowOfView view) (requestNotes seq fact)
  | .nativeReleased view, .released out =>
    if out.diagnostic then [] else under (r.windowOfView view) (releaseNotes out)
  | .roleLost o, .roleLost abandoned =>
    abandoned.map note ++ r.entries.values.map (fun e => (e.window, .ownerLost o))
  | .sessionEnd, .ended _ =>
    r.entries.values.flatMap (fun e => (endEffects e).map (fun f => (e.window, f.note)))
  | _, _ => []

/-- The notes under one window. -/
def notesOf (w : WindowRef) (notes : List (WindowRef × Note)) : List Note :=
  notes.filterMap (fun n => if n.1 = w then some n.2 else none)

/-- Everything a run says about the window `w`, in order. -/
def log (ops : List WindowOp) (w : WindowRef) : List Note :=
  notesOf w (machine.collect noted ops)

@[simp] theorem notesOf_nil (w : WindowRef) : notesOf w [] = [] := rfl

@[simp] theorem notesOf_append (w : WindowRef) (ns ms : List (WindowRef × Note)) :
    notesOf w (ns ++ ms) = notesOf w ns ++ notesOf w ms := by
  simp [notesOf]

@[simp] theorem notesOf_cons_self (w : WindowRef) (n : Note) (ns : List (WindowRef × Note)) :
    notesOf w ((w, n) :: ns) = n :: notesOf w ns := by
  simp [notesOf]

theorem notesOf_map (w v : WindowRef) (ns : List Note) :
    notesOf v (ns.map (w, ·)) = if w = v then ns else [] := by
  induction ns with
  | nil => simp
  | cons n ns ih =>
    by_cases h : w = v
    · subst h
      simp [ih]
    · simp only [notesOf, map_cons, filterMap_cons, h, if_false] at ih ⊢
      exact ih

@[simp] theorem log_snoc (ops : List WindowOp) (op : WindowOp) (w : WindowRef) :
    log (ops ++ [op]) w =
      log ops w ++ notesOf w (noted (machine.run ops) op (machine.outcome ops op)) := by
  simp [log]

/-! ## What a step does to one entry -/

/-- The facts a state change of an on-screen window delivers. -/
def Entry.factNotes (e : Entry) (event : Option WindowEvent) : List Note :=
  if e.ownerLive then event.toList.map (fun event => .fact ⟨e.owner, event⟩) else []

/-- Whether an operation is a loop over the entries that reaches the entry `e`. -/
def WindowOp.sweeps (e : Entry) : WindowOp → Bool
  | .roleLost _ => true
  | .subscribeSuccessor _ => survives e
  | .sessionEnd => true
  | _ => false

/-- The change of one entry in one operation, and what is noted about its window. -/
inductive EntryStep (r : WindowRegistry) : WindowOp → Entry → Entry → List Note → Prop
  | keep {op e} : op.sweeps e = false → EntryStep r op e e []
  | claim {o w e op out} : Admitted r o w e → Claim o w e op out →
      EntryStep r op e e.claimed []
  | adopt {o c wd ht x y e} : r.ready = true → r.ending = false → adoptableBy o e = true →
      EntryStep r (.create o c wd ht x y) e e.claimed [.adopted ⟨o, c⟩]
  | requestClose {o w e native} : Admitted r o w e → e.phase = .opened native →
      e.lastCloseSeq + 1 < 2 ^ 64 →
      EntryStep r (.requestClose o w) e (e.claimed.requested native (e.lastCloseSeq + 1))
        (requestNotes (e.lastCloseSeq + 1) (e.requestFact (e.lastCloseSeq + 1)))
  | veto {o w e native seq} : Admitted r o w e → e.phase = .closePending native seq →
      EntryStep r (.closeReply o w seq .veto) e { e.claimed with phase := .opened native }
        [.closeSettled seq .vetoed]
  | allow {o w e native seq} : Admitted r o w e → e.phase = .closePending native seq →
      EntryStep r (.closeReply o w seq .allow) e
        { e.claimed with phase := .closing (some native) }
        [.closeSettled seq .allowed, .teardown native.view]
  | destroyOpen {o w c e native} : Admitted r o w e → e.phase = .opened native →
      e.destroyCalls.length < maxPendingDestroysPerWindow →
      EntryStep r (.destroy o w c) e (e.destroying ⟨o, c⟩ native)
        [.destroyAdmitted ⟨o, c⟩, .teardown native.view]
  | destroyPending {o w c e native seq} : Admitted r o w e →
      e.phase = .closePending native seq →
      e.destroyCalls.length < maxPendingDestroysPerWindow →
      EntryStep r (.destroy o w c) e (e.destroying ⟨o, c⟩ native)
        [.closeSettled seq .abandoned, .destroyAdmitted ⟨o, c⟩, .teardown native.view]
  | destroyClosing {o w c e native} : Admitted r o w e → e.phase = .closing native →
      e.destroyCalls.length < maxPendingDestroysPerWindow →
      EntryStep r (.destroy o w c) e
        { e.claimed with destroyCalls := e.destroyCalls ++ [⟨o, c⟩] } [.destroyAdmitted ⟨o, c⟩]
  | built {b view state e call} : e.window.incarnation = b → e.phase = .opening call →
      EntryStep r (.nativeBuilt b view state) e
        { e with phase := .opened ⟨view, state⟩, created := true }
        [.fact ⟨call.owner, .created e.window state none⟩, .createAnswered .created call]
  | cleanup {b view state e} : e.window.incarnation = b → e.phase = .closing none →
      EntryStep r (.nativeBuilt b view state) e
        { e with phase := .closing (some ⟨view, state⟩) } [.teardown view]
  | failed {b e call} : e.window.incarnation = b → e.phase = .opening call →
      EntryStep r (.nativeFailed b) e { e with phase := .destroyed none }
        (if e.ownerLive && !r.ending then [.createAnswered .failed call] else [])
  | failedLate {b e} : e.window.incarnation = b → e.phase = .closing none →
      EntryStep r (.nativeFailed b) e { e with phase := .destroyed none } []
  | fact {view e native} {f : NativeFact} : e.phase = .opened native → native.view = view →
      EntryStep r (.nativeFact view f) e
        { e with phase := .opened { native with state := (f.update e.window native.state).1 } }
        (e.factNotes (f.update e.window native.state).2)
  | factPending {view e native seq} {f : NativeFact} : e.phase = .closePending native seq →
      native.view = view →
      EntryStep r (.nativeFact view f) e
        { e with phase :=
            .closePending { native with state := (f.update e.window native.state).1 } seq }
        (e.factNotes (f.update e.window native.state).2)
  | factClosing {view e native} {f : NativeFact} : e.phase = .closing (some native) →
      native.view = view →
      EntryStep r (.nativeFact view f) e { e with dropped := saturatingSucc64 e.dropped } []
  | nativeClose {view e native} : e.phase = .opened native → native.view = view →
      e.lastCloseSeq + 1 < 2 ^ 64 →
      EntryStep r (.nativeClose view) e (e.requested native (e.lastCloseSeq + 1))
        (requestNotes (e.lastCloseSeq + 1) (e.requestFact (e.lastCloseSeq + 1)))
  | released {view e native} : e.phase = .closing (some native) → native.view = view →
      EntryStep r (.nativeReleased view) e (e.released view)
        (e.destroyedFact.toList.map .fact ++ [.destroysAnswered e.destroyCalls])
  | lost {o e} : losesRole o e = true →
      EntryStep r (.roleLost o) e (loseRole e)
        (e.phase.pendingClose.toList.map (.closeSettled · .abandoned) ++ [.ownerLost o])
  | spared {o e} : losesRole o e = false → EntryStep r (.roleLost o) e e [.ownerLost o]
  | takeOver {o e} : survives e = true →
      EntryStep r (.subscribeSuccessor o) e (takeOver o e) []
  | ended {e} : EntryStep r .sessionEnd e (endEntry e) ((endEffects e).map SessionEffect.note)

/-- Each entry sits at its window's id, and no id is above the last one minted. -/
structure Keyed (r : WindowRegistry) : Prop where
  id_eq : ∀ k e, r.entries.get? k = some e → e.window.id = k
  le_lastId : ∀ k e, r.entries.get? k = some e → k ≤ r.lastId

variable {r r' : WindowRegistry} {k j : ℕ} {e' : Entry} {ops : List WindowOp}

theorem Keyed.fresh (h : Keyed r) : r.entries.get? (r.lastId + 1) = none := by
  cases hg : r.entries.get? (r.lastId + 1) with
  | none => rfl
  | some e => exact absurd (h.le_lastId _ e hg) (by omega)

theorem Keyed.window_ne {e : Entry} (h : Keyed r) (hk : r.entries.get? k = some e)
    (hj : r.entries.get? j = some e') (hne : j ≠ k) :
    e.window ≠ e'.window := by
  intro he
  have hid := congrArg WindowRef.id he
  rw [h.id_eq k e hk, h.id_eq j e' hj] at hid
  exact hne hid.symm

/-- An operation that writes through one reference moves that entry, notes things about its
window only, and keeps the others. -/
theorem setEntry_entryStep {op : WindowOp} {out : WindowOutcome} {e e₁ e₂ : Entry}
    {notes : List Note} (hke : Keyed r) (hk : r.entries.get? k = some e₁)
    (hs : EntryStep r op e₁ e₂ notes) (hop : op.sweeps e = false)
    (hn : noted r op out = notes.map (e₁.window, ·)) (hj : r.entries.get? j = some e) :
    ∃ e', (r.setEntry k e₂).entries.get? j = some e' ∧
      EntryStep r op e e' (notesOf e.window (noted r op out)) := by
  rw [get?_setEntry hk, hn, notesOf_map]
  split_ifs with h hw hw
  · subst h
    cases hk.symm.trans hj
    exact ⟨e₂, rfl, hs⟩
  · subst h
    cases hk.symm.trans hj
    exact absurd rfl hw
  · exact absurd hw (hke.window_ne hk hj h)
  · exact ⟨e, hj, .keep hop⟩

theorem update_window {f : NativeFact} {w : WindowRef} {state : WindowState} {event : WindowEvent}
    (h : (f.update w state).2 = some event) : event.window = w := by
  cases f <;> simp only [NativeFact.update, updateBounds, updateFocus, updateMaximized,
    updateFullScreen] at h <;> split_ifs at h <;> cases h <;> rfl

theorem deliver_notes (e : Entry) (f : NativeFact) (state : WindowState) :
    (deliver e (f.update e.window state).2).notes =
      (e.factNotes (f.update e.window state).2).map (e.window, ·) := by
  unfold deliver Entry.factNotes
  cases h : (f.update e.window state).2 with
  | none => cases e.ownerLive <;> rfl
  | some event =>
    have hw := update_window h
    cases e.ownerLive <;> simp [FactOutcome.notes, hw]

theorem windowOfView_eq {view : WebviewId} {e : Entry}
    (h : r.entries.find? (hasView view) = some (k, e)) : r.windowOfView view = some e.window := by
  simp [windowOfView, h]

theorem windowOfBuild_eq {b : ℕ} {e : Entry} (h : r.entries.find? (hasBuild b) = some (k, e)) :
    r.windowOfBuild b = some e.window := by
  simp [windowOfBuild, h]

@[simp] theorem under_some (w : WindowRef) (notes : List Note) :
    under (some w) notes = notes.map (w, ·) := by
  simp [under]

theorem noted_released {view : WebviewId} {e : Entry}
    (h : r.entries.find? (hasView view) = some (k, e)) (last : Option WindowOwner) :
    noted r (.nativeReleased view) (.released (e.releaseOutcome last)) =
      (e.destroyedFact.toList.map Note.fact ++ [Note.destroysAnswered e.destroyCalls]).map
        (e.window, ·) := by
  simp only [noted, Entry.releaseOutcome, windowOfView_eq h, under_some, releaseNotes]
  rfl

/-- What a role loss abandons, read entry by entry. -/
theorem notesOf_roleLost (hke : Keyed r) (o : WindowOwner) {e : Entry}
    (hk : r.entries.get? k = some e) :
    notesOf e.window (noted r (.roleLost o) (.roleLost (r.roleLost o).2)) =
      (if losesRole o e then e.phase.pendingClose.toList.map (.closeSettled · .abandoned)
        else []) ++ [.ownerLost o] := by
  have hab : (r.roleLost o).2.map note = r.entries.values.flatMap (fun e => if losesRole o e then
        (e.phase.pendingClose.toList.map (.closeSettled · .abandoned)).map (e.window, ·)
        else []) := by
    simp only [roleLost]
    induction r.entries.values with
    | nil => rfl
    | cons d ds ih =>
      cases hl : losesRole o d with
      | false => simpa [hl] using ih
      | true =>
        cases hp : d.phase.pendingClose <;>
          simp [hl, hp, abandonedClose, note] at ih ⊢ <;> exact ih
  have hmap : r.entries.values.map (fun e => (e.window, Note.ownerLost o)) =
      r.entries.values.flatMap (fun e => [Note.ownerLost o].map (e.window, ·)) := by
    rw [map_eq_flatMap]
    rfl
  simp only [noted, hab, hmap, notesOf_append]
  congr 1
  · rw [notesOf, filterMap_flatMap_values hk]
    · split_ifs
      · exact (notesOf_map e.window e.window _).trans (if_pos rfl)
      · rfl
    · intro j d hj hne
      split_ifs
      · exact (notesOf_map d.window e.window _).trans (if_neg (hke.window_ne hk hj hne).symm)
      · rfl
  · rw [notesOf, filterMap_flatMap_values hk]
    · exact (notesOf_map e.window e.window _).trans (if_pos rfl)
    · intro j d hj hne
      exact (notesOf_map d.window e.window _).trans (if_neg (hke.window_ne hk hj hne).symm)

/-- What a session end reports, read entry by entry. -/
theorem notesOf_sessionEnd (hke : Keyed r) {e : Entry} (hk : r.entries.get? k = some e)
    (effects : List SessionEffect) :
    notesOf e.window (noted r .sessionEnd (.ended effects)) =
      (endEffects e).map SessionEffect.note := by
  have hmap : ∀ d : Entry, (endEffects d).map (fun f => (d.window, f.note)) =
      ((endEffects d).map SessionEffect.note).map (d.window, ·) := by
    intro d
    simp
  simp only [noted, hmap]
  rw [notesOf, filterMap_flatMap_values hk]
  · exact (notesOf_map e.window e.window _).trans (if_pos rfl)
  · intro j d hj hne
    exact (notesOf_map d.window e.window _).trans (if_neg (hke.window_ne hk hj hne).symm)

/-- **Every entry moves along `EntryStep` with exactly the notes about its window, and none
disappears.** -/
theorem step_entry {op : WindowOp} {out : WindowOutcome} (h : Step r op r' out) (hke : Keyed r)
    {e : Entry} (hk : r.entries.get? k = some e) :
    ∃ e', r'.entries.get? k = some e' ∧
      EntryStep r op e e' (notesOf e.window (noted r op out)) := by
  cases h with
  | idle hi =>
    have hn : noted r op out = [] := by
      cases hi with
      | @nativeClose view out' hreq _ =>
        cases out' with
        | requested seq fact => exact absurd rfl (hreq seq fact)
        | _ => rfl
      | nativeFailed =>
        simp only [noted, Option.toList_none, map_nil, under]
        cases r.windowOfBuild _ <;> rfl
      | _ => rfl
    refine ⟨e, hk, ?_⟩
    rw [hn]
    exact .keep (by cases hi <;> rfl)
  | claim ha hc =>
    exact setEntry_entryStep hke ha.get (.claim ha hc) (by cases hc <;> rfl)
      (by cases hc <;> rfl) hk
  | markReady _ | factDestroyed | drops => exact ⟨e, hk, .keep rfl⟩
  | adopt hr he hf =>
    obtain ⟨hg, hp⟩ := find?_eq_some hf
    exact setEntry_entryStep hke hg (.adopt hr he hp) rfl rfl hk
  | @build o c wd ht x y _ _ _ _ =>
    have hne : k ≠ r.lastId + 1 := by
      rintro rfl
      exact absurd (hke.fresh.symm.trans hk) (by simp)
    have hw : (⟨r.lastId + 1, r.lastIncarnation + 1⟩ : WindowRef) ≠ e.window := by
      intro heq
      have := congrArg WindowRef.id heq
      rw [hke.id_eq k e hk] at this
      exact hne this.symm
    refine ⟨e, ?_, ?_⟩
    · rw [get?_insert, if_neg hne, hk]
    · simp only [noted, notesOf, filterMap_cons, hw, if_false, filterMap_nil]
      exact .keep rfl
  | requestClose ha hp hlt =>
    exact setEntry_entryStep hke ha.get (.requestClose ha hp hlt) rfl
      (by simp [noted, ha.window_eq]) hk
  | veto ha hp =>
    exact setEntry_entryStep hke ha.get (.veto ha hp) rfl (by simp [noted, ha.window_eq]) hk
  | allow ha hp =>
    exact setEntry_entryStep hke ha.get (.allow ha hp) rfl (by simp [noted, ha.window_eq]) hk
  | destroyOpen ha hp hlt =>
    exact setEntry_entryStep hke ha.get (.destroyOpen ha hp hlt) rfl
      (by simp [noted, destroyNotes, ha.window_eq]) hk
  | destroyPending ha hp hlt =>
    exact setEntry_entryStep hke ha.get (.destroyPending ha hp hlt) rfl
      (by simp [noted, destroyNotes, note, ha.window_eq]) hk
  | destroyClosing ha hp hlt =>
    exact setEntry_entryStep hke ha.get (.destroyClosing ha hp hlt) rfl
      (by simp [noted, destroyNotes, ha.window_eq]) hk
  | built hf hp =>
    obtain ⟨hg, hb⟩ := find?_eq_some hf
    exact setEntry_entryStep hke hg (.built (hasBuild_iff.mp hb) hp) rfl rfl hk
  | cleanup hf hp =>
    obtain ⟨hg, hb⟩ := find?_eq_some hf
    exact setEntry_entryStep hke hg (.cleanup (hasBuild_iff.mp hb) hp) rfl rfl hk
  | @failed b k' e' call hf hp _ =>
    obtain ⟨hg, hb⟩ := find?_eq_some hf
    refine setEntry_entryStep hke hg (.failed (hasBuild_iff.mp hb) hp) rfl ?_ hk
    simp only [noted, windowOfBuild_eq hf, under_some]
    cases e'.ownerLive <;> cases r.ending <;> rfl
  | failedLast hf hp _ hli he _ =>
    obtain ⟨hg, hb⟩ := find?_eq_some hf
    refine setEntry_entryStep hke hg (.failed (hasBuild_iff.mp hb) hp) rfl ?_ hk
    simp [noted, windowOfBuild_eq hf, hli, he]
  | failedLate hf hp =>
    obtain ⟨hg, hb⟩ := find?_eq_some hf
    refine setEntry_entryStep hke hg (.failedLate (hasBuild_iff.mp hb) hp) rfl ?_ hk
    simp [noted, windowOfBuild_eq hf]
  | fact hf hp =>
    obtain ⟨hg, hv⟩ := find?_eq_some hf
    refine setEntry_entryStep hke hg (.fact hp ?_) rfl (deliver_notes _ _ _) hk
    simpa [Entry.view, hp] using view_of_hasView hv
  | factPending hf hp =>
    obtain ⟨hg, hv⟩ := find?_eq_some hf
    refine setEntry_entryStep hke hg (.factPending hp ?_) rfl (deliver_notes _ _ _) hk
    simpa [Entry.view, hp] using view_of_hasView hv
  | @factClosing view k' e' native f hf hp =>
    obtain ⟨hg, hv⟩ := find?_eq_some hf
    have hvi := view_of_hasView hv
    cases native with
    | none => simp [Entry.view, hp] at hvi
    | some native =>
      refine setEntry_entryStep hke hg (.factClosing hp ?_) rfl rfl hk
      simpa [Entry.view, hp] using hvi
  | nativeClose hf hp hlt =>
    obtain ⟨hg, hv⟩ := find?_eq_some hf
    refine setEntry_entryStep hke hg (.nativeClose hp ?_ hlt) rfl ?_ hk
    · simpa [Entry.view, hp] using view_of_hasView hv
    · simp [noted, windowOfView_eq hf]
  | released hf hp _ | releasedBusy hf hp _ _ _ | releasedDeferred hf hp _ _
  | releasedLast hf hp _ _ =>
  obtain ⟨hg, hv⟩ := find?_eq_some hf
  refine setEntry_entryStep hke hg (.released hp ?_) rfl (noted_released hf _) hk
  simpa [Entry.view, hp] using view_of_hasView hv
  | @roleLost o =>
    refine ⟨if losesRole o e then loseRole e else e, by simp [roleLost, hk], ?_⟩
    rw [notesOf_roleLost hke o hk]
    split_ifs with hl
    · exact .lost hl
    · exact .spared (Bool.not_eq_true _ ▸ hl)
  | @subscribe o =>
    refine ⟨if survives e then WindowRegistry.takeOver o e else e,
      by simp [subscribeSuccessor, hk], ?_⟩
    split_ifs with hs
    · exact .takeOver hs
    · exact .keep (Bool.not_eq_true _ ▸ hs)
  | ended =>
    refine ⟨endEntry e, by simp [sessionEnd, hk], ?_⟩
    rw [notesOf_sessionEnd hke hk]
    exact .ended

theorem EntryStep.window_eq {op : WindowOp} {e : Entry} {notes : List Note}
    (h : EntryStep r op e e' notes) : e'.window = e.window := by
  cases h <;> rfl

theorem lastId_le {op : WindowOp} {out : WindowOutcome} (h : Step r op r' out) :
    r.lastId ≤ r'.lastId := by
  cases h with
  | build _ _ _ _ => exact Nat.le_succ _
  | _ => exact le_rfl

theorem Keyed.step {op : WindowOp} {out : WindowOutcome} (hi : Keyed r) (h : Step r op r' out) :
    Keyed r' where
  id_eq := by
    intro k e' hk
    rcases step_key h hk with ⟨e, he⟩ | ⟨rfl, -, -, -, o, c, wd, ht, x, y, -, -, -, rfl⟩
    · obtain ⟨e'', he'', hs⟩ := step_entry h hi he
      cases he''.symm.trans hk
      rw [hs.window_eq]
      exact hi.id_eq k e he
    · rfl
  le_lastId := by
    intro k e' hk
    rcases step_key h hk with ⟨e, he⟩ | ⟨rfl, -, -, -, o, c, wd, ht, x, y, -, -, hid, -⟩
    · exact (hi.le_lastId k e he).trans (lastId_le h)
    · exact hid.ge

theorem keyed_run (ops : List WindowOp) : Keyed (machine.run ops) := by
  induction ops using reverseRecOn with
  | nil =>
    constructor
    · intro k e h
      cases h
    · intro k e h
      cases h
  | append_singleton ops op ih =>
    exact ih.step (run_sound ops op)

/-! ## Induction over the life of a window -/

/-- Notes are about windows of the registry, or about the window being minted. -/
theorem noted_window {op : WindowOp} {out : WindowOutcome} (h : Step r op r' out)
    {n : WindowRef × Note} (hn : n ∈ noted r op out) :
    (∃ k e, r.entries.get? k = some e ∧ e.window = n.1) ∨
      (∃ k e', r'.entries.get? k = some e' ∧ e'.window = n.1) := by
  cases h with
  | idle hi =>
    cases hi with
    | @nativeClose view out' hreq _ =>
      cases out' with
      | requested seq fact => exact absurd rfl (hreq seq fact)
      | _ => cases hn
    | nativeFailed =>
      simp only [noted, Option.toList_none, map_nil, under] at hn
      simp at hn
    | _ => cases hn
  | claim had hc => cases hc <;> cases hn
  | markReady | factDestroyed | drops | subscribe | factClosing => cases hn
  | adopt hr hen hf | cleanup hf hp =>
    cases mem_singleton.mp hn
    exact .inl ⟨_, _, (find?_eq_some hf).1, rfl⟩
  | build _ _ _ _ =>
    cases mem_singleton.mp hn
    exact .inr ⟨r.lastId + 1, _, by rw [get?_insert, if_pos rfl], rfl⟩
  | requestClose had hp hlt =>
    simp only [noted, under_some, mem_map] at hn
    obtain ⟨_, -, rfl⟩ := hn
    exact .inl ⟨_, _, had.get, had.window_eq⟩
  | veto had hp | allow had hp =>
    simp only [noted, mem_cons, not_mem_nil, or_false] at hn
    rcases hn with rfl | rfl <;> exact .inl ⟨_, _, had.get, had.window_eq⟩
  | destroyOpen had hp hlt | destroyPending had hp hlt | destroyClosing had hp hlt =>
    simp only [noted, destroyNotes, note, map_cons, map_nil,
      nil_append, cons_append, mem_cons, not_mem_nil, or_false] at hn
    rcases hn with rfl | rfl | rfl <;> exact .inl ⟨_, _, had.get, had.window_eq⟩
  | built hf hp =>
    simp only [noted, mem_cons, not_mem_nil, or_false] at hn
    rcases hn with rfl | rfl <;> exact .inl ⟨_, _, (find?_eq_some hf).1, rfl⟩
  | failed hf _ _ | failedLast hf _ _ _ _ _ | failedLate hf _ =>
    simp only [noted, windowOfBuild_eq hf, under_some, mem_map] at hn
    obtain ⟨_, -, rfl⟩ := hn
    exact .inl ⟨_, _, (find?_eq_some hf).1, rfl⟩
  | fact hf hp | factPending hf hp =>
    simp only [noted, deliver_notes, mem_map] at hn
    obtain ⟨_, -, rfl⟩ := hn
    exact .inl ⟨_, _, (find?_eq_some hf).1, rfl⟩
  | nativeClose hf hp hlt =>
    simp only [noted, windowOfView_eq hf, under_some, mem_map] at hn
    obtain ⟨_, -, rfl⟩ := hn
    exact .inl ⟨_, _, (find?_eq_some hf).1, rfl⟩
  | released hf hp _ | releasedBusy hf hp _ _ _ | releasedDeferred hf hp _ _
  | releasedLast hf hp _ _ =>
  rw [noted_released hf, mem_map] at hn
  obtain ⟨_, -, rfl⟩ := hn
  exact .inl ⟨_, _, (find?_eq_some hf).1, rfl⟩
  | roleLost =>
    simp only [noted, roleLost, mem_append, mem_map, mem_filterMap, mem_filter] at hn
    rcases hn with ⟨a, ⟨e, ⟨he, -⟩, ha⟩, rfl⟩ | ⟨e, he, rfl⟩
    · obtain ⟨k, hk⟩ := mem_values_iff.mp he
      obtain ⟨seq, -, rfl⟩ := Option.map_eq_some_iff.mp ha
      exact .inl ⟨k, e, hk, rfl⟩
    · obtain ⟨k, hk⟩ := mem_values_iff.mp he
      exact .inl ⟨k, e, hk, rfl⟩
  | ended =>
    simp only [noted, mem_flatMap, mem_map] at hn
    obtain ⟨e, he, f, -, rfl⟩ := hn
    obtain ⟨k, hk⟩ := mem_values_iff.mp he
    exact .inl ⟨k, e, hk, rfl⟩

/-- Only windows of the registry are ever noted. -/
theorem window_of_noted (ops : List WindowOp) :
    ∀ n ∈ machine.collect noted ops,
      ∃ k e, (machine.run ops).entries.get? k = some e ∧ e.window = n.1 := by
  induction ops using reverseRecOn with
  | nil => intro n hn; cases hn
  | append_singleton ops op ih =>
    intro n hn
    have hst := run_sound ops op
    have hmo : (∃ k e, (machine.run ops).entries.get? k = some e ∧ e.window = n.1) →
        ∃ k e, (machine.run (ops ++ [op])).entries.get? k = some e ∧ e.window = n.1 := by
      rintro ⟨k, e, hk, hw⟩
      obtain ⟨e', hk', hs⟩ := step_entry hst (keyed_run ops) hk
      exact ⟨k, e', hk', hs.window_eq.trans hw⟩
    rw [Machine.collect_snoc, mem_append] at hn
    rcases hn with hn | hn
    · exact hmo (ih n hn)
    · rcases noted_window hst hn with h | h
      · exact hmo h
      · exact h

theorem window_of_log {w : WindowRef} (h : log ops w ≠ []) :
    ∃ k e, (machine.run ops).entries.get? k = some e ∧ e.window = w := by
  obtain ⟨note, hno⟩ := exists_mem_of_ne_nil _ h
  obtain ⟨n, hn, hw⟩ := mem_filterMap.mp hno
  split_ifs at hw with he
  obtain ⟨k, e, hk, hwi⟩ := window_of_noted ops n hn
  exact ⟨k, e, hk, hwi.trans he⟩

theorem log_eq_nil {w : WindowRef} (h : (machine.run ops).lastId < w.id) : log ops w = [] := by
  by_contra hne
  obtain ⟨k, e, hk, rfl⟩ := window_of_log hne
  have hle := (keyed_run ops).le_lastId k e hk
  rw [(keyed_run ops).id_eq k e hk] at h
  omega

/-- **Induction over the life of a window.**  What holds of a freshly minted entry with its one
note and survives every step of an entry, together with what the step notes, holds of every
entry of every run with its log. -/
theorem entry_induction {ok : List WindowOp → WindowOp → Prop} {P : Entry → List Note → Prop}
    (mint : ∀ w o c, P (openingEntry w o c) [.minted ⟨o, c⟩])
    (step : ∀ ops op k e e' notes, Machine.Guarded ok ops → ok ops op →
      (machine.run ops).entries.get? k = some e → EntryStep (machine.run ops) op e e' notes →
      P e (log ops e.window) → P e' (log ops e.window ++ notes))
    (h : Machine.Guarded ok ops) :
    ∀ k e, (machine.run ops).entries.get? k = some e → P e (log ops e.window) := by
  induction ops using reverseRecOn with
  | nil => intro k e hk; cases hk
  | append_singleton ops op ih =>
    obtain ⟨hops, hop⟩ := Machine.guarded_snoc.mp h
    intro k e' hk
    have hst := run_sound ops op
    rw [log_snoc]
    rcases step_key hst hk with
      ⟨e, he⟩ | ⟨rfl, -, -, -, o, c, wd, ht, x, y, rfl, ho, -, rfl⟩
    · obtain ⟨e'', he'', hs⟩ := step_entry hst (keyed_run ops) he
      cases he''.symm.trans hk
      rw [hs.window_eq]
      exact step ops op k e e' _ hops hop he hs (ih hops k e he)
    · have hn : log ops (openingEntry ⟨(machine.run ops).lastId + 1,
          (machine.run ops).lastIncarnation + 1⟩ o c).window = [] :=
        log_eq_nil (Nat.lt_succ_self _)
      rw [hn, ho]
      simp only [noted, openingEntry, notesOf_cons_self, notesOf_nil, nil_append]
      exact mint _ o c

end Keld.Window
