/-
# `Keld.Window.Steps` — everything one registry operation can do

`Step r op r' out` is the registry's transition relation: one constructor for each
effect an operation can have, with the guards under which the code takes that branch.
`step_sound` says that `WindowRegistry.step` never does anything else, and every later
invariant is a case analysis of `Step`.

* `idle`: the registry is exactly as before (refusals before admission, unknown views
  and builds, read-only calls).
* `claim`: the call was admitted and only its window's adoption mark is cleared.  The
  source clears it inside `admitted_entry`, before the phase is looked at, so the
  refusals that come later are here.
-/
import Keld.Window.Registry

namespace Keld.Window

open WindowRegistry OrdMap

/-! ## Admission -/

/-- `admitted_entry` let a call of `owner` through to the entry of `window`. -/
structure Admitted (r : WindowRegistry) (owner : WindowOwner) (window : WindowRef)
    (e : Entry) : Prop where
  ready : r.ready = true
  notEnding : r.ending = false
  get : r.entries.get? window.id = some e
  window_eq : e.window = window
  notDestroyed : e.phase.isDestroyed = false
  live : e.ownerLive = true
  owner_eq : e.owner = owner

/-- An admitted call claims the window. -/
def Entry.claimed (e : Entry) : Entry := { e with adoptable := false }

variable {r r' : WindowRegistry} {e' : Entry} {n m : ℕ}

theorem requireReady_ok (h : r.requireReady = .ok ()) : r.ready = true ∧ r.ending = false := by
  unfold requireReady at h
  split at h
  · next hc => simpa using hc
  · cases h

theorem admittedEntry_ok {owner : WindowOwner} {window : WindowRef}
    (h : r.admittedEntry owner window = .ok (r', e')) :
    ∃ e, Admitted r owner window e ∧ e' = e.claimed ∧ r' = r.setEntry window.id e' := by
  unfold admittedEntry at h
  split at h
  · cases h
  · next hr =>
    obtain ⟨hre, hen⟩ := requireReady_ok hr
    split at h
    · cases h
    · next e hg =>
      obtain ⟨hge, hco⟩ := Option.filter_eq_some_iff.mp hg
      split at h
      · cases h
      · next hown =>
        cases h
        simp only [Bool.and_eq_true, beq_iff_eq, Bool.not_eq_true'] at hco
        simp only [Bool.or_eq_true, Bool.not_eq_true', bne_iff_ne, ne_eq, not_or,
          Bool.not_eq_false, not_not] at hown
        exact ⟨e, ⟨hre, hen, hge, hco.1, hco.2, hown.1, hown.2⟩, rfl, rfl⟩

/-! ## The relation -/

/-- The state update and the event of a UI-thread state fact. -/
def NativeFact.update : NativeFact → WindowRef → WindowState → WindowState × Option WindowEvent
  | .bounds rect => updateBounds rect
  | .focus value => updateFocus value
  | .maximized value => updateMaximized value
  | .fullScreen value => updateFullScreen value

/-- Calls and results that leave the registry exactly as it was. -/
inductive Idle (r : WindowRegistry) : WindowOp → WindowOutcome → Prop
  | markReady : r.ending = true → Idle r .markReady (.ready false)
  | create {o c wd ht x y err} : Idle r (.create o c wd ht x y) (.create (.error err))
  | setMaximized {o w b err} : Idle r (.setMaximized o w b) (.setter (.error err))
  | setFullScreen {o w b err} : Idle r (.setFullScreen o w b) (.setter (.error err))
  | requestClose {o w err} : Idle r (.requestClose o w) (.closeCall (.error err) [])
  | closeReply {o w seq v err} : Idle r (.closeReply o w seq v) (.closeCall (.error err) [])
  | destroy {o w c err} : Idle r (.destroy o w c) (.closeCall (.error err) [])
  | nativeBuilt {b view state} : Idle r (.nativeBuilt b view state) (.built .ignored)
  | nativeFailed {b} : Idle r (.nativeFailed b) (.failed ⟨none, none, true⟩)
  | nativeFact {view fact} : Idle r (.nativeFact view fact) (.fact .unmapped)
  | nativeClose {view out} : (∀ seq fact, out ≠ .requested seq fact) →
      (∀ t, out ≠ .teardown t) → Idle r (.nativeClose view) (.close out)
  | nativeReleased {view} : Idle r (.nativeReleased view) (.released unexpectedRelease)
  | replay {o} : Idle r (.replay o) (.replayed (r.replay o))

/-- Admitted calls whose only effect on the entry `e` is that they claim it. -/
inductive Claim (o : WindowOwner) (w : WindowRef) (e : Entry) : WindowOp → WindowOutcome → Prop
  | setMaximized {b view} : e.phase.isLive = true → e.view = some view →
      Claim o w e (.setMaximized o w b) (.setter (.ok (.maximized view b)))
  | setMaximizedStale {b} : e.phase.isLive = false →
      Claim o w e (.setMaximized o w b) (.setter (.error .staleWindow))
  | setFullScreen {b view} : e.phase.isLive = true → e.view = some view →
      Claim o w e (.setFullScreen o w b) (.setter (.ok (.fullScreen view b)))
  | setFullScreenStale {b} : e.phase.isLive = false →
      Claim o w e (.setFullScreen o w b) (.setter (.error .staleWindow))
  | requestStale : e.phase.isOpening = true →
      Claim o w e (.requestClose o w) (.closeCall (.error .staleWindow) [])
  | requestMerged {native seq} : e.phase = .closePending native seq →
      Claim o w e (.requestClose o w) (.closeCall (.ok (.merged seq)) [])
  | requestClosing {native} : e.phase = .closing native →
      Claim o w e (.requestClose o w) (.closeCall (.ok .alreadyClosing) [])
  | requestExhausted {native} : e.phase = .opened native →
      checkedSucc64 e.lastCloseSeq = none →
      Claim o w e (.requestClose o w) (.closeCall (.error (.exhausted .closeSequence)) [])
  | replyStale {seq v} : e.phase.pendingClose ≠ some seq →
      Claim o w e (.closeReply o w seq v) (.closeCall (.ok .stale) [])
  | destroyCapacity {c} : maxPendingDestroysPerWindow ≤ e.destroyCalls.length →
      Claim o w e (.destroy o w c) (.closeCall (.error .pendingDestroyCapacity) [])
  | destroyStale {c} : e.phase.isOpening = true →
      Claim o w e (.destroy o w c) (.closeCall (.error .staleWindow) [])

/-- An on-screen window whose close was requested under the next sequence. -/
def Entry.requested (e : Entry) (native : NativeWindow) (seq : ℕ) : Entry :=
  { e with lastCloseSeq := seq, phase := .closePending native seq }

/-- The `CloseRequested` fact, for a live owner only. -/
def Entry.requestFact (e : Entry) (seq : ℕ) : Option OwnedWindowEvent :=
  if e.ownerLive then some ⟨e.owner, .closeRequested e.window seq⟩ else none

/-- A window torn down by a `Destroy` whose reply waits for the release. -/
def Entry.destroying (e : Entry) (call : PendingWindowCall) (native : NativeWindow) : Entry :=
  { e with adoptable := false, destroyCalls := e.destroyCalls ++ [call],
           phase := .closing (some native) }

/-- The tombstone that a physical release leaves. -/
def Entry.released (e : Entry) (view : WebviewId) : Entry :=
  { e with phase := .destroyed (some view), adoptable := false, dropped := 0,
           destroyCalls := [] }

/-- The `Destroyed` fact: for a live owner that was told of the window. -/
def Entry.destroyedFact (e : Entry) : Option OwnedWindowEvent :=
  if e.created && e.ownerLive then some ⟨e.owner, .destroyed e.window⟩ else none

/-- The owner a release may tell of the last window. -/
def Entry.recipient (e : Entry) (ending : Bool) : Option WindowOwner :=
  (e.destroyedFact.map (·.owner)).filter (fun _ => !ending)

/-- What a release of the entry answers. -/
def Entry.releaseOutcome (e : Entry) (lastWindow : Option WindowOwner) : ReleaseOutcome :=
  ⟨e.destroyedFact, lastWindow, e.dropped, false, e.destroyCalls⟩

/-- One operation: its guards, the registry after it and what it returns. -/
inductive Step (r : WindowRegistry) : WindowOp → WindowRegistry → WindowOutcome → Prop
  | idle {op out} : Idle r op out → Step r op r out
  | claim {o w e op out} : Admitted r o w e → Claim o w e op out →
      Step r op (r.setEntry w.id e.claimed) out
  | markReady : r.ending = false → Step r .markReady { r with ready := true } (.ready true)
  | adopt {o c wd ht x y k e} : r.ready = true → r.ending = false →
      r.entries.find? (adoptableBy o) = some (k, e) →
      Step r (.create o c wd ht x y) (r.setEntry k e.claimed)
        (.create (.ok (.adopted e.window)))
  | build {o c wd ht x y} : r.ready = true → r.ending = false →
      r.entries.find? (adoptableBy o) = none →
      r.entries.length < proposedMaxCumulativeWindowIds →
      Step r (.create o c wd ht x y)
        { r with
            lastId := r.lastId + 1
            lastIncarnation := r.lastIncarnation + 1
            entries := r.entries.insert (r.lastId + 1)
              (openingEntry ⟨r.lastId + 1, r.lastIncarnation + 1⟩ o c) }
        (.create (.ok (.build (r.lastIncarnation + 1) ⟨r.lastId + 1, r.lastIncarnation + 1⟩
          wd ht x y)))
  | requestClose {o w e native} : Admitted r o w e → e.phase = .opened native →
      e.lastCloseSeq + 1 < 2 ^ 64 →
      Step r (.requestClose o w)
        (r.setEntry w.id (e.claimed.requested native (e.lastCloseSeq + 1)))
        (.closeCall (.ok (.requested (e.lastCloseSeq + 1)
          (e.requestFact (e.lastCloseSeq + 1)))) [])
  | veto {o w e native seq} : Admitted r o w e → e.phase = .closePending native seq →
      Step r (.closeReply o w seq .veto)
        (r.setEntry w.id { e.claimed with phase := .opened native })
        (.closeCall (.ok .vetoed) [])
  | allow {o w e native seq} : Admitted r o w e → e.phase = .closePending native seq →
      Step r (.closeReply o w seq .allow)
        (r.setEntry w.id { e.claimed with phase := .closing (some native) })
        (.closeCall (.ok (.teardown ⟨w, native.view⟩)) [])
  | destroyOpen {o w c e native} : Admitted r o w e → e.phase = .opened native →
      e.destroyCalls.length < maxPendingDestroysPerWindow →
      Step r (.destroy o w c) (r.setEntry w.id (e.destroying ⟨o, c⟩ native))
        (.closeCall (.ok (.teardown ⟨w, native.view⟩)) [])
  | destroyPending {o w c e native seq} : Admitted r o w e →
      e.phase = .closePending native seq →
      e.destroyCalls.length < maxPendingDestroysPerWindow →
      Step r (.destroy o w c) (r.setEntry w.id (e.destroying ⟨o, c⟩ native))
        (.closeCall (.ok (.teardown ⟨w, native.view⟩)) [⟨w, seq⟩])
  | destroyClosing {o w c e native} : Admitted r o w e → e.phase = .closing native →
      e.destroyCalls.length < maxPendingDestroysPerWindow →
      Step r (.destroy o w c)
        (r.setEntry w.id { e.claimed with destroyCalls := e.destroyCalls ++ [⟨o, c⟩] })
        (.closeCall (.ok .alreadyClosing) [])
  | built {b view state k e call} : r.entries.find? (hasBuild b) = some (k, e) →
      e.phase = .opening call →
      Step r (.nativeBuilt b view state)
        { r.setEntry k { e with phase := .opened ⟨view, state⟩, created := true } with
            deferredLastWindow := false }
        (.built (.created ⟨call.owner, .created e.window state none⟩
          ⟨call.owner, call.correlation, .created e.window⟩))
  | cleanup {b view state k e} : r.entries.find? (hasBuild b) = some (k, e) →
      e.phase = .closing none →
      Step r (.nativeBuilt b view state)
        (r.setEntry k { e with phase := .closing (some ⟨view, state⟩) })
        (.built (.cleanup ⟨e.window, view⟩))
  | failed {b k e call} : r.entries.find? (hasBuild b) = some (k, e) →
      e.phase = .opening call →
      ¬ (r.deferredLastWindow = true ∧ e.ownerLive = true ∧ r.ending = false ∧
        (r.setEntry k { e with phase := .destroyed none }).hasLiveWindows = false) →
      Step r (.nativeFailed b) (r.setEntry k { e with phase := .destroyed none })
        (.failed ⟨(some call).filter (fun _ => e.ownerLive && !r.ending), none, false⟩)
  | failedLast {b k e call} : r.entries.find? (hasBuild b) = some (k, e) →
      e.phase = .opening call → r.deferredLastWindow = true → e.ownerLive = true →
      r.ending = false →
      (r.setEntry k { e with phase := .destroyed none }).hasLiveWindows = false →
      Step r (.nativeFailed b)
        { r.setEntry k { e with phase := .destroyed none } with deferredLastWindow := false }
        (.failed ⟨some call, some call.owner, false⟩)
  | failedLate {b k e} : r.entries.find? (hasBuild b) = some (k, e) →
      e.phase = .closing none →
      Step r (.nativeFailed b) (r.setEntry k { e with phase := .destroyed none })
        (.failed ⟨none, none, false⟩)
  | fact {view k e native} {f : NativeFact} : r.entries.find? (hasView view) = some (k, e) →
      e.phase = .opened native →
      Step r (.nativeFact view f)
        (r.setEntry k
          { e with phase := .opened { native with state := (f.update e.window native.state).1 } })
        (.fact (deliver e (f.update e.window native.state).2))
  | factPending {view k e native seq} {f : NativeFact} :
      r.entries.find? (hasView view) = some (k, e) →
      e.phase = .closePending native seq →
      Step r (.nativeFact view f)
        (r.setEntry k
          { e with phase :=
              .closePending { native with state := (f.update e.window native.state).1 } seq })
        (.fact (deliver e (f.update e.window native.state).2))
  | factClosing {view k e native} {f : NativeFact} :
      r.entries.find? (hasView view) = some (k, e) → e.phase = .closing native →
      Step r (.nativeFact view f) (r.setEntry k { e with dropped := saturatingSucc64 e.dropped })
        (.fact .dropped)
  | factDestroyed {view} {f : NativeFact} :
      Step r (.nativeFact view f)
        { r with destroyedFactDrops := saturatingSucc64 r.destroyedFactDrops }
        (.fact .dropped)
  | nativeClose {view k e native} : r.entries.find? (hasView view) = some (k, e) →
      e.phase = .opened native → e.lastCloseSeq + 1 < 2 ^ 64 →
      Step r (.nativeClose view)
        (r.setEntry k (e.requested native (e.lastCloseSeq + 1)))
        (.close (.requested (e.lastCloseSeq + 1) (e.requestFact (e.lastCloseSeq + 1))))
  | released {view k e native} : r.entries.find? (hasView view) = some (k, e) →
      e.phase = .closing (some native) → e.recipient r.ending = none →
      Step r (.nativeReleased view) (r.setEntry k (e.released view))
        (.released (e.releaseOutcome none))
  | releasedBusy {view k e native o} : r.entries.find? (hasView view) = some (k, e) →
      e.phase = .closing (some native) → e.recipient r.ending = some o →
      (r.setEntry k (e.released view)).hasLiveWindows = true →
      (r.setEntry k (e.released view)).onlyOpeningWindows = false →
      Step r (.nativeReleased view) (r.setEntry k (e.released view))
        (.released (e.releaseOutcome none))
  | releasedDeferred {view k e native o} : r.entries.find? (hasView view) = some (k, e) →
      e.phase = .closing (some native) → e.recipient r.ending = some o →
      (r.setEntry k (e.released view)).onlyOpeningWindows = true →
      Step r (.nativeReleased view)
        { r.setEntry k (e.released view) with deferredLastWindow := true }
        (.released (e.releaseOutcome none))
  | releasedLast {view k e native o} : r.entries.find? (hasView view) = some (k, e) →
      e.phase = .closing (some native) → e.recipient r.ending = some o →
      (r.setEntry k (e.released view)).hasLiveWindows = false →
      Step r (.nativeReleased view)
        { r.setEntry k (e.released view) with deferredLastWindow := false }
        (.released (e.releaseOutcome (some o)))
  | roleLost {o} : Step r (.roleLost o) (r.roleLost o).1 (.roleLost (r.roleLost o).2)
  | subscribe {o} : Step r (.subscribeSuccessor o) (r.subscribeSuccessor o) .subscribed
  | drops : Step r .takeDestroyedFactDrops { r with destroyedFactDrops := 0 }
      (.drops r.destroyedFactDrops)
  | ended : Step r .sessionEnd r.sessionEnd.1 (.ended r.sessionEnd.2)

/-! ## The operations do nothing else -/

theorem checkedSucc64_eq_some (h : checkedSucc64 n = some m) : m = n + 1 ∧ n + 1 < 2 ^ 64 := by
  unfold checkedSucc64 at h
  split at h
  · next hlt => exact ⟨(Option.some.inj h).symm, hlt⟩
  · cases h

theorem checkedSucc32_eq_some (h : checkedSucc32 n = some m) : m = n + 1 := by
  unfold checkedSucc32 at h
  split at h
  · exact (Option.some.inj h).symm
  · cases h

theorem setEntry_self {k : ℕ} {e : Entry} (h : r.entries.get? k = some e) : r.setEntry k e = r := by
  unfold setEntry
  rw [set_self h]

@[simp] theorem setEntry_setEntry (r : WindowRegistry) (k : ℕ) (e e' : Entry) :
    (r.setEntry k e).setEntry k e' = r.setEntry k e' := by
  simp [setEntry]

theorem step_create (r : WindowRegistry) (o : WindowOwner) (c : CorrelationId) (wd ht : ℕ)
    (x y : Option ℤ) :
    Step r (.create o c wd ht x y) (r.create o c wd ht x y).1
      (.create (r.create o c wd ht x y).2) := by
  unfold create
  split
  · exact .idle .create
  · next hr =>
    obtain ⟨hre, hen⟩ := requireReady_ok hr
    split
    · next k e hf => exact .adopt hre hen hf
    · next hf =>
      split
      · exact .idle .create
      · next id hid =>
        split
        · exact .idle .create
        · next inc hinc =>
          split_ifs with hl
          · exact .idle .create
          · cases checkedSucc32_eq_some hid
            cases (checkedSucc64_eq_some hinc).1
            exact .build hre hen hf (not_le.mp hl)

/-- The view of a setter call: refused before admission, or a claim. -/
theorem admittedView_cases (r : WindowRegistry) (o : WindowOwner) (w : WindowRef) :
    (∃ err, r.admittedView o w = (r, .error err)) ∨
    ∃ e, Admitted r o w e ∧
      ((e.phase.isLive = true ∧ ∃ view, e.view = some view ∧
          r.admittedView o w = (r.setEntry w.id e.claimed, .ok view)) ∨
        (e.phase.isLive = false ∧
          r.admittedView o w = (r.setEntry w.id e.claimed, .error .staleWindow))) := by
  unfold admittedView
  split
  · next err _ => exact .inl ⟨err, rfl⟩
  · next r' e' ha =>
    obtain ⟨e, had, rfl, rfl⟩ := admittedEntry_ok ha
    refine .inr ⟨e, had, ?_⟩
    cases hp : e.phase <;>
      simp [Entry.claimed, hp, Entry.view, Phase.isLive]

theorem step_setMaximized (r : WindowRegistry) (o : WindowOwner) (w : WindowRef) (b : Bool) :
    Step r (.setMaximized o w b) (r.setMaximized o w b).1 (.setter (r.setMaximized o w b).2) := by
  unfold setMaximized
  rcases admittedView_cases r o w with
    ⟨err, h⟩ | ⟨e, ha, ⟨hl, view, hv, h⟩ | ⟨hl, h⟩⟩
  · rw [h]
    exact .idle .setMaximized
  · rw [h]
    exact .claim ha (.setMaximized hl hv)
  · rw [h]
    exact .claim ha (.setMaximizedStale hl)

theorem step_setFullScreen (r : WindowRegistry) (o : WindowOwner) (w : WindowRef) (b : Bool) :
    Step r (.setFullScreen o w b) (r.setFullScreen o w b).1
      (.setter (r.setFullScreen o w b).2) := by
  unfold setFullScreen
  rcases admittedView_cases r o w with
    ⟨err, h⟩ | ⟨e, ha, ⟨hl, view, hv, h⟩ | ⟨hl, h⟩⟩
  · rw [h]
    exact .idle .setFullScreen
  · rw [h]
    exact .claim ha (.setFullScreen hl hv)
  · rw [h]
    exact .claim ha (.setFullScreenStale hl)

/-- `begin_close` starts a close exactly on an `Open` window with a sequence left. -/
theorem beginClose_cases (e : Entry) :
    (∃ native, e.phase = .opened native ∧ e.lastCloseSeq + 1 < 2 ^ 64 ∧
      beginClose e = (e.requested native (e.lastCloseSeq + 1),
        .requested (e.lastCloseSeq + 1) (e.requestFact (e.lastCloseSeq + 1)))) ∨
    (∃ native, e.phase = .opened native ∧ checkedSucc64 e.lastCloseSeq = none ∧
      beginClose e = (e, .exhausted)) ∨
    (∃ native seq, e.phase = .closePending native seq ∧ beginClose e = (e, .merged seq)) ∨
    ((∃ native, e.phase = .closing native) ∧ beginClose e = (e, .alreadyClosing)) ∨
    (e.phase.isDestroyed = true ∧ beginClose e = (e, .alreadyClosing)) ∨
    (e.phase.isOpening = true ∧ beginClose e = (e, .unmapped)) := by
  unfold beginClose
  cases hp : e.phase with
  | opening call => simp [Phase.isOpening]
  | opened native =>
    cases hseq : checkedSucc64 e.lastCloseSeq with
    | none => exact .inr (.inl ⟨native, rfl, rfl, rfl⟩)
    | some seq =>
      obtain ⟨rfl, hlt⟩ := checkedSucc64_eq_some hseq
      exact .inl ⟨native, rfl, hlt, rfl⟩
  | closePending native seq => exact .inr (.inr (.inl ⟨native, seq, rfl, rfl⟩))
  | closing native => exact .inr (.inr (.inr (.inl ⟨⟨native, rfl⟩, rfl⟩)))
  | destroyed view => simp [Phase.isDestroyed]

theorem step_requestClose (r : WindowRegistry) (o : WindowOwner) (w : WindowRef) :
    Step r (.requestClose o w) (r.requestClose o w).1 (.closeCall (r.requestClose o w).2 []) := by
  unfold requestClose
  split
  · exact .idle .requestClose
  · next r' e' ha =>
    obtain ⟨e, had, rfl, rfl⟩ := admittedEntry_ok ha
    split_ifs with hop
    · exact .claim had (.requestStale hop)
    · rcases beginClose_cases e.claimed with
        ⟨native, hp, hlt, h⟩ | ⟨native, hp, hn, h⟩ | ⟨native, seq, hp, h⟩ |
        ⟨⟨native, hp⟩, h⟩ | ⟨hd, -⟩ | ⟨ho, -⟩
      · rw [h]
        simp only [setEntry_setEntry]
        exact .requestClose had hp hlt
      · rw [h]
        simp only [setEntry_setEntry]
        exact .claim had (.requestExhausted hp hn)
      · rw [h]
        simp only [setEntry_setEntry]
        exact .claim had (.requestMerged hp)
      · rw [h]
        simp only [setEntry_setEntry]
        exact .claim had (.requestClosing hp)
      · exact absurd hd (by simp [Entry.claimed, had.notDestroyed])
      · exact absurd ho hop

theorem step_closeReply (r : WindowRegistry) (o : WindowOwner) (w : WindowRef) (seq : ℕ)
    (v : CloseVerdict) :
    Step r (.closeReply o w seq v) (r.closeReply o w seq v).1
      (.closeCall (r.closeReply o w seq v).2 []) := by
  unfold closeReply
  split
  · exact .idle .closeReply
  · next r' e' ha =>
    obtain ⟨e, had, rfl, rfl⟩ := admittedEntry_ok ha
    split
    · next native pending hp =>
      have hp' : e.phase = .closePending native pending := hp
      split_ifs with hne
      · refine .claim had (.replyStale ?_)
        rw [hp']
        exact fun h => hne (Option.some.inj h).symm
      · cases not_not.mp hne
        cases v with
        | allow =>
          simp only [setEntry_setEntry]
          exact .allow had hp'
        | veto =>
          simp only [setEntry_setEntry]
          exact .veto had hp'
    · next hne =>
      refine .claim had (.replyStale ?_)
      cases hp : e.phase with
      | closePending native pending => exact absurd hp (hne native pending)
      | _ => simp [Phase.pendingClose]

theorem step_destroy (r : WindowRegistry) (o : WindowOwner) (w : WindowRef) (c : CorrelationId) :
    Step r (.destroy o w c) (r.destroy o w c).1
      (.closeCall (r.destroy o w c).2.1 (r.destroy o w c).2.2) := by
  unfold destroy
  split
  · exact .idle .destroy
  · next r' e' ha =>
    obtain ⟨e, had, rfl, rfl⟩ := admittedEntry_ok ha
    split_ifs with hcap
    · exact .claim had (.destroyCapacity hcap)
    · have hlt : e.destroyCalls.length < maxPendingDestroysPerWindow := not_le.mp hcap
      simp only [setEntry_setEntry]
      split
      · next native hp => exact Step.destroyOpen (e := e) had hp hlt
      · next native seq hp => exact Step.destroyPending (e := e) had hp hlt
      · next native hp => exact Step.destroyClosing (e := e) had hp hlt
      · next call hp =>
        exact .claim had (.destroyStale (by rw [show e.phase = _ from hp]; rfl))
      · next view hp =>
        have := had.notDestroyed
        rw [show e.phase = _ from hp] at this
        cases this

theorem step_nativeBuilt (r : WindowRegistry) (b : ℕ) (view : WebviewId) (state : WindowState) :
    Step r (.nativeBuilt b view state) (r.nativeBuilt b view state).1
      (.built (r.nativeBuilt b view state).2) := by
  unfold nativeBuilt
  split
  · exact .idle .nativeBuilt
  · next k e hf =>
    split
    · next call hp => exact .built hf hp
    · next hp => exact .cleanup hf hp
    all_goals exact .idle .nativeBuilt

theorem step_nativeFailed (r : WindowRegistry) (b : ℕ) :
    Step r (.nativeFailed b) (r.nativeFailed b).1 (.failed (r.nativeFailed b).2) := by
  unfold nativeFailed
  split
  · exact .idle .nativeFailed
  · next k e hf =>
    split
    · next call hp =>
      simp only [buildFailed]
      split_ifs with hla
      · simp only [Bool.and_eq_true, Bool.not_eq_true', Option.isSome_filter,
          Option.any_some] at hla
        obtain ⟨⟨hdef, hl, he⟩, hlw⟩ := hla
        have hca : (some call).filter (fun _ => e.ownerLive && !r.ending) = some call := by
          simp only [setEntry] at he
          simp [hl, he]
        simp only [setEntry] at hca he hdef ⊢
        rw [hca]
        exact .failedLast hf hp hdef hl he hlw
      · refine .failed hf hp (fun hc => hla ?_)
        obtain ⟨hdef, hl, he, hlw⟩ := hc
        simp only [Bool.and_eq_true, Bool.not_eq_true', Option.isSome_filter, Option.any_some]
        exact ⟨⟨hdef, hl, he⟩, hlw⟩
    · next hp =>
      simp only [buildFailed, Option.filter_none, Option.isSome_none, Bool.and_false,
        Bool.false_and, Bool.false_eq_true, if_false]
      exact .failedLate hf hp
    all_goals exact .idle .nativeFailed

theorem nativeState_eq (r : WindowRegistry) (view : WebviewId) (f : NativeFact) :
    r.nativeState view f = r.nativeFact view f.update := by
  cases f <;> rfl

theorem step_nativeFact (r : WindowRegistry) (view : WebviewId) (f : NativeFact) :
    Step r (.nativeFact view f) (r.nativeState view f).1 (.fact (r.nativeState view f).2) := by
  rw [nativeState_eq]
  unfold nativeFact
  split
  · exact .idle .nativeFact
  · next k e hf =>
    split
    · next native hp => exact .fact hf hp
    · next native seq hp => exact .factPending hf hp
    · next native hp => exact .factClosing hf hp
    · exact .factDestroyed
    · exact .idle .nativeFact

theorem step_nativeClose (r : WindowRegistry) (view : WebviewId) :
    Step r (.nativeClose view) (r.nativeClose view).1 (.close (r.nativeClose view).2) := by
  unfold nativeClose
  split
  · exact .idle (.nativeClose (by simp) (by simp))
  · next k e hf =>
    have hse := setEntry_self (find?_eq_some hf).1
    rcases beginClose_cases e with
      ⟨native, hp, hlt, h⟩ | ⟨native, hp, hn, h⟩ | ⟨native, seq, hp, h⟩ |
      ⟨-, h⟩ | ⟨-, h⟩ | ⟨-, h⟩
    · rw [h]
      exact .nativeClose hf hp hlt
    all_goals
      rw [h]
      simp only [hse]
      exact .idle (.nativeClose (by simp) (by simp))

/-- A release of a torn-down window, read through its recipient. -/
theorem nativeReleased_eq {view : WebviewId} {k : ℕ} {e : Entry} {native : NativeWindow}
    (hf : r.entries.find? (hasView view) = some (k, e)) (hp : e.phase = .closing (some native)) :
    r.nativeReleased view =
      let r' := r.setEntry k (e.released view)
      match e.recipient r.ending with
      | some owner =>
        if r'.hasLiveWindows then
          if r'.onlyOpeningWindows then
            ({ r' with deferredLastWindow := true }, e.releaseOutcome none)
          else (r', e.releaseOutcome none)
        else ({ r' with deferredLastWindow := false }, e.releaseOutcome (some owner))
      | none => (r', e.releaseOutcome none) := by
  unfold nativeReleased
  simp only [hf, hp]
  rfl

theorem step_nativeReleased (r : WindowRegistry) (view : WebviewId) :
    Step r (.nativeReleased view) (r.nativeReleased view).1
      (.released (r.nativeReleased view).2) := by
  cases hf : r.entries.find? (hasView view) with
  | none =>
    simp only [nativeReleased, hf]
    exact .idle .nativeReleased
  | some found =>
    obtain ⟨k, e⟩ := found
    by_cases hp : ∃ native, e.phase = .closing (some native)
    · obtain ⟨native, hp⟩ := hp
      rw [nativeReleased_eq hf hp]
      cases hr : e.recipient r.ending with
      | none => exact .released hf hp hr
      | some o =>
        simp only []
        split_ifs with hl hon
        · exact .releasedDeferred hf hp hr hon
        · exact .releasedBusy hf hp hr hl (Bool.not_eq_true _ ▸ hon)
        · exact .releasedLast hf hp hr (Bool.not_eq_true _ ▸ hl)
    · have hi : r.nativeReleased view = (r, unexpectedRelease) := by
        unfold nativeReleased
        simp only [hf]
        split
        · next native hp' => exact absurd ⟨native, hp'⟩ hp
        · rfl
      rw [hi]
      exact .idle .nativeReleased

/-- **The registry's operations are the transition relation.** -/
theorem step_sound (r : WindowRegistry) (op : WindowOp) :
    Step r op (r.step op).1 (r.step op).2 := by
  cases op with
  | markReady =>
    simp only [step, markReady]
    split_ifs with h
    · exact .idle (.markReady h)
    · exact .markReady (Bool.not_eq_true _ ▸ h)
  | create o c wd ht x y => exact step_create r o c wd ht x y
  | setMaximized o w b => exact step_setMaximized r o w b
  | setFullScreen o w b => exact step_setFullScreen r o w b
  | requestClose o w => exact step_requestClose r o w
  | closeReply o w seq v => exact step_closeReply r o w seq v
  | destroy o w c => exact step_destroy r o w c
  | nativeBuilt b view state => exact step_nativeBuilt r b view state
  | nativeFailed b => exact step_nativeFailed r b
  | nativeFact view f => exact step_nativeFact r view f
  | nativeClose view => exact step_nativeClose r view
  | nativeReleased view => exact step_nativeReleased r view
  | roleLost o => exact .roleLost
  | subscribeSuccessor o => exact .subscribe
  | replay o => exact .idle .replay
  | takeDestroyedFactDrops => exact .drops
  | sessionEnd => exact .ended

theorem run_sound (ops : List WindowOp) (op : WindowOp) :
    Step (machine.run ops) op (machine.run (ops ++ [op])) (machine.outcome ops op) := by
  rw [Machine.run_snoc]
  exact step_sound _ op

/-! ## Reading a step -/

theorem get?_setEntry {k : ℕ} {e : Entry} (h : r.entries.get? k = some e) (e' : Entry) (j : ℕ) :
    (r.setEntry k e').entries.get? j = if j = k then some e' else r.entries.get? j :=
  get?_set h e' j

theorem hasBuild_iff {b : ℕ} {e : Entry} : hasBuild b e = true ↔ e.window.incarnation = b := by
  simp [hasBuild]

theorem view_of_hasView {view : WebviewId} {e : Entry} (h : hasView view e = true) :
    e.view = some view := by
  simpa [hasView] using h

/-- The keys of a registry, and what `create` adds to them. -/
theorem step_key {op : WindowOp} {out : WindowOutcome} (h : Step r op r' out) {k : ℕ}
    (hk : r'.entries.get? k = some e') :
    (∃ e, r.entries.get? k = some e) ∨
      (k = r.lastId + 1 ∧ r.ready = true ∧ r.ending = false ∧
        r.entries.length < proposedMaxCumulativeWindowIds ∧
        ∃ o c wd ht x y, op = .create o c wd ht x y ∧
          out = .create (.ok (.build (r.lastIncarnation + 1)
            ⟨r.lastId + 1, r.lastIncarnation + 1⟩ wd ht x y)) ∧
          r'.lastId = r.lastId + 1 ∧
          e' = openingEntry ⟨r.lastId + 1, r.lastIncarnation + 1⟩ o c) := by
  have hset : ∀ {k' : ℕ} {e₁ e₂ : Entry}, r.entries.get? k' = some e₁ →
      (r.setEntry k' e₂).entries.get? k = some e' → ∃ e, r.entries.get? k = some e := by
    intro k' e₁ e₂ hk' h'
    rw [get?_setEntry hk'] at h'
    split_ifs at h' with heq
    · exact ⟨e₁, heq ▸ hk'⟩
    · exact ⟨e', h'⟩
  cases h with
  | idle _ | markReady _ | factDestroyed | drops => exact .inl ⟨e', hk⟩
  | claim ha _ | requestClose ha _ _ | veto ha _ | allow ha _ | destroyOpen ha _ _
  | destroyPending ha _ _ | destroyClosing ha _ _ => exact .inl (hset ha.get hk)
  | adopt _ _ hf => exact .inl (hset (find?_eq_some hf).1 hk)
  | @build o c wd ht x y hr hen _ hl =>
    rw [get?_insert] at hk
    split_ifs at hk with heq
    · exact .inr ⟨heq, hr, hen, hl, o, c, wd, ht, x, y, rfl, rfl, rfl, (Option.some.inj hk).symm⟩
    · exact .inl ⟨e', hk⟩
  | built hf _ | cleanup hf _ | failed hf _ _ | failedLast hf _ _ _ _ _ | failedLate hf _
  | fact hf _ | factPending hf _ | factClosing hf _ | nativeClose hf _ _ | released hf _ _
  | releasedBusy hf _ _ _ _ | releasedDeferred hf _ _ _ | releasedLast hf _ _ _ =>
  exact .inl (hset (find?_eq_some hf).1 hk)
  | roleLost =>
    simp only [roleLost, get?_map, Option.map_eq_some_iff] at hk
    obtain ⟨e, he, -⟩ := hk
    exact .inl ⟨e, he⟩
  | subscribe =>
    simp only [subscribeSuccessor, get?_map, Option.map_eq_some_iff] at hk
    obtain ⟨e, he, -⟩ := hk
    exact .inl ⟨e, he⟩
  | ended =>
    simp only [sessionEnd, get?_map, Option.map_eq_some_iff] at hk
    obtain ⟨e, he, -⟩ := hk
    exact .inl ⟨e, he⟩

theorem step_ending {op : WindowOp} {out : WindowOutcome} (h : Step r op r' out) :
    r'.ending = (r.ending || decide (op = .sessionEnd)) := by
  cases h with
  | idle hi => cases hi <;> simp
  | claim _ hc => cases hc <;> simp [setEntry]
  | roleLost => simp [roleLost]
  | subscribe => simp [subscribeSuccessor]
  | ended => simp [sessionEnd]
  | _ => simp [setEntry]

end Keld.Window
