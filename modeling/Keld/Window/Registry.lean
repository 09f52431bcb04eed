/-
# `Keld.Window.Registry` — the app session's window registry, as the code has it

The registry of `keld-core/src/app_session/window_registry.rs`: window identities, the
five-phase close state machine, adoption after role loss and the deferred last-window
check.  One definition per source function; what a function returns through a callback
(`abandoned`, `emit`) is returned as a list in call order.

The `BTreeMap` of entries is `OrdMap`, so "the first entry such that" is the entry of
lowest window id.  Counters are natural numbers with the checked or saturating addition
written out at their width.  `WindowOp` has one constructor for each public operation,
and `machine` is the registry as a deterministic machine.
-/
import Mathlib.Data.Int.Notation
import Mathlib.Data.Nat.Basic
import Keld.Lib.OrdMap
import Keld.Lib.Machine
import Mathlib.Algebra.Group.Nat.Defs

namespace Keld.Window

/-! ## Identities, facts and replies (`keld-ipc/src/window.rs`) -/

/-- Both identity halves required by every window-addressed message. -/
structure WindowRef where
  id : ℕ
  incarnation : ℕ
deriving DecidableEq, Repr

structure Rect where
  x : ℤ
  y : ℤ
  width : ℕ
  height : ℕ
deriving DecidableEq, Repr

/-- Host-confirmed state applied to the app's local window mirror. -/
structure WindowState where
  bounds : Rect
  focused : Bool
  maximized : Bool
  fullScreen : Bool
deriving DecidableEq, Repr

/-- Host-to-app window facts. -/
inductive WindowEvent where
  | created (window : WindowRef) (state : WindowState) (pendingClose : Option ℕ)
  | bounds (window : WindowRef) (bounds : Rect)
  | focus (window : WindowRef) (focused : Bool)
  | maximized (window : WindowRef) (maximized : Bool)
  | fullScreen (window : WindowRef) (fullScreen : Bool)
  | closeRequested (window : WindowRef) (closeSeq : ℕ)
  | destroyed (window : WindowRef)
deriving DecidableEq, Repr

/-- The window a fact is about. -/
def WindowEvent.window : WindowEvent → WindowRef
  | .created w _ _ | .bounds w _ | .focus w _ | .maximized w _ | .fullScreen w _
  | .closeRequested w _ | .destroyed w => w

inductive CloseVerdict where
  | allow
  | veto
deriving DecidableEq, Repr

/-- The replies the registry itself builds. -/
inductive WindowResponse where
  | created (window : WindowRef)
deriving DecidableEq, Repr

abbrev WebviewId := ℕ
abbrev CorrelationId := ℕ

/-- Trusted caller metadata: the Runtime identity of the link and the Core attempt. -/
structure WindowOwner where
  identity : ℕ
  attempt : ℕ
deriving DecidableEq, Repr

/-! ## Errors and outcomes -/

inductive WindowCounter where
  | id
  | incarnation
  | closeSequence
deriving DecidableEq, Repr

inductive WindowError where
  | staleWindow
  | exhausted (counter : WindowCounter)
  | notReady
  | wrongOwner
  | pendingDestroyCapacity
  | sessionWindowCapacity
deriving DecidableEq, Repr

structure PendingWindowCall where
  owner : WindowOwner
  correlation : CorrelationId
deriving DecidableEq, Repr

structure OwnedWindowEvent where
  owner : WindowOwner
  event : WindowEvent
deriving DecidableEq, Repr

structure WindowReply where
  owner : WindowOwner
  correlation : CorrelationId
  response : WindowResponse
deriving DecidableEq, Repr

inductive CreateOutcome where
  | build (build : ℕ) (window : WindowRef) (width height : ℕ) (x y : Option ℤ)
  | adopted (window : WindowRef)
deriving DecidableEq, Repr

structure Teardown where
  window : WindowRef
  view : WebviewId
deriving DecidableEq, Repr

inductive BuildOutcome where
  | created (fact : OwnedWindowEvent) (reply : WindowReply)
  | cleanup (teardown : Teardown)
  | ignored
deriving DecidableEq, Repr

structure BuildFailureOutcome where
  call : Option PendingWindowCall
  lastWindow : Option WindowOwner
  diagnostic : Bool
deriving DecidableEq, Repr

inductive NativeSetter where
  | maximized (view : WebviewId) (maximized : Bool)
  | fullScreen (view : WebviewId) (fullScreen : Bool)
deriving DecidableEq, Repr

inductive FactOutcome where
  | event (event : OwnedWindowEvent)
  | coalesced
  | suppressed
  | unmapped
  | dropped
deriving DecidableEq, Repr

inductive CloseOutcome where
  | requested (closeSeq : ℕ) (fact : Option OwnedWindowEvent)
  | merged (closeSeq : ℕ)
  | teardown (teardown : Teardown)
  | vetoed
  | stale
  | alreadyClosing
  | unmapped
  | exhausted
deriving DecidableEq, Repr

structure ReleaseOutcome where
  fact : Option OwnedWindowEvent
  lastWindow : Option WindowOwner
  droppedFacts : ℕ
  diagnostic : Bool
  destroyCalls : List PendingWindowCall
deriving DecidableEq, Repr

structure AbandonedClose where
  window : WindowRef
  closeSeq : ℕ
deriving DecidableEq, Repr

inductive SessionEffect where
  | teardown (teardown : Teardown)
  | createInterrupted (call : PendingWindowCall)
  | closeAbandoned (close : AbandonedClose)
deriving DecidableEq, Repr

/-! ## Entries -/

structure NativeWindow where
  view : WebviewId
  state : WindowState
deriving DecidableEq, Repr

inductive Phase where
  | opening (call : PendingWindowCall)
  | opened (native : NativeWindow)
  | closePending (native : NativeWindow) (closeSeq : ℕ)
  | closing (native : Option NativeWindow)
  | destroyed (view : Option WebviewId)
deriving DecidableEq, Repr

structure Entry where
  window : WindowRef
  owner : WindowOwner
  ownerLive : Bool
  adoptable : Bool
  created : Bool
  dropped : ℕ
  lastCloseSeq : ℕ
  destroyCalls : List PendingWindowCall
  phase : Phase
deriving DecidableEq, Repr

def maxPendingDestroysPerWindow : ℕ := 64
def proposedMaxCumulativeWindowIds : ℕ := 1024

/-- `u32::checked_add(1)`. -/
def checkedSucc32 (n : ℕ) : Option ℕ := if n + 1 < 2 ^ 32 then some (n + 1) else none

/-- `u64::checked_add(1)`. -/
def checkedSucc64 (n : ℕ) : Option ℕ := if n + 1 < 2 ^ 64 then some (n + 1) else none

/-- `u64::saturating_add(1)`. -/
def saturatingSucc64 (n : ℕ) : ℕ := if n + 1 < 2 ^ 64 then n + 1 else n

namespace Phase

def isOpening : Phase → Bool
  | .opening _ => true
  | _ => false

def isDestroyed : Phase → Bool
  | .destroyed _ => true
  | _ => false

/-- `Open` or `ClosePending`: the window is on screen and the app may address it. -/
def isLive : Phase → Bool
  | .opened _ | .closePending _ _ => true
  | _ => false

/-- The close sequence awaiting a verdict. -/
def pendingClose : Phase → Option ℕ
  | .closePending _ seq => some seq
  | _ => none

end Phase

def Entry.view (e : Entry) : Option WebviewId :=
  match e.phase with
  | .opened native | .closePending native _ | .closing (some native) => some native.view
  | .destroyed view => view
  | .opening _ | .closing none => none

structure WindowRegistry where
  ready : Bool
  ending : Bool
  lastId : ℕ
  lastIncarnation : ℕ
  entries : OrdMap ℕ Entry
  deferredLastWindow : Bool
  destroyedFactDrops : ℕ

namespace WindowRegistry

def new : WindowRegistry where
  ready := false
  ending := false
  lastId := 0
  lastIncarnation := 0
  entries := OrdMap.empty
  deferredLastWindow := false
  destroyedFactDrops := 0

/-- Writes through a reference to the entry at `k`. -/
def setEntry (r : WindowRegistry) (k : ℕ) (e : Entry) : WindowRegistry :=
  { r with entries := r.entries.set k e }

def markReady (r : WindowRegistry) : WindowRegistry × Bool :=
  if r.ending then (r, false) else ({ r with ready := true }, true)

def requireReady (r : WindowRegistry) : Except WindowError Unit :=
  if r.ready && !r.ending then .ok () else .error .notReady

/-- The survivors a `Create` of `owner` adopts before it builds. -/
def adoptableBy (owner : WindowOwner) (e : Entry) : Bool :=
  e.ownerLive && e.owner == owner && e.adoptable && e.phase.isLive

/-- The entry a fresh `Create` mints. -/
def openingEntry (window : WindowRef) (owner : WindowOwner) (correlation : CorrelationId) :
    Entry where
  window
  owner
  ownerLive := true
  adoptable := false
  created := false
  dropped := 0
  lastCloseSeq := 0
  destroyCalls := []
  phase := .opening ⟨owner, correlation⟩

def create (r : WindowRegistry) (owner : WindowOwner) (correlation : CorrelationId)
    (width height : ℕ) (x y : Option ℤ) :
    WindowRegistry × Except WindowError CreateOutcome :=
  match r.requireReady with
  | .error err => (r, .error err)
  | .ok () =>
    match r.entries.find? (adoptableBy owner) with
    | some (k, e) => (r.setEntry k { e with adoptable := false }, .ok (.adopted e.window))
    | none =>
      -- both counters are validated before either is committed
      match checkedSucc32 r.lastId with
      | none => (r, .error (.exhausted .id))
      | some id =>
        match checkedSucc64 r.lastIncarnation with
        | none => (r, .error (.exhausted .incarnation))
        | some incarnation =>
          if proposedMaxCumulativeWindowIds ≤ r.entries.length then
            (r, .error .sessionWindowCapacity)
          else
            let window : WindowRef := ⟨id, incarnation⟩
            ({ r with
                lastId := id
                lastIncarnation := incarnation
                entries := r.entries.insert id (openingEntry window owner correlation) },
              .ok (.build incarnation window width height x y))

/-- Whether an entry carries the build token `build`. -/
def hasBuild (build : ℕ) (e : Entry) : Bool := e.window.incarnation == build

def nativeBuilt (r : WindowRegistry) (build : ℕ) (view : WebviewId) (state : WindowState) :
    WindowRegistry × BuildOutcome :=
  match r.entries.find? (hasBuild build) with
  | none => (r, .ignored)
  | some (k, e) =>
    match e.phase with
    | .opening call =>
      ({ r.setEntry k { e with phase := .opened ⟨view, state⟩, created := true } with
          deferredLastWindow := false },
        .created ⟨call.owner, .created e.window state none⟩
          ⟨call.owner, call.correlation, .created e.window⟩)
    | .closing none =>
      (r.setEntry k { e with phase := .closing (some ⟨view, state⟩) },
        .cleanup ⟨e.window, view⟩)
    | .opened _ | .closePending _ _ | .closing (some _) | .destroyed _ => (r, .ignored)

def hasLiveWindows (r : WindowRegistry) : Bool :=
  r.entries.values.any (fun e => !e.phase.isDestroyed)

def onlyOpeningWindows (r : WindowRegistry) : Bool :=
  r.entries.values.any (fun e => e.phase.isOpening) &&
    r.entries.values.all (fun e => e.phase.isOpening || e.phase.isDestroyed)

/-- The tail of `native_failed`, once the entry at `k` is known to hold a build in
flight: `call` is its admitted `Create`, absent when a role loss or a session end
came first. -/
def buildFailed (r : WindowRegistry) (k : ℕ) (e : Entry) (call : Option PendingWindowCall) :
    WindowRegistry × BuildFailureOutcome :=
  let r' := r.setEntry k { e with phase := .destroyed none }
  let liveCall := call.filter (fun _ => e.ownerLive && !r'.ending)
  if r'.deferredLastWindow && liveCall.isSome && !r'.hasLiveWindows then
    ({ r' with deferredLastWindow := false }, ⟨liveCall, liveCall.map (·.owner), false⟩)
  else (r', ⟨liveCall, none, false⟩)

def nativeFailed (r : WindowRegistry) (build : ℕ) : WindowRegistry × BuildFailureOutcome :=
  match r.entries.find? (hasBuild build) with
  | none => (r, ⟨none, none, true⟩)
  | some (k, e) =>
    match e.phase with
    | .opening call => r.buildFailed k e (some call)
    | .closing none => r.buildFailed k e none
    | .opened _ | .closePending _ _ | .closing (some _) | .destroyed _ =>
      (r, ⟨none, none, true⟩)

def hasPendingCall (r : WindowRegistry) (owner : WindowOwner) (correlation : CorrelationId) :
    Bool :=
  r.entries.values.any fun e =>
    (match e.phase with
      | .opening call => call.owner == owner && call.correlation == correlation
      | _ => false) ||
    e.destroyCalls.any (fun call => call.owner == owner && call.correlation == correlation)

/-- Admission of a window-addressed call.  An admitted call claims the window: its
adoption mark is cleared here, before the caller looks at the phase. -/
def admittedEntry (r : WindowRegistry) (owner : WindowOwner) (window : WindowRef) :
    Except WindowError (WindowRegistry × Entry) :=
  match r.requireReady with
  | .error err => .error err
  | .ok () =>
    match (r.entries.get? window.id).filter
        (fun e => e.window == window && !e.phase.isDestroyed) with
    | none => .error .staleWindow
    | some e =>
      if !e.ownerLive || e.owner != owner then .error .wrongOwner
      else
        let e' := { e with adoptable := false }
        .ok (r.setEntry window.id e', e')

def admittedView (r : WindowRegistry) (owner : WindowOwner) (window : WindowRef) :
    WindowRegistry × Except WindowError WebviewId :=
  match r.admittedEntry owner window with
  | .error err => (r, .error err)
  | .ok (r', e) =>
    match e.phase with
    | .opened native | .closePending native _ => (r', .ok native.view)
    | _ => (r', .error .staleWindow)

def setMaximized (r : WindowRegistry) (owner : WindowOwner) (window : WindowRef)
    (maximized : Bool) : WindowRegistry × Except WindowError NativeSetter :=
  let (r', view) := r.admittedView owner window
  (r', view.map (fun view => .maximized view maximized))

def setFullScreen (r : WindowRegistry) (owner : WindowOwner) (window : WindowRef)
    (fullScreen : Bool) : WindowRegistry × Except WindowError NativeSetter :=
  let (r', view) := r.admittedView owner window
  (r', view.map (fun view => .fullScreen view fullScreen))

/-- Whether an entry is mapped to the native view `view`, tombstones included. -/
def hasView (view : WebviewId) (e : Entry) : Bool := e.view == some view

/-- What becomes of a changed (or unchanged) state fact of an on-screen window. -/
def deliver (e : Entry) : Option WindowEvent → FactOutcome
  | some event => if e.ownerLive then .event ⟨e.owner, event⟩ else .suppressed
  | none => .coalesced

def nativeFact (r : WindowRegistry) (view : WebviewId)
    (update : WindowRef → WindowState → WindowState × Option WindowEvent) :
    WindowRegistry × FactOutcome :=
  match r.entries.find? (hasView view) with
  | none => (r, .unmapped)
  | some (k, e) =>
    match e.phase with
    | .opened native =>
      let (state, event) := update e.window native.state
      (r.setEntry k { e with phase := .opened { native with state } }, deliver e event)
    | .closePending native seq =>
      let (state, event) := update e.window native.state
      (r.setEntry k { e with phase := .closePending { native with state } seq },
        deliver e event)
    | .closing _ =>
      (r.setEntry k { e with dropped := saturatingSucc64 e.dropped }, .dropped)
    | .destroyed _ =>
      ({ r with destroyedFactDrops := saturatingSucc64 r.destroyedFactDrops }, .dropped)
    | .opening _ => (r, .unmapped)

/-- The closure of `native_bounds`. -/
def updateBounds (bounds : Rect) (window : WindowRef) (state : WindowState) :
    WindowState × Option WindowEvent :=
  if state.bounds = bounds then (state, none)
  else ({ state with bounds }, some (.bounds window bounds))

/-- The closure of `native_focus`. -/
def updateFocus (focused : Bool) (window : WindowRef) (state : WindowState) :
    WindowState × Option WindowEvent :=
  if state.focused = focused then (state, none)
  else ({ state with focused }, some (.focus window focused))

/-- The closure of `native_maximized`. -/
def updateMaximized (maximized : Bool) (window : WindowRef) (state : WindowState) :
    WindowState × Option WindowEvent :=
  if state.maximized = maximized then (state, none)
  else ({ state with maximized }, some (.maximized window maximized))

/-- The closure of `native_full_screen`. -/
def updateFullScreen (fullScreen : Bool) (window : WindowRef) (state : WindowState) :
    WindowState × Option WindowEvent :=
  if state.fullScreen = fullScreen then (state, none)
  else ({ state with fullScreen }, some (.fullScreen window fullScreen))

def nativeBounds (r : WindowRegistry) (view : WebviewId) (bounds : Rect) :
    WindowRegistry × FactOutcome :=
  r.nativeFact view (updateBounds bounds)

def nativeFocus (r : WindowRegistry) (view : WebviewId) (focused : Bool) :
    WindowRegistry × FactOutcome :=
  r.nativeFact view (updateFocus focused)

def nativeMaximized (r : WindowRegistry) (view : WebviewId) (maximized : Bool) :
    WindowRegistry × FactOutcome :=
  r.nativeFact view (updateMaximized maximized)

def nativeFullScreen (r : WindowRegistry) (view : WebviewId) (fullScreen : Bool) :
    WindowRegistry × FactOutcome :=
  r.nativeFact view (updateFullScreen fullScreen)

def beginClose (e : Entry) : Entry × CloseOutcome :=
  match e.phase with
  | .opened native =>
    match checkedSucc64 e.lastCloseSeq with
    | none => (e, .exhausted)
    | some seq =>
      ({ e with lastCloseSeq := seq, phase := .closePending native seq },
        .requested seq
          (if e.ownerLive then some ⟨e.owner, .closeRequested e.window seq⟩ else none))
  | .closePending _ seq => (e, .merged seq)
  | .closing _ | .destroyed _ => (e, .alreadyClosing)
  | .opening _ => (e, .unmapped)

def nativeClose (r : WindowRegistry) (view : WebviewId) : WindowRegistry × CloseOutcome :=
  match r.entries.find? (hasView view) with
  | none => (r, .unmapped)
  | some (k, e) =>
    let (e', outcome) := beginClose e
    (r.setEntry k e', outcome)

def requestClose (r : WindowRegistry) (owner : WindowOwner) (window : WindowRef) :
    WindowRegistry × Except WindowError CloseOutcome :=
  match r.admittedEntry owner window with
  | .error err => (r, .error err)
  | .ok (r', e) =>
    if e.phase.isOpening then (r', .error .staleWindow)
    else
      let (e', outcome) := beginClose e
      (r'.setEntry window.id e',
        match outcome with
        | .exhausted => .error (.exhausted .closeSequence)
        | outcome => .ok outcome)

def closeReply (r : WindowRegistry) (owner : WindowOwner) (window : WindowRef)
    (closeSeq : ℕ) (verdict : CloseVerdict) :
    WindowRegistry × Except WindowError CloseOutcome :=
  match r.admittedEntry owner window with
  | .error err => (r, .error err)
  | .ok (r', e) =>
    match e.phase with
    | .closePending native pending =>
      if closeSeq ≠ pending then (r', .ok .stale)
      else
        match verdict with
        | .veto => (r'.setEntry window.id { e with phase := .opened native }, .ok .vetoed)
        | .allow =>
          (r'.setEntry window.id { e with phase := .closing (some native) },
            .ok (.teardown ⟨window, native.view⟩))
    | _ => (r', .ok .stale)

/-- The outcome, and the closes reported through the `abandoned` callback. -/
def destroy (r : WindowRegistry) (owner : WindowOwner) (window : WindowRef)
    (correlation : CorrelationId) :
    WindowRegistry × Except WindowError CloseOutcome × List AbandonedClose :=
  match r.admittedEntry owner window with
  | .error err => (r, .error err, [])
  | .ok (r', e) =>
    -- capacity is refused before a close is abandoned or a correlation is queued
    if maxPendingDestroysPerWindow ≤ e.destroyCalls.length then
      (r', .error .pendingDestroyCapacity, [])
    else
      let calls := e.destroyCalls ++ [⟨owner, correlation⟩]
      match e.phase with
      | .opened native =>
        (r'.setEntry window.id
            { e with destroyCalls := calls, phase := .closing (some native) },
          .ok (.teardown ⟨window, native.view⟩), [])
      | .closePending native seq =>
        (r'.setEntry window.id
            { e with destroyCalls := calls, phase := .closing (some native) },
          .ok (.teardown ⟨window, native.view⟩), [⟨window, seq⟩])
      | .closing _ =>
        (r'.setEntry window.id { e with destroyCalls := calls }, .ok .alreadyClosing, [])
      | .opening _ | .destroyed _ => (r', .error .staleWindow, [])

/-- What an unexpected native release answers. -/
def unexpectedRelease : ReleaseOutcome := ⟨none, none, 0, true, []⟩

def nativeReleased (r : WindowRegistry) (view : WebviewId) : WindowRegistry × ReleaseOutcome :=
  match r.entries.find? (hasView view) with
  | none => (r, unexpectedRelease)
  | some (k, e) =>
    match e.phase with
    | .closing (some _) =>
      let r' := r.setEntry k
        { e with phase := .destroyed (some view), adoptable := false, dropped := 0,
                 destroyCalls := [] }
      let fact : Option OwnedWindowEvent :=
        if e.created && e.ownerLive then some ⟨e.owner, .destroyed e.window⟩ else none
      let released (lastWindow : Option WindowOwner) : ReleaseOutcome :=
        ⟨fact, lastWindow, e.dropped, false, e.destroyCalls⟩
      match (fact.map (·.owner)).filter (fun _ => !r'.ending) with
      | some owner =>
        if r'.hasLiveWindows then
          if r'.onlyOpeningWindows then ({ r' with deferredLastWindow := true }, released none)
          else (r', released none)
        else ({ r' with deferredLastWindow := false }, released (some owner))
      | none => (r', released none)
    | _ => (r, unexpectedRelease)

/-- What `role_lost` does to one entry of the lost owner. -/
def loseRole (e : Entry) : Entry :=
  { e with
      ownerLive := false
      adoptable := false
      destroyCalls := []
      phase :=
        match e.phase with
        | .opening _ => .closing none
        | .closePending native _ => .opened native
        | phase => phase }

/-- Whether `role_lost owner` reaches an entry. -/
def losesRole (owner : WindowOwner) (e : Entry) : Bool := e.owner == owner && e.ownerLive

/-- The close of an entry that a role loss or a session end abandons. -/
def abandonedClose (e : Entry) : Option AbandonedClose :=
  e.phase.pendingClose.map (fun seq => ⟨e.window, seq⟩)

def roleLost (r : WindowRegistry) (owner : WindowOwner) :
    WindowRegistry × List AbandonedClose :=
  ({ r with
      entries := r.entries.map (fun e => if losesRole owner e then loseRole e else e)
      deferredLastWindow :=
        if r.entries.values.any (losesRole owner) then false else r.deferredLastWindow },
    (r.entries.values.filter (losesRole owner)).filterMap abandonedClose)

/-- Survivors of a lost role, which the next subscriber takes over. -/
def survives (e : Entry) : Bool := !e.ownerLive && e.phase.isLive

/-- The mark goes to `Open` survivors only: a gap close is transferred without it. -/
def takeOver (owner : WindowOwner) (e : Entry) : Entry :=
  { e with
      owner
      ownerLive := true
      adoptable :=
        match e.phase with
        | .opened _ => true
        | _ => false }

def subscribeSuccessor (r : WindowRegistry) (owner : WindowOwner) : WindowRegistry :=
  { r with entries := r.entries.map (fun e => if survives e then takeOver owner e else e) }

/-- The `Created` fact that replays an on-screen window to its live owner. -/
def replayEvent (owner : WindowOwner) (e : Entry) : Option WindowEvent :=
  match e.phase with
  | .opened native | .closePending native _ =>
    if e.ownerLive && e.owner == owner then
      some (.created e.window native.state e.phase.pendingClose)
    else none
  | _ => none

def replay (r : WindowRegistry) (owner : WindowOwner) : List WindowEvent :=
  r.entries.values.filterMap (replayEvent owner)

def takeDestroyedFactDrops (r : WindowRegistry) : WindowRegistry × ℕ :=
  ({ r with destroyedFactDrops := 0 }, r.destroyedFactDrops)

/-- What `session_end` does to one entry. -/
def endEntry (e : Entry) : Entry :=
  { e with
      adoptable := false
      phase :=
        match e.phase with
        | .opening _ => .closing none
        | .opened native | .closePending native _ => .closing (some native)
        | phase => phase }

/-- What `session_end` emits for one entry. -/
def endEffects (e : Entry) : List SessionEffect :=
  match e.phase with
  | .opening call => [.createInterrupted call]
  | .opened native => [.teardown ⟨e.window, native.view⟩]
  | .closePending native seq =>
    [.closeAbandoned ⟨e.window, seq⟩, .teardown ⟨e.window, native.view⟩]
  | .closing _ | .destroyed _ => []

def sessionEnd (r : WindowRegistry) : WindowRegistry × List SessionEffect :=
  ({ r with
      ending := true
      ready := false
      deferredLastWindow := false
      entries := r.entries.map endEntry },
    r.entries.values.flatMap endEffects)

end WindowRegistry

/-! ## The registry as a machine -/

/-- The four state facts of the UI thread. -/
inductive NativeFact where
  | bounds (bounds : Rect)
  | focus (focused : Bool)
  | maximized (maximized : Bool)
  | fullScreen (fullScreen : Bool)
deriving DecidableEq, Repr

/-- One call of a public operation. -/
inductive WindowOp where
  | markReady
  | create (owner : WindowOwner) (correlation : CorrelationId) (width height : ℕ)
      (x y : Option ℤ)
  | setMaximized (owner : WindowOwner) (window : WindowRef) (maximized : Bool)
  | setFullScreen (owner : WindowOwner) (window : WindowRef) (fullScreen : Bool)
  | requestClose (owner : WindowOwner) (window : WindowRef)
  | closeReply (owner : WindowOwner) (window : WindowRef) (closeSeq : ℕ)
      (verdict : CloseVerdict)
  | destroy (owner : WindowOwner) (window : WindowRef) (correlation : CorrelationId)
  | nativeBuilt (build : ℕ) (view : WebviewId) (state : WindowState)
  | nativeFailed (build : ℕ)
  | nativeFact (view : WebviewId) (fact : NativeFact)
  | nativeClose (view : WebviewId)
  | nativeReleased (view : WebviewId)
  | roleLost (owner : WindowOwner)
  | subscribeSuccessor (owner : WindowOwner)
  | replay (owner : WindowOwner)
  | takeDestroyedFactDrops
  | sessionEnd
deriving DecidableEq, Repr

/-- What one call returns, callbacks included. -/
inductive WindowOutcome where
  | ready (accepted : Bool)
  | create (result : Except WindowError CreateOutcome)
  | setter (result : Except WindowError NativeSetter)
  | closeCall (result : Except WindowError CloseOutcome) (abandoned : List AbandonedClose)
  | built (outcome : BuildOutcome)
  | failed (outcome : BuildFailureOutcome)
  | fact (outcome : FactOutcome)
  | close (outcome : CloseOutcome)
  | released (outcome : ReleaseOutcome)
  | roleLost (abandoned : List AbandonedClose)
  | subscribed
  | replayed (facts : List WindowEvent)
  | drops (count : ℕ)
  | ended (effects : List SessionEffect)
deriving DecidableEq

namespace WindowRegistry

def nativeState (r : WindowRegistry) (view : WebviewId) :
    NativeFact → WindowRegistry × FactOutcome
  | .bounds bounds => r.nativeBounds view bounds
  | .focus focused => r.nativeFocus view focused
  | .maximized maximized => r.nativeMaximized view maximized
  | .fullScreen fullScreen => r.nativeFullScreen view fullScreen

def step (r : WindowRegistry) : WindowOp → WindowRegistry × WindowOutcome
  | .markReady => r.markReady.map id .ready
  | .create owner corr width height x y =>
    (r.create owner corr width height x y).map id .create
  | .setMaximized owner window maximized =>
    (r.setMaximized owner window maximized).map id .setter
  | .setFullScreen owner window fullScreen =>
    (r.setFullScreen owner window fullScreen).map id .setter
  | .requestClose owner window => (r.requestClose owner window).map id (.closeCall · [])
  | .closeReply owner window closeSeq verdict =>
    (r.closeReply owner window closeSeq verdict).map id (.closeCall · [])
  | .destroy owner window corr =>
    (r.destroy owner window corr).map id (fun out => .closeCall out.1 out.2)
  | .nativeBuilt build view state => (r.nativeBuilt build view state).map id .built
  | .nativeFailed build => (r.nativeFailed build).map id .failed
  | .nativeFact view fact => (r.nativeState view fact).map id .fact
  | .nativeClose view => (r.nativeClose view).map id .close
  | .nativeReleased view => (r.nativeReleased view).map id .released
  | .roleLost owner => (r.roleLost owner).map id .roleLost
  | .subscribeSuccessor owner => (r.subscribeSuccessor owner, .subscribed)
  | .replay owner => (r, .replayed (r.replay owner))
  | .takeDestroyedFactDrops => r.takeDestroyedFactDrops.map id .drops
  | .sessionEnd => r.sessionEnd.map id .ended

end WindowRegistry

/-- The window registry, from `WindowRegistry::new()`. -/
def machine : Machine WindowRegistry WindowOp WindowOutcome where
  init := WindowRegistry.new
  step := WindowRegistry.step

end Keld.Window
