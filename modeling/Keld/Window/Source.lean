/-
# `Keld.Window.Source` — the app's mirror of the host's windows, and its close receipts

The app keeps two views of the host's facts.  `WindowSource` is changed when a
fact is applied, in the link's state phase, and `WindowCloseReceipts` when it is
dispatched to the app's listeners, which may be much later.  An acknowledged
`CloseReply` goes to both: the receipts hear of it only if the source took it.

Identities and sequences are natural numbers, as the codec decodes them.  Where a
method throws, what it throws is returned beside the object as it is left.
-/
import Keld.Kipc.Receive
import Keld.Lib.InsertMap
import Keld.Window.Registry

namespace Keld.Window

open Kipc

/-! ## `WindowSource` -/

structure WindowSnapshot where
  window : WindowRef
  state : WindowState
  pendingClose : Option ℕ
  hostDestroyed : Bool
deriving DecidableEq, Repr

/-- What `#reject` saves the first time. -/
def hostFactRejected : KipcError where
  code := "KELD-IPC-005"
  detail := "window mirror rejected a host fact. Check the host window pair and codec before " ++
    "restarting the role."

structure WindowSource where
  /-- A retired window is `none`: its id stays known. -/
  windows : InsertMap ℕ (Option WindowSnapshot)
  failure : Option KipcError

namespace WindowSource

def new : WindowSource := { windows := .empty, failure := none }

/-- `#reject`, which its callers throw. -/
def reject (source : WindowSource) : Except KipcError Unit × WindowSource :=
  match source.failure with
  | some error => (.error error, source)
  | none => (.error hostFactRejected, { source with failure := some hostFactRejected })

/-- The `switch` over the facts of a window that is there. -/
def after (previous : WindowSnapshot) : WindowEvent → WindowSnapshot
  | .created .. => previous
  | .bounds _ bounds => { previous with state := { previous.state with bounds } }
  | .focus _ focused => { previous with state := { previous.state with focused } }
  | .maximized _ maximized => { previous with state := { previous.state with maximized } }
  | .fullScreen _ fullScreen => { previous with state := { previous.state with fullScreen } }
  | .closeRequested _ closeSeq => { previous with pendingClose := some closeSeq }
  | .destroyed _ => { previous with pendingClose := none, hostDestroyed := true }

def setWindow (source : WindowSource) (snapshot : WindowSnapshot) : WindowSource :=
  { source with windows := source.windows.set snapshot.window.id (some snapshot) }

def apply (source : WindowSource) (fact : WindowEvent) : Except KipcError Unit × WindowSource :=
  match source.failure with
  | some error => (.error error, source)
  | none =>
    if fact.window.id = 0 ∨ fact.window.incarnation = 0 then source.reject
    else
      match fact with
      | .created window state pendingClose =>
        if source.windows.has window.id ∨
            proposedMaxCumulativeWindowIds ≤ source.windows.size then source.reject
        else (.ok (), source.setWindow { window, state, pendingClose, hostDestroyed := false })
      | fact =>
        match (source.windows.get? fact.window.id).join with
        | none => source.reject
        | some previous =>
          if previous.window.incarnation ≠ fact.window.incarnation ∨ previous.hostDestroyed
          then source.reject
          else (.ok (), source.setWindow (after { previous with window := fact.window } fact))

/-- The end of `dispatch`, when the callback is over. -/
def retire (source : WindowSource) (fact : WindowEvent) : WindowSource :=
  match fact with
  | .destroyed window =>
    match (source.windows.get? window.id).join with
    | none => source
    | some current =>
      if current.hostDestroyed ∧ current.window.incarnation = window.incarnation then
        { source with windows := source.windows.set window.id none }
      else source
  | _ => source

/-- The snapshot that an acknowledgement is about, if the source takes it. -/
def target (source : WindowSource) (window : WindowRef) : Option WindowSnapshot :=
  if source.failure.isSome then none
  else
    (source.windows.get? window.id).join.filter fun previous =>
      previous.window.incarnation = window.incarnation && !previous.hostDestroyed

def acceptHostCloseReply (source : WindowSource) (window : WindowRef) (closeSeq : ℕ) :
    Bool × WindowSource :=
  match source.target window with
  | none => (false, source)
  | some previous =>
    (true,
      if previous.pendingClose = some closeSeq then
        source.setWindow
          { window, state := previous.state, pendingClose := none, hostDestroyed := false }
      else source)

/-- A local read; it throws what the source failed with. -/
def get (source : WindowSource) (window : WindowRef) : Except KipcError (Option WindowSnapshot) :=
  match source.failure with
  | some error => .error error
  | none =>
    .ok ((source.windows.get? window.id).join.filter fun value =>
      value.window.incarnation = window.incarnation)

end WindowSource

/-! ## `WindowCloseReceipts` -/

structure DeliveredWindowClose where
  window : WindowRef
  closeSeq : ℕ
deriving DecidableEq, Repr

structure CloseRecord where
  ref : WindowRef
  pending : Option ℕ
  /-- The highest settled close. -/
  ackedThrough : Option ℕ
deriving DecidableEq, Repr

/-- The watermark has reached the close. -/
def CloseRecord.covers (ackedThrough : Option ℕ) (closeSeq : ℕ) : Bool :=
  ackedThrough.any (closeSeq ≤ ·)

structure WindowCloseReceipts where
  records : InsertMap ℕ CloseRecord

namespace WindowCloseReceipts

def new : WindowCloseReceipts := ⟨.empty⟩

def observe (receipts : WindowCloseReceipts) (fact : WindowEvent) : WindowCloseReceipts :=
  match fact with
  | .created window _ pendingClose =>
    let ackedThrough :=
      ((receipts.records.get? window.id).filter fun previous =>
        previous.ref.incarnation = window.incarnation).bind CloseRecord.ackedThrough
    let pending := pendingClose.filter fun closeSeq => !CloseRecord.covers ackedThrough closeSeq
    ⟨receipts.records.set window.id { ref := window, pending, ackedThrough }⟩
  | fact =>
    match receipts.records.get? fact.window.id with
    | none => receipts
    | some earlier =>
      if earlier.ref.incarnation ≠ fact.window.incarnation then receipts
      else
        match fact with
        | .destroyed window => ⟨receipts.records.erase window.id⟩
        | .closeRequested window closeSeq =>
          if CloseRecord.covers earlier.ackedThrough closeSeq then receipts
          else ⟨receipts.records.set window.id { earlier with pending := some closeSeq }⟩
        | _ => receipts

def acceptHostCloseReply (receipts : WindowCloseReceipts) (window : WindowRef) (closeSeq : ℕ) :
    WindowCloseReceipts :=
  match receipts.records.get? window.id with
  | none =>
    ⟨receipts.records.set window.id
      { ref := window, pending := none, ackedThrough := some closeSeq }⟩
  | some previous =>
    if previous.ref.incarnation ≠ window.incarnation then receipts
    else
      let through := max closeSeq (previous.ackedThrough.getD closeSeq)
      ⟨receipts.records.set window.id { previous with
        ackedThrough := some through
        pending := previous.pending.filter (through < ·) }⟩

def pending (receipts : WindowCloseReceipts) : List DeliveredWindowClose :=
  receipts.records.values.filterMap fun record =>
    record.pending.map fun closeSeq => { window := record.ref, closeSeq }

end WindowCloseReceipts

end Keld.Window
