/-
# `Keld.Kipc.WindowWire` — the window payloads and their layout

The host's payload types with the widths that they have there, and for each the
primitives that its derived serializer visits: a struct's fields in order, an
enum's discriminant and then the fields of its variant, an option's tag and
then its value.  A newtype is visited as what it wraps.
-/
import Keld.Lib.Postcard

namespace Keld.Wire

open List

/-- The tag of an option, then its value. -/
def optionAtoms {α : Type} (atoms : α → List Atom) : Option α → List Atom
  | none => [.flag false]
  | some a => .flag true :: atoms a

def u32Atoms (n : UInt32) : List Atom := [.u32 n.toNat]

def u64Atoms (n : UInt64) : List Atom := [.u64 n.toNat]

def i32Atoms (n : Int32) : List Atom := [.u32 (zigzag n.toInt)]

def boolAtoms (b : Bool) : List Atom := [.flag b]

/-- `WindowId` and `WindowGeneration` are newtypes. -/
structure WindowRef where
  id : UInt32
  incarnation : UInt64
deriving DecidableEq

structure Rect where
  x : Int32
  y : Int32
  width : UInt32
  height : UInt32
deriving DecidableEq

structure WindowState where
  bounds : Rect
  focused : Bool
  maximized : Bool
  fullScreen : Bool
deriving DecidableEq

inductive WindowEvent where
  | created (window : WindowRef) (state : WindowState) (pendingClose : Option UInt64)
  | bounds (window : WindowRef) (bounds : Rect)
  | focus (window : WindowRef) (focused : Bool)
  | maximized (window : WindowRef) (maximized : Bool)
  | fullScreen (window : WindowRef) (fullScreen : Bool)
  | closeRequested (window : WindowRef) (closeSeq : UInt64)
  | destroyed (window : WindowRef)
deriving DecidableEq

inductive CloseVerdict where
  | allow
  | veto
deriving DecidableEq

inductive WindowRequest where
  | create (width height : UInt32) (x y : Option Int32)
  | setMaximized (window : WindowRef) (maximized : Bool)
  | setFullScreen (window : WindowRef) (fullScreen : Bool)
  | requestClose (window : WindowRef)
  | closeReply (window : WindowRef) (closeSeq : UInt64) (verdict : CloseVerdict)
  | destroy (window : WindowRef)
deriving DecidableEq

inductive WindowResponse where
  | created (window : WindowRef)
  | accepted
  | closeRequested (closeSeq : UInt64)
  | merged (closeSeq : UInt64)
  | alreadyClosing
  | replyApplied
  | replyStale
  | destroyed
  | adopted (window : WindowRef)
deriving DecidableEq

def WindowRef.atoms (r : WindowRef) : List Atom := u32Atoms r.id ++ u64Atoms r.incarnation

def Rect.atoms (r : Rect) : List Atom :=
  i32Atoms r.x ++ (i32Atoms r.y ++ (u32Atoms r.width ++ u32Atoms r.height))

def WindowState.atoms (s : WindowState) : List Atom :=
  s.bounds.atoms ++ (boolAtoms s.focused ++ (boolAtoms s.maximized ++ boolAtoms s.fullScreen))

def WindowEvent.atoms : WindowEvent → List Atom
  | .created window state pendingClose =>
    u32Atoms 0 ++ (window.atoms ++ (state.atoms ++ optionAtoms u64Atoms pendingClose))
  | .bounds window rect => u32Atoms 1 ++ (window.atoms ++ rect.atoms)
  | .focus window focused => u32Atoms 2 ++ (window.atoms ++ boolAtoms focused)
  | .maximized window on => u32Atoms 3 ++ (window.atoms ++ boolAtoms on)
  | .fullScreen window on => u32Atoms 4 ++ (window.atoms ++ boolAtoms on)
  | .closeRequested window closeSeq => u32Atoms 5 ++ (window.atoms ++ u64Atoms closeSeq)
  | .destroyed window => u32Atoms 6 ++ window.atoms

def CloseVerdict.atoms : CloseVerdict → List Atom
  | .allow => u32Atoms 0
  | .veto => u32Atoms 1

def WindowRequest.atoms : WindowRequest → List Atom
  | .create width height x y =>
    u32Atoms 0 ++ (u32Atoms width ++ (u32Atoms height ++
      (optionAtoms i32Atoms x ++ optionAtoms i32Atoms y)))
  | .setMaximized window maximized => u32Atoms 1 ++ (window.atoms ++ boolAtoms maximized)
  | .setFullScreen window fullScreen => u32Atoms 2 ++ (window.atoms ++ boolAtoms fullScreen)
  | .requestClose window => u32Atoms 3 ++ window.atoms
  | .closeReply window closeSeq verdict =>
    u32Atoms 4 ++ (window.atoms ++ (u64Atoms closeSeq ++ verdict.atoms))
  | .destroy window => u32Atoms 5 ++ window.atoms

def WindowResponse.atoms : WindowResponse → List Atom
  | .created window => u32Atoms 0 ++ window.atoms
  | .accepted => u32Atoms 1
  | .closeRequested closeSeq => u32Atoms 2 ++ u64Atoms closeSeq
  | .merged closeSeq => u32Atoms 3 ++ u64Atoms closeSeq
  | .alreadyClosing => u32Atoms 4
  | .replyApplied => u32Atoms 5
  | .replyStale => u32Atoms 6
  | .destroyed => u32Atoms 7
  | .adopted window => u32Atoms 8 ++ window.atoms

/-! ## Every atom fits its width -/

/-- All atoms of a value fit. -/
def AllFit (as : List Atom) : Prop := ∀ a ∈ as, a.Fits

@[simp] theorem allFit_append {as as' : List Atom} : AllFit (as ++ as') ↔ AllFit as ∧ AllFit as' :=
  forall_mem_append

@[simp] theorem allFit_u32 (n : UInt32) : AllFit (u32Atoms n) := forall_mem_singleton.mpr n.toNat_lt

@[simp] theorem allFit_u64 (n : UInt64) : AllFit (u64Atoms n) := forall_mem_singleton.mpr n.toNat_lt

@[simp] theorem allFit_i32 (n : Int32) : AllFit (i32Atoms n) :=
  forall_mem_singleton.mpr (zigzag_lt n.le_toInt n.toInt_lt)

@[simp] theorem allFit_bool (b : Bool) : AllFit (boolAtoms b) := forall_mem_singleton.mpr trivial

@[simp] theorem allFit_option {α : Type} {atoms : α → List Atom} (h : ∀ a, AllFit (atoms a))
    (o : Option α) : AllFit (optionAtoms atoms o) := by
  cases o with
  | none => exact forall_mem_singleton.mpr trivial
  | some a => exact forall_mem_cons.mpr ⟨trivial, h a⟩

@[simp] theorem WindowRef.allFit (r : WindowRef) : AllFit r.atoms := by
  simp [WindowRef.atoms]

@[simp] theorem Rect.allFit (r : Rect) : AllFit r.atoms := by
  simp [Rect.atoms]

@[simp] theorem WindowState.allFit (s : WindowState) : AllFit s.atoms := by
  simp [WindowState.atoms]

theorem WindowEvent.allFit (e : WindowEvent) : AllFit e.atoms := by
  cases e <;> simp [WindowEvent.atoms]

@[simp] theorem CloseVerdict.allFit (v : CloseVerdict) : AllFit v.atoms := by
  cases v <;> simp [CloseVerdict.atoms]

theorem WindowRequest.allFit (r : WindowRequest) : AllFit r.atoms := by
  cases r <;> simp [WindowRequest.atoms]

theorem WindowResponse.allFit (r : WindowResponse) : AllFit r.atoms := by
  cases r <;> simp [WindowResponse.atoms]

/-! ## Discriminants -/

theorem WindowEvent.known (e : WindowEvent) :
    ∃ n tail, e.atoms = u32Atoms n ++ tail ∧ n.toNat < 7 := by
  cases e with
  | created w state pendingClose => exact ⟨0, _, rfl, by decide⟩
  | bounds w rect => exact ⟨1, _, rfl, by decide⟩
  | focus w focused => exact ⟨2, _, rfl, by decide⟩
  | maximized w on => exact ⟨3, _, rfl, by decide⟩
  | fullScreen w on => exact ⟨4, _, rfl, by decide⟩
  | closeRequested w closeSeq => exact ⟨5, _, rfl, by decide⟩
  | destroyed w => exact ⟨6, _, rfl, by decide⟩

theorem WindowRequest.known (r : WindowRequest) :
    ∃ n tail, r.atoms = u32Atoms n ++ tail ∧ n.toNat < 6 := by
  cases r with
  | create width height x y => exact ⟨0, _, rfl, by decide⟩
  | setMaximized w on => exact ⟨1, _, rfl, by decide⟩
  | setFullScreen w on => exact ⟨2, _, rfl, by decide⟩
  | requestClose w => exact ⟨3, _, rfl, by decide⟩
  | closeReply w closeSeq verdict => exact ⟨4, _, rfl, by decide⟩
  | destroy w => exact ⟨5, _, rfl, by decide⟩

theorem WindowResponse.known (r : WindowResponse) :
    ∃ n tail, r.atoms = u32Atoms n ++ tail ∧ n.toNat < 9 := by
  cases r with
  | created w => exact ⟨0, _, rfl, by decide⟩
  | accepted => exact ⟨1, _, (append_nil _).symm, by decide⟩
  | closeRequested closeSeq => exact ⟨2, _, rfl, by decide⟩
  | merged closeSeq => exact ⟨3, _, rfl, by decide⟩
  | alreadyClosing => exact ⟨4, _, (append_nil _).symm, by decide⟩
  | replyApplied => exact ⟨5, _, (append_nil _).symm, by decide⟩
  | replyStale => exact ⟨6, _, (append_nil _).symm, by decide⟩
  | destroyed => exact ⟨7, _, (append_nil _).symm, by decide⟩
  | adopted w => exact ⟨8, _, rfl, by decide⟩

end Keld.Wire
