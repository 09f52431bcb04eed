/-
# `Keld.Kipc.WindowCodec` — the application side's window codecs

The payload types of the API, an encoder and a decoder for each, written out by
hand.  An encoder joins the encodings of its fields; a decoder at an offset
returns the value and the offset after it, and the next field is read there.
`exact` turns a decoder at an offset into one of a whole payload.

The types are the declared ones: a `number` is a `JsValue`, since not every
number is an integer of the right size, a `bigint` is an integer, and a field
that may be `null` is an option.  The tests of `typeof` for an object, a flag
or a bigint, and the default case of a `switch` over the variants, have nothing
to refuse at these types.
-/
import Keld.Kipc.Varint

namespace Keld.Kipc

/-! ## Payload types -/

structure WindowRef where
  id : JsValue
  incarnation : ℤ
deriving DecidableEq, Repr

structure Rect where
  x : JsValue
  y : JsValue
  width : JsValue
  height : JsValue
deriving DecidableEq, Repr

structure WindowState where
  bounds : Rect
  focused : Bool
  maximized : Bool
  fullScreen : Bool
deriving DecidableEq, Repr

inductive CloseVerdict where
  | allow
  | veto
deriving DecidableEq, Repr

inductive WindowEvent where
  | created (window : WindowRef) (state : WindowState) (pendingClose : Option ℤ)
  | bounds (window : WindowRef) (bounds : Rect)
  | focus (window : WindowRef) (focused : Bool)
  | maximized (window : WindowRef) (maximized : Bool)
  | fullScreen (window : WindowRef) (fullScreen : Bool)
  | closeRequested (window : WindowRef) (closeSeq : ℤ)
  | destroyed (window : WindowRef)
deriving DecidableEq, Repr

inductive WindowRequest where
  | create (width height : JsValue) (x y : Option JsValue)
  | setMaximized (window : WindowRef) (maximized : Bool)
  | setFullScreen (window : WindowRef) (fullScreen : Bool)
  | requestClose (window : WindowRef)
  | closeReply (window : WindowRef) (closeSeq : ℤ) (verdict : CloseVerdict)
  | destroy (window : WindowRef)
deriving DecidableEq, Repr

inductive WindowResponse where
  | created (window : WindowRef)
  | accepted
  | closeRequested (closeSeq : ℤ)
  | merged (closeSeq : ℤ)
  | alreadyClosing
  | replyApplied
  | replyStale
  | destroyed
  | adopted (window : WindowRef)
deriving DecidableEq, Repr

/-! ## Helpers -/

def invalid (detail : String) : KipcError := ⟨"KELD-IPC-003", detail⟩

def join (parts : List (List Byte)) : List Byte := parts.flatten

def exact {T : Type} (payload : List Byte) (decode : Decoder T) : Except KipcError T := do
  let (value, fin) ← decode payload 0
  if fin ≠ payload.length then .error (invalid "trailing bytes after window payload")
  else .ok value

def encodeI32 (value : JsValue) : Except KipcError (List Byte) :=
  let refused := invalid "window coordinate must be a signed 32-bit integer"
  match value with
  | .other _ => .error refused
  | .integer value =>
    if value < -0x80000000 ∨ 0x7fffffff < value then .error refused
    else
      encodeVarint (.integer
        (if value < 0 then Ieee.int (Ieee.int (-value * 2) - 1) else Ieee.int (value * 2)))

def decodeI32 : Decoder JsValue := fun bytes offset => do
  let (value, fin) ← decodeVarint bytes offset
  return (.integer (if value % 2 = 0 then Ieee.floorDiv value 2
    else Ieee.floorDiv (-Ieee.int (value + 1)) 2), fin)

def encodeBool (value : Bool) : List Byte := [if value then 1 else 0]

def decodeBool : Decoder Bool := fun bytes offset =>
  let value := bytes[offset]?
  if value ≠ some 0 ∧ value ≠ some 1 then .error (invalid "invalid or truncated window boolean")
  else .ok (decide (value = some 1), offset + 1)

def encodeOption {T : Type} (value : Option T) (encode : T → Except KipcError (List Byte)) :
    Except KipcError (List Byte) :=
  match value with
  | none => .ok [0]
  | some value => do return join [[1], ← encode value]

def decodeOption {T : Type} (decode : Decoder T) : Decoder (Option T) := fun bytes offset =>
  let tag := bytes[offset]?
  if tag = some 0 then .ok (none, offset + 1)
  else if tag ≠ some 1 then .error (invalid "invalid or truncated window option")
  else do
    let (value, fin) ← decode bytes (offset + 1)
    return (some value, fin)

/-! ## References, bounds, states and verdicts -/

def encodeWindowRef (value : WindowRef) : Except KipcError (List Byte) := do
  return join [← encodeVarint value.id, ← encodeU64Varint value.incarnation]

def windowRefAt : Decoder WindowRef := fun bytes offset => do
  let (id, afterId) ← decodeVarint bytes offset
  let (incarnation, fin) ← decodeU64Varint bytes afterId
  return (⟨.integer id, incarnation⟩, fin)

def decodeWindowRef (payload : List Byte) : Except KipcError WindowRef := exact payload windowRefAt

def encodeRect (value : Rect) : Except KipcError (List Byte) := do
  return join [← encodeI32 value.x, ← encodeI32 value.y, ← encodeVarint value.width,
    ← encodeVarint value.height]

def rectAt : Decoder Rect := fun bytes offset => do
  let (x, afterX) ← decodeI32 bytes offset
  let (y, afterY) ← decodeI32 bytes afterX
  let (width, afterWidth) ← decodeVarint bytes afterY
  let (height, fin) ← decodeVarint bytes afterWidth
  return (⟨x, y, .integer width, .integer height⟩, fin)

def decodeRect (payload : List Byte) : Except KipcError Rect := exact payload rectAt

def encodeWindowState (value : WindowState) : Except KipcError (List Byte) := do
  return join [← encodeRect value.bounds, encodeBool value.focused, encodeBool value.maximized,
    encodeBool value.fullScreen]

def stateAt : Decoder WindowState := fun bytes offset => do
  let (bounds, afterBounds) ← rectAt bytes offset
  let (focused, afterFocus) ← decodeBool bytes afterBounds
  let (maximized, afterMaximized) ← decodeBool bytes afterFocus
  let (fullScreen, fin) ← decodeBool bytes afterMaximized
  return (⟨bounds, focused, maximized, fullScreen⟩, fin)

def decodeWindowState (payload : List Byte) : Except KipcError WindowState := exact payload stateAt

def encodeCloseVerdict : CloseVerdict → Except KipcError (List Byte)
  | .allow => encodeVarint (.integer 0)
  | .veto => encodeVarint (.integer 1)

def verdictAt : Decoder CloseVerdict := fun bytes offset => do
  let (variant, fin) ← decodeVarint bytes offset
  match variant with
  | 0 => return (.allow, fin)
  | 1 => return (.veto, fin)
  | _ => .error (invalid "unknown CloseVerdict discriminant")

def decodeCloseVerdict (payload : List Byte) : Except KipcError CloseVerdict :=
  exact payload verdictAt

/-! ## Events -/

def encodeWindowEvent : WindowEvent → Except KipcError (List Byte)
  | .created window state pendingClose => do
    return join [← encodeVarint (.integer 0), ← encodeWindowRef window,
      ← encodeWindowState state, ← encodeOption pendingClose encodeU64Varint]
  | .bounds window rect => do
    return join [← encodeVarint (.integer 1), ← encodeWindowRef window, ← encodeRect rect]
  | .focus window focused => do
    return join [← encodeVarint (.integer 2), ← encodeWindowRef window, encodeBool focused]
  | .maximized window on => do
    return join [← encodeVarint (.integer 3), ← encodeWindowRef window, encodeBool on]
  | .fullScreen window on => do
    return join [← encodeVarint (.integer 4), ← encodeWindowRef window, encodeBool on]
  | .closeRequested window closeSeq => do
    return join [← encodeVarint (.integer 5), ← encodeWindowRef window,
      ← encodeU64Varint closeSeq]
  | .destroyed window => do
    return join [← encodeVarint (.integer 6), ← encodeWindowRef window]

def eventAt : Decoder WindowEvent := fun bytes offset => do
  let (variant, afterVariant) ← decodeVarint bytes offset
  if 6 < variant then .error (invalid "unknown WindowEvent discriminant")
  else do
    let (window, afterWindow) ← windowRefAt bytes afterVariant
    match variant with
    | 0 => do
      let (state, afterState) ← stateAt bytes afterWindow
      let (pendingClose, fin) ← decodeOption decodeU64Varint bytes afterState
      return (.created window state (pendingClose.map Int.ofNat), fin)
    | 1 => do
      let (bounds, fin) ← rectAt bytes afterWindow
      return (.bounds window bounds, fin)
    | 2 => do
      let (focused, fin) ← decodeBool bytes afterWindow
      return (.focus window focused, fin)
    | 3 => do
      let (maximized, fin) ← decodeBool bytes afterWindow
      return (.maximized window maximized, fin)
    | 4 => do
      let (fullScreen, fin) ← decodeBool bytes afterWindow
      return (.fullScreen window fullScreen, fin)
    | 5 => do
      let (closeSeq, fin) ← decodeU64Varint bytes afterWindow
      return (.closeRequested window closeSeq, fin)
    | 6 => return (.destroyed window, afterWindow)
    | _ => .error (invalid "unknown WindowEvent discriminant")

def decodeWindowEvent (payload : List Byte) : Except KipcError WindowEvent := exact payload eventAt

/-! ## Requests -/

def encodeWindowRequest : WindowRequest → Except KipcError (List Byte)
  | .create width height x y => do
    return join [← encodeVarint (.integer 0), ← encodeVarint width, ← encodeVarint height,
      ← encodeOption x encodeI32, ← encodeOption y encodeI32]
  | .setMaximized window maximized => do
    return join [← encodeVarint (.integer 1), ← encodeWindowRef window, encodeBool maximized]
  | .setFullScreen window fullScreen => do
    return join [← encodeVarint (.integer 2), ← encodeWindowRef window, encodeBool fullScreen]
  | .requestClose window => do
    return join [← encodeVarint (.integer 3), ← encodeWindowRef window]
  | .closeReply window closeSeq verdict => do
    return join [← encodeVarint (.integer 4), ← encodeWindowRef window,
      ← encodeU64Varint closeSeq, ← encodeCloseVerdict verdict]
  | .destroy window => do
    return join [← encodeVarint (.integer 5), ← encodeWindowRef window]

def requestAt : Decoder WindowRequest := fun bytes offset => do
  let (variant, afterVariant) ← decodeVarint bytes offset
  if variant = 0 then do
    let (width, afterWidth) ← decodeVarint bytes afterVariant
    let (height, afterHeight) ← decodeVarint bytes afterWidth
    let (x, afterX) ← decodeOption decodeI32 bytes afterHeight
    let (y, fin) ← decodeOption decodeI32 bytes afterX
    return (.create (.integer width) (.integer height) x y, fin)
  else if 5 < variant then .error (invalid "unknown WindowRequest discriminant")
  else do
    let (window, afterWindow) ← windowRefAt bytes afterVariant
    match variant with
    | 1 => do
      let (maximized, fin) ← decodeBool bytes afterWindow
      return (.setMaximized window maximized, fin)
    | 2 => do
      let (fullScreen, fin) ← decodeBool bytes afterWindow
      return (.setFullScreen window fullScreen, fin)
    | 3 => return (.requestClose window, afterWindow)
    | 4 => do
      let (closeSeq, afterSequence) ← decodeU64Varint bytes afterWindow
      let (verdict, fin) ← verdictAt bytes afterSequence
      return (.closeReply window closeSeq verdict, fin)
    | 5 => return (.destroy window, afterWindow)
    | _ => .error (invalid "unknown WindowRequest discriminant")

def decodeWindowRequest (payload : List Byte) : Except KipcError WindowRequest :=
  exact payload requestAt

/-! ## Responses -/

def encodeWindowResponse : WindowResponse → Except KipcError (List Byte)
  | .created window => do
    return join [← encodeVarint (.integer 0), ← encodeWindowRef window]
  | .accepted => encodeVarint (.integer 1)
  | .closeRequested closeSeq => do
    return join [← encodeVarint (.integer 2), ← encodeU64Varint closeSeq]
  | .merged closeSeq => do
    return join [← encodeVarint (.integer 3), ← encodeU64Varint closeSeq]
  | .alreadyClosing => encodeVarint (.integer 4)
  | .replyApplied => encodeVarint (.integer 5)
  | .replyStale => encodeVarint (.integer 6)
  | .destroyed => encodeVarint (.integer 7)
  | .adopted window => do
    return join [← encodeVarint (.integer 8), ← encodeWindowRef window]

def responseAt : Decoder WindowResponse := fun bytes offset => do
  let (variant, afterVariant) ← decodeVarint bytes offset
  match variant with
  | 0 => do
    let (window, fin) ← windowRefAt bytes afterVariant
    return (.created window, fin)
  | 1 => return (.accepted, afterVariant)
  | 2 => do
    let (closeSeq, fin) ← decodeU64Varint bytes afterVariant
    return (.closeRequested closeSeq, fin)
  | 3 => do
    let (closeSeq, fin) ← decodeU64Varint bytes afterVariant
    return (.merged closeSeq, fin)
  | 4 => return (.alreadyClosing, afterVariant)
  | 5 => return (.replyApplied, afterVariant)
  | 6 => return (.replyStale, afterVariant)
  | 7 => return (.destroyed, afterVariant)
  | 8 => do
    let (window, fin) ← windowRefAt bytes afterVariant
    return (.adopted window, fin)
  | _ => .error (invalid "unknown WindowResponse discriminant")

def decodeWindowResponse (payload : List Byte) : Except KipcError WindowResponse :=
  exact payload responseAt

end Keld.Kipc
