/-
# `Keld.Guard.Manifest` — the permissions manifest

The text of a manifest loses its comments, is read as JSON whose objects repeat
no key, and is kept as the object under `app`.  The JSON reader is outside the
repository: `Json` is what it hands to the visitor of this crate, with the
places where it gives up.
-/
import Keld.Lib.Except
import Keld.Lib.Text
import Mathlib.Data.List.Basic
import Mathlib.Tactic.Common

namespace Keld.Guard

abbrev Text := List Char

/-! ## Values -/

/-- `serde_json::Value`; of a number only its literal is kept. -/
inductive Value where
  | null
  | bool (value : Bool)
  | number (literal : Text)
  | string (text : Text)
  | array (items : List Value)
  | object (entries : List (Text × Value))

namespace Value

def asArray : Value → Option (List Value)
  | .array items => some items
  | _ => none

def asObject : Value → Option (List (Text × Value))
  | .object entries => some entries
  | _ => none

def asStr : Value → Option Text
  | .string text => some text
  | _ => none

def isString (value : Value) : Bool := value.asStr.isSome

end Value

def get (entries : List (Text × Value)) (key : Text) : Option Value := entries.lookup key

/-! ## Reading JSON -/

/-- What the JSON reader hands over; `fault` ends an array or an object that is cut short. -/
inductive Json where
  | invalid (fault : String)
  | null
  | bool (value : Bool)
  | number (literal : Text) (finite : Bool)
  | string (text : Text)
  | array (items : List Json) (fault : Option String)
  | object (entries : List (Text × Json)) (fault : Option String)

/-- A text read to its end; `trailing` is the fault of characters behind the value. -/
structure Document where
  value : Json
  trailing : Option String

def endsWith {α : Type} (fault : Option String) (value : α) : Except String α :=
  match fault with
  | none => .ok value
  | some detail => .error detail

mutual

/-- `UniqueValueVisitor`. -/
def uniqueValue : Json → Except String Value
  | .invalid fault => .error fault
  | .null => .ok .null
  | .bool value => .ok (.bool value)
  | .number literal finite =>
    if finite then .ok (.number literal) else .error "JSON number is not finite"
  | .string text => .ok (.string text)
  | .array items fault => do
    let values ← uniqueItems items
    endsWith fault (.array values)
  | .object entries fault => do
    let values ← uniqueEntries [] entries
    endsWith fault (.object values)

/-- `visit_seq`. -/
def uniqueItems : List Json → Except String (List Value)
  | [] => .ok []
  | item :: rest => do
    let value ← uniqueValue item
    let values ← uniqueItems rest
    return value :: values

/-- `visit_map`, behind the entries already read. -/
def uniqueEntries (values : List (Text × Value)) : List (Text × Json) →
    Except String (List (Text × Value))
  | [] => .ok values
  | (key, item) :: rest =>
    if (get values key).isSome then
      .error ("duplicate object key `" ++ String.ofList key ++ "` is ambiguous")
    else do
      let value ← uniqueValue item
      uniqueEntries (values ++ [(key, value)]) rest

end

/-- `unique_json::parse`. -/
def parseUnique (document : Document) : Except String Value := do
  let value ← uniqueValue document.value
  endsWith document.trailing value

/-! ## Comments -/

/-- Where the stripper stands; a block comment remembers where it opened. -/
inductive Place where
  | plain
  | string
  | escape
  | line
  | block (opening : ℕ)

def isNewline (byte : Byte) : Bool := byte = 0x0a || byte = 0x0d

def unterminated (opening : ℕ) : String :=
  if opening = 0 then "unterminated block comment at byte 0" else "unterminated block comment"

/-- The loop of `strip_jsonc_comments`, from byte `i` on. -/
def stripFrom : Place → ℕ → List Byte → Except String (List Byte)
  | .block opening, _, [] => .error (unterminated opening)
  | .block opening, _, [_] => .error (unterminated opening)
  | .block opening, i, byte :: next :: rest =>
    if byte = 0x2a ∧ next = 0x2f then do
      let out ← stripFrom .plain (i + 2) rest
      return 0x20 :: 0x20 :: out
    else do
      let out ← stripFrom (.block opening) (i + 1) (next :: rest)
      return (if isNewline byte then byte else 0x20) :: out
  | _, _, [] => .ok []
  | .string, i, byte :: rest => do
    let out ← stripFrom
      (if byte = 0x5c then .escape else if byte = 0x22 then .plain else .string) (i + 1) rest
    return byte :: out
  | .escape, i, byte :: rest => do
    let out ← stripFrom .string (i + 1) rest
    return byte :: out
  | .line, i, byte :: rest => do
    let out ← stripFrom (if isNewline byte then .plain else .line) (i + 1) rest
    return (if isNewline byte then byte else 0x20) :: out
  | .plain, _, [byte] => .ok [byte]
  | .plain, i, byte :: next :: rest =>
    if byte = 0x2f ∧ next = 0x2f then do
      let out ← stripFrom .line (i + 2) rest
      return 0x20 :: 0x20 :: out
    else if byte = 0x2f ∧ next = 0x2a then do
      let out ← stripFrom (.block i) (i + 2) rest
      return 0x20 :: 0x20 :: out
    else do
      let out ← stripFrom (if byte = 0x22 then .string else .plain) (i + 1) (next :: rest)
      return byte :: out

example : stripFrom .plain 0 [0x2f, 0x2f, 0x31] = .ok [0x20, 0x20, 0x20] := by
  rw [stripFrom, if_pos ⟨rfl, rfl⟩]
  rfl

def stripJsoncComments (input : String) : Except String String := do
  let out ← stripFrom .plain 0 (utf8 input)
  orElseError (fromUtf8 out) "JSONC comment stripping produced invalid UTF-8"

/-! ## The manifest -/

namespace Capability

def fsRead : Text := "fs.read".toList
def fsWrite : Text := "fs.write".toList
def authBegin : Text := "auth.begin".toList
def authToken : Text := "auth.token".toList

end Capability

structure PermissionsManifest where
  app : List (Text × Value) := []

def jsonPointerFor (capability : Text) : Text :=
  if capability = [] then "/app".toList
  else "/app".toList ++ (capability.splitOn '.').flatMap ('/' :: ·)

/-- One step of a path of keys. -/
def descend (node : Option Value) (segment : Text) : Option Value :=
  node.bind fun value => value.asObject.bind (get · segment)

def grantNode (manifest : PermissionsManifest) (capability : Text) : Option Value :=
  if capability = [] then none
  else
    match capability.splitOn '.' with
    | [] => none
    | first :: segments => segments.foldl descend (get manifest.app first)

/-- The third-party reader: what it makes of a text, and its fault for a value of another shape. -/
structure Reader where
  document : String → Document
  shape : Value → String

/-- `serde_json::from_value`, for a manifest: `app` by its name, or as the only item of an array. -/
def fromValue (reader : Reader) (value : Value) : Except String PermissionsManifest :=
  match value with
  | .object entries =>
    match get entries "app".toList with
    | none => .ok {}
    | some (.object app) => .ok { app := app }
    | some other => .error (reader.shape other)
  | .array [] => .ok {}
  | .array [.object app] => .ok { app := app }
  | other => .error (reader.shape other)

inductive ManifestError where
  | tooLarge (path : Option Text) (maxBytes : ℕ)
  | parse (path : Option Text) (detail : String)
  | invalidAuthScope (path : Option Text) (capability : Text)
deriving DecidableEq

def maxManifestBytes : ℕ := 64 * 1024

/-- The C0, DEL and C1 controls. -/
def isControl (c : Char) : Bool := c.val ≤ 0x1f || (0x7f ≤ c.val && c.val ≤ 0x9f)

/-- `scope.contains("**")`. -/
def hasGlob : Text → Bool
  | '*' :: '*' :: _ => true
  | _ :: rest => hasGlob rest
  | [] => false

def invalidAuthLiteral (scope : Text) : Bool := hasGlob scope || scope.any isControl

/-- The check that `parse_manifest_at` makes of the two auth capabilities. -/
def checkAuthScopes (path : Option Text) (manifest : PermissionsManifest) (capability : Text) :
    Except ManifestError Unit :=
  match (grantNode manifest capability).bind Value.asArray with
  | none => .ok ()
  | some scopes =>
    require (!(scopes.filterMap Value.asStr).any invalidAuthLiteral)
      (.invalidAuthScope path capability)

def parseManifestAt (reader : Reader) (text : String) (path : Option Text) :
    Except ManifestError PermissionsManifest := do
  let stripped ← (stripJsoncComments text).mapError (.parse path)
  let value ← (parseUnique (reader.document stripped)).mapError (.parse path)
  let manifest ← (fromValue reader value).mapError (.parse path)
  checkAuthScopes path manifest Capability.authBegin
  checkAuthScopes path manifest Capability.authToken
  return manifest

def parseManifest (reader : Reader) (text : String) : Except ManifestError PermissionsManifest := do
  require ((utf8 text).length ≤ maxManifestBytes) (.tooLarge none maxManifestBytes)
  parseManifestAt reader text none

/-- The grants of `capability` name no glob and no control character. -/
def LiteralScopes (manifest : PermissionsManifest) (capability : Text) : Prop :=
  ∀ scopes, (grantNode manifest capability).bind Value.asArray = some scopes →
    ∀ scope ∈ scopes.filterMap Value.asStr, hasGlob scope = false ∧ ∀ c ∈ scope, isControl c = false

variable {path : Option Text} {manifest : PermissionsManifest} {reader : Reader} {text : String}

theorem checkAuthScopes_ok {capability : Text}
    (h : checkAuthScopes path manifest capability = .ok ()) :
    LiteralScopes manifest capability := by
  intro scopes hscs scope hm
  unfold checkAuthScopes at h
  rw [hscs] at h
  have ha : (scopes.filterMap Value.asStr).any invalidAuthLiteral = false := by
    simpa using require_ok.mp h
  have ho := List.any_eq_false.mp ha scope hm
  unfold invalidAuthLiteral at ho
  rw [Bool.not_eq_true, Bool.or_eq_false_iff] at ho
  exact ⟨ho.1, fun c hc => eq_false_of_ne_true (List.any_eq_false.mp ho.2 c hc)⟩

theorem parseManifestAt_literal (h : parseManifestAt reader text path = .ok manifest) :
    LiteralScopes manifest Capability.authBegin ∧ LiteralScopes manifest Capability.authToken := by
  obtain ⟨stripped, -, h⟩ := bind_ok.mp h
  obtain ⟨value, -, h⟩ := bind_ok.mp h
  obtain ⟨read, -, h⟩ := bind_ok.mp h
  obtain ⟨hbe, h⟩ := bind_unit_ok.mp h
  obtain ⟨hto, h⟩ := bind_unit_ok.mp h
  cases h
  exact ⟨checkAuthScopes_ok hbe, checkAuthScopes_ok hto⟩

theorem parseManifest_literal (h : parseManifest reader text = .ok manifest) :
    LiteralScopes manifest Capability.authBegin ∧ LiteralScopes manifest Capability.authToken := by
  obtain ⟨-, h⟩ := bind_unit_ok.mp h
  exact parseManifestAt_literal h

end Keld.Guard
