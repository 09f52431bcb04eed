/-
# `Keld.Guard.Matcher` — the decision on a request

`evaluate` decides one request of one principal: which grant of the capability,
in the order of the manifest, is the first whose pattern matches.  A pattern is
a literal, or a root followed by `/**` that covers the root and what lies below
it; a root that names a scheme and no destination covers nothing.
-/
import Keld.Guard.Manifest

namespace Keld.Guard

open List Value

inductive Principal where
  | appProcess
  | webview (id generation : ℕ)
  | plugin (id : ℕ)
deriving DecidableEq

inductive DenyReason where
  | notGranted (capability jsonPointer requested : Text)
  | outOfScope (capability scope jsonPointer requested : Text)
  | channelForbidden (channel : Text)
  | notAppProcess (principal : Principal)
  | mediaPrincipalRequired (capability : Text) (presented : Option Principal)
deriving DecidableEq

def DenyReason.code : DenyReason → String
  | .notGranted .. => "KELD-GUARD001"
  | .outOfScope .. => "KELD-GUARD002"
  | .channelForbidden .. => "KELD-GUARD003"
  | .notAppProcess .. => "KELD-GUARD006"
  | .mediaPrincipalRequired .. => "KELD-GUARD007"

/-- An allowance carries the `ScopePermit`: the index of the grant. -/
inductive Decision where
  | allow (grantIndex : ℕ)
  | deny (reason : DenyReason)
deriving DecidableEq

/-! ## Patterns -/

def isSeparator (c : Char) : Bool := c = '/' || c = '\\'

/-- `u8::is_ascii_whitespace`: no vertical tab. -/
def isAsciiWhitespace (c : Char) : Bool :=
  c = ' ' || c = '\t' || c = '\n' || c = '\x0c' || c = '\r'

/-- `str::len`. -/
def byteLen (text : Text) : ℕ := (text.map Char.utf8Size).sum

def stripSuffix (suffix text : Text) : Option Text :=
  if suffix.isSuffixOf text then some (text.take (text.length - suffix.length)) else none

def globSuffix : Text := ['/', '*', '*']

def pathHasDotdot (path : Text) : Bool := (path.splitOnP isSeparator).contains ['.', '.']

def namesNoDestination (root : Text) : Bool :=
  let scheme := root.takeWhile (· ≠ ':')
  match root.dropWhile (· ≠ ':') with
  | [] => false
  | _ :: tail =>
    if scheme.any isSeparator then false
    else if !tail.all fun c => isSeparator c || isAsciiWhitespace c then false
    -- a bare drive root still names a destination
    else byteLen scheme ≠ 1 || byteLen tail ≠ 0

def pathInScope (path pattern : Text) : Bool :=
  match stripSuffix globSuffix pattern with
  | none => path = pattern
  | some root =>
    if namesNoDestination root then false
    else if path = root then true
    else root.isPrefixOf path && path[root.length]? = some '/'

/-! ## The decision -/

def denyNotGranted (operation path : Text) : Decision :=
  .deny (.notGranted operation (jsonPointerFor operation) path)

def denyOutOfScope (operation path : Text) (grants : List Value) : Decision :=
  .deny (.outOfScope operation (", ".toList.intercalate (grants.filterMap asStr))
    (jsonPointerFor operation) path)

def matchesGrant (path : Text) (value : Value) : Bool := value.asStr.any (pathInScope path ·)

def evaluate (manifest : PermissionsManifest) (principal : Principal) (operation path : Text) :
    Decision :=
  if principal ≠ .appProcess then .deny (.notAppProcess principal)
  else
    match grantNode manifest operation with
    | none => denyNotGranted operation path
    | some node =>
      match node.asArray with
      | none => denyNotGranted operation path
      | some grants =>
        if grants.isEmpty || grants.any fun value => !value.isString then
          denyNotGranted operation path
        else if pathHasDotdot path then denyOutOfScope operation path grants
        else
          match grants.findIdx? (matchesGrant path) with
          | none => denyOutOfScope operation path grants
          | some grantIndex => .allow grantIndex

/-! ## What the parts say -/

variable {suffix text root path operation : Text} {value : Value} {items : List Value}
  {manifest : PermissionsManifest}

theorem stripSuffix_eq_some : stripSuffix suffix text = some root ↔ text = root ++ suffix := by
  unfold stripSuffix
  constructor
  · intro h
    split at h
    · rename_i hsuf
      obtain ⟨front, rfl⟩ := isSuffixOf_iff_suffix.mp hsuf
      have hro : front = root := by simpa using h
      rw [hro]
    · cases h
  · rintro rfl
    simp

theorem stripSuffix_eq_none : stripSuffix suffix text = none ↔ ∀ root, text ≠ root ++ suffix := by
  constructor
  · intro h root ht
    rw [stripSuffix_eq_some.mpr ht] at h
    cases h
  · intro h
    cases hst : stripSuffix suffix text with
    | none => rfl
    | some root => exact absurd (stripSuffix_eq_some.mp hst) (h root)

/-- At or below `root`, in the spelling of `root`. -/
def Below (root path : Text) : Prop := path = root ∨ ∃ rest, path = root ++ '/' :: rest

theorem below_iff :
    Below root path ↔ path = root ∨ (root.isPrefixOf path && path[root.length]? = some '/') := by
  refine or_congr_right ?_
  rw [Bool.and_eq_true, isPrefixOf_iff_prefix, decide_eq_true_eq]
  constructor
  · rintro ⟨rest, rfl⟩
    exact ⟨prefix_append _ _, by simp⟩
  · rintro ⟨⟨rest, rfl⟩, hsl⟩
    cases rest with
    | nil => simp at hsl
    | cons c rest =>
      have hc : c = '/' := by simpa using hsl
      exact ⟨rest, by rw [hc]⟩

/-- A glob covers what lies below its root, where the root names a destination. -/
theorem pathInScope_glob :
    pathInScope path (root ++ globSuffix) ↔ namesNoDestination root = false ∧ Below root path := by
  unfold pathInScope
  rw [stripSuffix_eq_some.mpr rfl, below_iff]
  dsimp only
  cases hna : namesNoDestination root with
  | true => simp
  | false =>
    by_cases hpa : path = root
    · simp [hpa]
    · simp [hpa]

theorem pathInScope_literal {pattern : Text} (h : ∀ root, pattern ≠ root ++ globSuffix) :
    pathInScope path pattern ↔ path = pattern := by
  unfold pathInScope
  rw [stripSuffix_eq_none.mpr h]
  exact decide_eq_true_iff

/-- The capability resolves to an array of these strings, at least one. -/
def Grants (manifest : PermissionsManifest) (operation : Text) (grants : List Text) : Prop :=
  grants ≠ [] ∧ grantNode manifest operation = some (.array (grants.map .string))

theorem asArray_eq_some : value.asArray = some items ↔ value = .array items := by
  cases value <;> simp [asArray]

theorem isString_iff : value.isString ↔ ∃ text, value = .string text := by
  cases value <;> simp [isString, asStr]

theorem strings_of_all (h : items.any (fun value => !value.isString) = false) :
    ∃ grants : List Text, items = grants.map .string := by
  induction items with
  | nil => exact ⟨[], rfl⟩
  | cons item rest ih =>
    rw [any_cons, Bool.or_eq_false_iff] at h
    obtain ⟨text, rfl⟩ := isString_iff.mp (by simpa using h.1)
    obtain ⟨grants, rfl⟩ := ih h.2
    exact ⟨text :: grants, rfl⟩

theorem filterMap_asStr (grants : List Text) : (grants.map string).filterMap asStr = grants := by
  rw [filterMap_map]
  exact filterMap_some

/-- What is decided where the capability is granted to strings. -/
theorem evaluate_grants {grants : List Text} (h : Grants manifest operation grants) :
    evaluate manifest .appProcess operation path =
      if pathHasDotdot path then denyOutOfScope operation path (grants.map .string)
      else
        match grants.findIdx? (pathInScope path ·) with
        | none => denyOutOfScope operation path (grants.map .string)
        | some grantIndex => .allow grantIndex := by
  have hst : (grants.map string).any (fun value => !value.isString) = false := by
    rw [any_map]
    exact any_eq_false.mpr fun grant _ => by simp [isString, asStr]
  have hno : (grants.map string).isEmpty = false := by simpa using h.1
  have hfi : (grants.map string).findIdx? (matchesGrant path) =
      grants.findIdx? (pathInScope path ·) := by
    rw [findIdx?_map]
    rfl
  unfold evaluate
  rw [if_neg (by simp), h.2]
  simp only [asArray, hst, hno, hfi, Bool.or_self, Bool.false_eq_true, if_false]

/-- What is decided where it is not. -/
theorem evaluate_not_granted (h : ∀ grants, ¬ Grants manifest operation grants) (path : Text) :
    evaluate manifest .appProcess operation path = denyNotGranted operation path := by
  unfold evaluate
  rw [if_neg (by simp)]
  cases hno : grantNode manifest operation with
  | none => rfl
  | some node =>
    dsimp only
    cases har : node.asArray with
    | none => rfl
    | some items =>
      refine if_pos ?_
      by_contra hte
      rw [Bool.not_eq_true, Bool.or_eq_false_iff] at hte
      obtain ⟨grants, rfl⟩ := strings_of_all hte.2
      refine h grants ⟨by simpa using hte.1, ?_⟩
      rw [hno, asArray_eq_some.mp har]

theorem evaluate_principal {principal : Principal} (h : principal ≠ .appProcess)
    (operation path : Text) :
    evaluate manifest principal operation path = .deny (.notAppProcess principal) := if_pos h

end Keld.Guard
