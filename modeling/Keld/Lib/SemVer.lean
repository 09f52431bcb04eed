/-
# `Keld.Lib.SemVer` — strict SemVer texts and their precedence

`Version.parse` accepts exactly the texts of the SemVer grammar whose three numbers fit
64 bits; `cmpPrecedence` compares two versions without their build metadata.

Precedence is compared through a key in a linear order: the three numbers, then the
pre-release, where none at all is the greatest and two compare identifier by
identifier, a numeric one below every alphanumeric one and a proper beginning below the
longer list.  Every fact about precedence is a fact about the key.
-/
import Mathlib.Data.Prod.Lex
import Mathlib.Data.Sum.Order
import Mathlib.Data.List.Lex
import Mathlib.Data.String.Basic
import Mathlib.Order.WithBot

namespace Keld.SemVer

/-- One dot-separated part of a pre-release. -/
inductive Identifier where
  | numeric (value : ℕ)
  | alphanumeric (text : List Char)
deriving DecidableEq, Repr

structure Version where
  major : ℕ
  minor : ℕ
  patch : ℕ
  pre : List Identifier
  build : List (List Char)
deriving DecidableEq, Repr

/-! ## The grammar -/

def isDigit (c : Char) : Bool := decide ('0' ≤ c) && decide (c ≤ '9')

def isIdentifierChar (c : Char) : Bool := c.isAlphanum || c == '-'

/-- The value of a nonempty run of digits without a leading zero. -/
def parseNumeric (text : List Char) : Option ℕ :=
  match text with
  | [] => none
  | c :: rest =>
    if !text.all isDigit || (c == '0' && !rest.isEmpty) then none
    else some (text.foldl (fun n d => 10 * n + (d.toNat - '0'.toNat)) 0)

/-- A number of the version core, which fits 64 bits. -/
def parseCore (text : List Char) : Option ℕ :=
  (parseNumeric text).filter (· < 2 ^ 64)

/-- A pre-release identifier: one of digits only is a number. -/
def parseIdentifier (text : List Char) : Option Identifier :=
  if text.isEmpty || !text.all isIdentifierChar then none
  else if text.all isDigit then (parseNumeric text).map .numeric
  else some (.alphanumeric text)

/-- A build identifier, which may have leading zeros. -/
def parseBuild (text : List Char) : Option (List Char) :=
  if text.isEmpty || !text.all isIdentifierChar then none else some text

/-- The text before the first `c`, and the text after it. -/
def splitFirst (c : Char) : List Char → List Char × Option (List Char)
  | [] => ([], none)
  | d :: rest =>
    if d = c then ([], some rest)
    else
      let (before, after) := splitFirst c rest
      (d :: before, after)

/-- The dot-separated parts of an optional section, each parsed by `part`. -/
def parseParts {α : Type} (part : List Char → Option α) : Option (List Char) → Option (List α)
  | none => some []
  | some text => (text.splitOn '.').mapM part

/-- Parses a strict SemVer text. -/
def Version.parse (text : String) : Option Version :=
  let (release, build) := splitFirst '+' text.toList
  let (core, pre) := splitFirst '-' release
  match core.splitOn '.' with
  | [major, minor, patch] => do
    let major ← parseCore major
    let minor ← parseCore minor
    let patch ← parseCore patch
    let pre ← parseParts parseIdentifier pre
    let build ← parseParts parseBuild build
    pure { major, minor, patch, pre, build }
  | _ => none

/-! ## Precedence -/

/-- The order of the keys that versions are compared by. -/
abbrev Precedence : Type := ℕ ×ₗ ℕ ×ₗ ℕ ×ₗ WithTop (List (ℕ ⊕ₗ List Char))

def Identifier.key : Identifier → ℕ ⊕ₗ List Char
  | .numeric value => toLex (.inl value)
  | .alphanumeric text => toLex (.inr text)

/-- No pre-release is above every pre-release. -/
def preKey (pre : List Identifier) : WithTop (List (ℕ ⊕ₗ List Char)) :=
  if pre.isEmpty then ⊤ else ((pre.map Identifier.key : List (ℕ ⊕ₗ List Char)) : WithTop _)

def Version.precedence (v : Version) : Precedence :=
  toLex (v.major, toLex (v.minor, toLex (v.patch, preKey v.pre)))

/-- Compares two versions by precedence; build metadata plays no part. -/
def Version.cmpPrecedence (v w : Version) : Ordering := compare v.precedence w.precedence

variable {v w : Version}

theorem cmpPrecedence_eq_gt : v.cmpPrecedence w = .gt ↔ w.precedence < v.precedence :=
  compare_gt_iff_gt

theorem cmpPrecedence_ne_gt : v.cmpPrecedence w ≠ .gt ↔ v.precedence ≤ w.precedence := by
  rw [ne_eq, cmpPrecedence_eq_gt, not_lt]

theorem cmpPrecedence_eq_lt : v.cmpPrecedence w = .lt ↔ v.precedence < w.precedence :=
  compare_lt_iff_lt

theorem cmpPrecedence_eq_eq : v.cmpPrecedence w = .eq ↔ v.precedence = w.precedence :=
  compare_eq_iff_eq

end Keld.SemVer
