/-
# `Keld.Guard.MatcherLaw` — what a scope covers

A request that a grant covers is written as the grant's root with more behind a
separator.  So its components continue those of the root, and where the root
starts with a scheme the request goes to the same authority: the root reaches
past the separators after its colon, or it would name no destination.
-/
import Keld.Guard.Matcher
import Mathlib.Data.List.TakeWhile
import Mathlib.Order.Bounds.Basic

namespace Keld.Guard

open List

/-- The names of a path: its segments, without the empty ones and the dots. -/
def components (path : Text) : List Text :=
  (path.splitOn '/').filter fun segment => segment ≠ [] ∧ segment ≠ ['.']

/-- What is before the first colon, and behind it, where no separator comes before the colon. -/
def scheme (text : Text) : Option (Text × Text) :=
  let name := text.takeWhile (· ≠ ':')
  match text.dropWhile (· ≠ ':') with
  | [] => none
  | _ :: tail => if name.any isSeparator then none else some (name, tail)

/-- The separators and the white space that an authority may follow. -/
def isSkipped (c : Char) : Bool := isSeparator c || isAsciiWhitespace c

def endsAuthority (c : Char) : Bool := isSeparator c || c = '?' || c = '#'

/-- The authority in what follows the colon of a scheme. -/
def authority (tail : Text) : Text :=
  (tail.dropWhile isSkipped).takeWhile fun c => !endsAuthority c

/-! ## Components -/

theorem components_append (front rest : Text) :
    components (front ++ '/' :: rest) = components front ++ components rest := by
  unfold components
  rw [splitOn_append_cons_self, filter_append]

variable {root path text name tail : Text} {i : ℕ}

theorem Below.components (h : Below root path) : components root <+: components path := by
  rcases h with rfl | ⟨rest, rfl⟩
  · exact prefix_rfl
  · rw [components_append]
    exact prefix_append _ _

/-! ## The scheme and the authority -/

theorem cut_at {c : Char} {front : Text} (h : c ∉ front) (rest : Text) :
    (front ++ c :: rest).takeWhile (· ≠ c) = front ∧
      (front ++ c :: rest).dropWhile (· ≠ c) = c :: rest := by
  have ha : ∀ d ∈ front, decide (d ≠ c) = true := fun d hd =>
    decide_eq_true fun he => h (he ▸ hd)
  rw [takeWhile_append_of_pos ha, dropWhile_append_of_pos ha]
  simp

theorem scheme_eq_some :
    scheme text = some (name, tail) ↔
      text = name ++ ':' :: tail ∧ ':' ∉ name ∧ name.any isSeparator = false := by
  unfold scheme
  constructor
  · intro h
    cases hd : text.dropWhile (· ≠ ':') with
    | nil => rw [hd] at h; cases h
    | cons c rest =>
      rw [hd] at h
      dsimp only at h
      split at h
      · cases h
      · rename_i hsep
        cases h
        have hh := head?_dropWhile_not (· ≠ ':') text
        rw [hd] at hh
        have hc : c = ':' := by simpa using hh
        refine ⟨?_, fun hm => ?_, eq_false_of_ne_true hsep⟩
        · rw [← hc] at hd ⊢
          rw [← hd, takeWhile_append_dropWhile]
        · have hne := mem_takeWhile_imp hm
          simp at hne
  · rintro ⟨rfl, hn, hsep⟩
    rw [(cut_at hn tail).1, (cut_at hn tail).2]
    simp [hsep]

theorem scheme_append (h : scheme text = some (name, tail)) (more : Text) :
    scheme (text ++ more) = some (name, tail ++ more) := by
  rw [scheme_eq_some] at h ⊢
  obtain ⟨rfl, hn⟩ := h
  exact ⟨by simp, hn⟩

/-- Past what is skipped, a separator and what follows it do not change the authority. -/
theorem authority_append (hre : tail.dropWhile isSkipped ≠ []) (rest : Text) :
    authority (tail ++ '/' :: rest) = authority tail := by
  have hd : (tail ++ '/' :: rest).dropWhile isSkipped =
      tail.dropWhile isSkipped ++ '/' :: rest := by
    rw [dropWhile_append, if_neg]
    simpa using hre
  unfold authority
  rw [hd]
  induction tail.dropWhile isSkipped with
  | nil => rfl
  | cons c others ih =>
    rw [cons_append, takeWhile_cons, takeWhile_cons, ih]

theorem byteLen_ne_one (h : 2 ≤ name.length) : byteLen name ≠ 1 := by
  match name, h with
  | first :: second :: rest, _ =>
    have hf := Char.utf8Size_pos first
    have hse := Char.utf8Size_pos second
    unfold byteLen
    rw [map_cons, map_cons, sum_cons, sum_cons]
    omega

/-- A root with a scheme of its own that names a destination reaches past the separators. -/
theorem reaches_of_names (hsc : scheme root = some (name, tail)) (hl : 2 ≤ name.length)
    (h : namesNoDestination root = false) :
    tail.dropWhile isSkipped ≠ [] := by
  intro hsk
  obtain ⟨hro, hco, hsep⟩ := scheme_eq_some.mp hsc
  have ha : tail.all isSkipped = true := by
    exact all_eq_true.mpr (dropWhile_eq_nil_iff.mp hsk)
  have htr : namesNoDestination root = true := by
    unfold namesNoDestination
    rw [hro, (cut_at hco tail).1, (cut_at hco tail).2]
    have ha' : (tail.all fun c => isSeparator c || isAsciiWhitespace c) = true := ha
    simp [hsep, ha', byteLen_ne_one hl]
  rw [h] at htr
  cases htr

/-- Past what is skipped an authority is empty only in front of a query or a fragment. -/
theorem authority_eq_nil (hre : tail.dropWhile isSkipped ≠ []) :
    authority tail = [] ↔
      (tail.dropWhile isSkipped).head? = some '?' ∨
        (tail.dropWhile isSkipped).head? = some '#' := by
  have hh := head?_dropWhile_not isSkipped tail
  unfold authority
  cases hd : tail.dropWhile isSkipped with
  | nil => exact absurd hd hre
  | cons c rest =>
    rw [hd] at hh
    have hc : isSkipped c = false := by simpa using hh
    have hsep : isSeparator c = false := (Bool.or_eq_false_iff.mp hc).1
    rw [takeWhile_cons]
    simp only [endsAuthority, hsep, Bool.false_or, head?_cons, Option.some.injEq]
    by_cases he : c = '?' ∨ c = '#'
    · rcases he with rfl | rfl <;> simp
    · rw [not_or] at he
      simp [he.1, he.2]

/-! ## What is allowed -/

/-- The first of the items that pass a test. -/
theorem findIdx_isLeast {α : Type} {items : List α} {test : α → Bool} :
    items.findIdx? test = some i ↔ IsLeast {k | ∃ item, items[k]? = some item ∧ test item} i := by
  rw [findIdx?_eq_some_iff_getElem]
  constructor
  · rintro ⟨hi, hte, hf⟩
    refine ⟨⟨items[i], List.getElem?_eq_getElem hi, hte⟩, ?_⟩
    rintro k ⟨item, hit, hp⟩
    by_contra hlt
    obtain ⟨hk, hg⟩ := List.getElem?_eq_some_iff.mp hit
    exact hf k (Nat.not_le.mp hlt) (hg ▸ hp)
  · rintro ⟨⟨item, hit, hp⟩, hlo⟩
    obtain ⟨hi, hg⟩ := List.getElem?_eq_some_iff.mp hit
    refine ⟨hi, hg ▸ hp, ?_⟩
    intro k hk hp
    exact Nat.not_lt.mpr (hlo ⟨_, List.getElem?_eq_getElem (Nat.lt_trans hk hi), hp⟩) hk

theorem evaluate_allow_iff {manifest : PermissionsManifest} {operation : Text} :
    evaluate manifest .appProcess operation path = .allow i ↔
      ∃ grants, Grants manifest operation grants ∧ ['.', '.'] ∉ path.splitOnP isSeparator ∧
        IsLeast {k | ∃ pattern, grants[k]? = some pattern ∧ pathInScope path pattern} i := by
  have hdo : pathHasDotdot path = true ↔ ['.', '.'] ∈ path.splitOnP isSeparator := by
    exact contains_iff_mem
  constructor
  · intro h
    by_cases hgrs : ∃ grants, Grants manifest operation grants
    · obtain ⟨grants, hgrs⟩ := hgrs
      rw [evaluate_grants hgrs] at h
      split at h
      · cases h
      · rename_i hpa
        refine ⟨grants, hgrs, fun hm => hpa (hdo.mpr hm), ?_⟩
        split at h
        · cases h
        · rename_i index hindex
          cases h
          exact findIdx_isLeast.mp hindex
    · rw [evaluate_not_granted (not_exists.mp hgrs)] at h
      cases h
  · rintro ⟨grants, hgrs, hpa, hle⟩
    rw [evaluate_grants hgrs, if_neg (fun hm => hpa (hdo.mp hm)), findIdx_isLeast.mpr hle]

/-- A request below a root with a scheme goes where the root does. -/
theorem below_authority (hco : pathInScope path (root ++ globSuffix))
    (hsc : scheme root = some (name, tail)) (hl : 2 ≤ name.length) :
    ∃ below, scheme path = some (name, below) ∧ authority below = authority tail ∧
      (authority tail = [] ↔ (tail.dropWhile isSkipped).head? = some '?' ∨
        (tail.dropWhile isSkipped).head? = some '#') := by
  obtain ⟨hna, hbe⟩ := pathInScope_glob.mp hco
  have hre := reaches_of_names hsc hl hna
  rcases hbe with rfl | ⟨rest, rfl⟩
  · exact ⟨tail, hsc, rfl, authority_eq_nil hre⟩
  · exact ⟨tail ++ '/' :: rest, scheme_append hsc _, authority_append hre rest,
      authority_eq_nil hre⟩

/-- What is allowed, and what a glob can cover: its own names continued, at its own authority. -/
theorem scopes_never_widen :
    (∀ (manifest : PermissionsManifest) (operation path : Text) (i : ℕ),
      evaluate manifest .appProcess operation path = .allow i ↔
        ∃ grants, Grants manifest operation grants ∧ ['.', '.'] ∉ path.splitOnP isSeparator ∧
          IsLeast {k | ∃ pattern, grants[k]? = some pattern ∧ pathInScope path pattern} i) ∧
    (∀ root path : Text, pathInScope path (root ++ globSuffix) →
      components root <+: components path ∧
        ∀ name tail, scheme root = some (name, tail) → 2 ≤ name.length →
          ∃ below, scheme path = some (name, below) ∧ authority below = authority tail ∧
            (authority tail = [] ↔ (tail.dropWhile isSkipped).head? = some '?' ∨
              (tail.dropWhile isSkipped).head? = some '#')) ∧
    (∀ (manifest : PermissionsManifest) (principal : Principal) (operation path : Text),
      principal ≠ .appProcess →
        evaluate manifest principal operation path = .deny (.notAppProcess principal)) := by
  refine ⟨fun manifest operation path i => evaluate_allow_iff, ?_, ?_⟩
  · intro root path hco
    refine ⟨(pathInScope_glob.mp hco).2.components, ?_⟩
    intro name tail hsc hl
    exact below_authority hco hsc hl
  · intro manifest principal operation path hpr
    exact evaluate_principal hpr operation path

/-- One grant, for one host. -/
def hostManifest : PermissionsManifest where
  app := [("net".toList, .object [("fetch".toList, .array [.string "https://api.test/**".toList])])]

theorem scopes_never_widen_host :
    (∃ grants, Grants hostManifest "net.fetch".toList grants ∧
      ['.', '.'] ∉ "https://api.test/v1".toList.splitOnP isSeparator ∧
      IsLeast {k | ∃ pattern, grants[k]? = some pattern ∧
        pathInScope "https://api.test/v1".toList pattern} 0) ∧
    (∃ below, scheme "https://api.test/v1".toList = some ("https".toList, below) ∧
      authority below = "api.test".toList) ∧
    evaluate hostManifest (.plugin 0) "net.fetch".toList [] = .deny (.notAppProcess (.plugin 0)) := by
  refine ⟨(scopes_never_widen.1 _ _ _ 0).mp (by decide +kernel), ?_,
    scopes_never_widen.2.2 _ _ _ _ (by decide)⟩
  obtain ⟨-, hho⟩ :=
    scopes_never_widen.2.1 "https://api.test".toList "https://api.test/v1".toList (by decide +kernel)
  obtain ⟨below, hsc, hs, -⟩ :=
    hho "https".toList "//api.test".toList (by decide +kernel) (by decide)
  exact ⟨below, hsc, hs.trans (by decide +kernel)⟩

/-- A query mark where the authority would be leaves it empty. -/
theorem query_root_has_no_authority :
    ¬ ∀ root path name tail : Text, pathInScope path (root ++ globSuffix) →
      scheme root = some (name, tail) → 2 ≤ name.length →
        ∃ below, scheme path = some (name, below) ∧ authority below = authority tail ∧
          authority tail ≠ [] := by
  intro h
  obtain ⟨below, -, -, hno⟩ := h "htt://?".toList "htt://?/x".toList "htt".toList
    "//?".toList (by decide +kernel) (by decide +kernel) (by decide)
  exact hno (by decide +kernel)

end Keld.Guard
