/-
# `Keld.Fs.Agreement` — the guard and the broker on one scope

The guard matches a request against the text of a scope; the broker walks it from
the directory that the scope was opened at.  Both read the scope as a root with
names behind it, so what the guard allows under an index the grant of that index
walks, and its names are those that the request has behind the root.

A scope serves a request only where its root leaves room for one: the root of
the file system with its slash doubled, or a root as long as a path may be,
passes the validation of scopes and no request can name anything below it.
-/
import Keld.Fs.Prepare
import Mathlib.Data.Nat.Find

namespace Keld.Fs

open List Guard

open Guard (Text Platform PathScope PathScopeKind PermissionsManifest
  pathScopes pathInScope evaluate globSuffix byteLen isFsRoot Below GlobRoot ValidPath ScopeOk
  scopeAt filesystemDispatchPathIsValid validateFsComponent)

/-- The names of a path. -/
abbrev pathNames (path : Text) : List Text := namesBetween (· == '/') path

/-- An anchor with names behind it. -/
def spelled (anchor : Text) (walked : List Text) : Text :=
  (if anchor.getLast? = some '/' then anchor else anchor ++ ['/']) ++ ['/'].intercalate walked

/-! ## Anchors -/

/-- A root, or the root with a slash. -/
def Anchors (root anchor : Text) : Prop := (anchor = root ∧ root ≠ []) ∨ anchor = root ++ ['/']

variable {root anchor leaf path pattern operation : Text} {grant : RetainedGrant} {i k : ℕ}
  {patterns : List Text} {grants : List RetainedGrant}

theorem Anchors.names (h : Anchors root anchor) : pathNames anchor = pathNames root := by
  rcases h with ⟨rfl, -⟩ | rfl
  · rfl
  · exact namesBetween_snoc rfl root

theorem getLast_slash :
    anchor.getLast? = some '/' ↔ ∃ front, anchor = front ++ ['/'] := getLast?_eq_some_iff

theorem stripFront_append (front rest : Text) : stripFront front (front ++ rest) = some rest := by
  unfold stripFront
  rw [if_pos (List.isPrefixOf_iff_prefix.mpr (prefix_append front rest)), drop_left]

theorem stripFront_longer (front : Text) (c : Char) (rest : Text) :
    stripFront (front ++ c :: rest) front = none := by
  refine if_neg fun h => ?_
  have hl := (List.isPrefixOf_iff_prefix.mp h).length_le
  rw [length_append, length_cons] at hl
  omega

section

variable (hkind : grant.kind = .subtree) (h : Anchors root grant.anchor)
include hkind h

/-- The request behind the anchor, whatever slashes are between. -/
theorem relativeRequest_below (rest : Text) :
    ∃ relative, relativeRequest grant (root ++ '/' :: rest) = .ok relative ∧
      pathNames relative = pathNames rest := by
  unfold relativeRequest
  rw [hkind]
  dsimp only
  rcases h with ⟨han, -⟩ | han
  · rw [han, if_neg (by simp)]
    unfold stripSubtreeAnchor
    rw [stripFront_append, Option.bind_some]
    split
    · exact ⟨_, rfl, namesBetween_cons rfl rest⟩
    · refine ⟨rest, ?_, rfl⟩
      rw [show '/' :: rest = ['/'] ++ rest from rfl, stripFront_append]
      rfl
  · rw [han]
    by_cases hr : rest = []
    · rw [hr, if_pos rfl]
      exact ⟨[], rfl, rfl⟩
    · rw [if_neg (by simpa using hr)]
      unfold stripSubtreeAnchor
      have hap : root ++ '/' :: rest = (root ++ ['/']) ++ rest := by simp
      rw [hap, stripFront_append, Option.bind_some, if_pos (getLast_slash.mpr ⟨root, rfl⟩)]
      exact ⟨rest, rfl, rfl⟩

/-- A request below the root of a subtree is walked by the names behind the root. -/
theorem walkPlan_below (rest : Text) :
    walkPlan grant (root ++ '/' :: rest) =
      if pathNames rest = [] then
        .error (.unsupportedObject (root ++ '/' :: rest)
          "scope root is a directory, not a regular file")
      else .ok ((pathNames rest).map .normal) := by
  obtain ⟨relative, hre, hna⟩ := relativeRequest_below hkind h rest
  unfold walkPlan
  rw [hre]
  show (do
    require _ _
    return _) = _
  rw [show namesBetween (· == '/') relative = pathNames rest from hna]
  by_cases hr : pathNames rest = []
  · rw [if_pos hr, hr]
    rfl
  · rw [if_neg hr]
    have hte : require (decide ((pathNames rest).map Segment.normal ≠ []))
        (FsError.unsupportedObject (root ++ '/' :: rest)
          "scope root is a directory, not a regular file") = .ok () :=
      require_ok.mpr (decide_eq_true (by simpa using hr))
    rw [hte]
    rfl

/-- The root of a subtree itself is refused. -/
theorem walkPlan_root : ∃ error, walkPlan grant root = .error error := by
  unfold walkPlan relativeRequest
  rw [hkind]
  rcases h with ⟨han, -⟩ | han
  · rw [han, if_pos rfl]
    exact ⟨_, rfl⟩
  · rw [han, if_neg (by simp)]
    unfold stripSubtreeAnchor
    rw [stripFront_longer]
    exact ⟨_, rfl⟩

end

/-- The leaf of an exact grant is all that is walked. -/
theorem walkPlan_exact (hkind : grant.kind = .exact) (hle : grant.exactLeaf = some leaf)
    (hne : leaf ≠ []) (hsl : '/' ∉ leaf) (path : Text) :
    walkPlan grant path = .ok [.normal leaf] := by
  have hna : namesBetween (· == '/') leaf = [leaf] :=
    namesBetween_name hne fun c hc => beq_eq_false_iff_ne.mpr fun he => hsl (he ▸ hc)
  unfold walkPlan relativeRequest
  rw [hkind, hle]
  show (do
    require (decide ((namesBetween (· == '/') leaf).map Segment.normal ≠ [])) _
    return (namesBetween (· == '/') leaf).map Segment.normal) = _
  rw [hna]
  rfl

/-! ## Scopes and their anchors -/

variable {platform : Platform}

/-- The anchor of a glob is its root, or the root with a slash. -/
theorem anchors_subtree (h : GlobRoot platform root) :
    Anchors root (subtreeAnchor platform (root ++ globSuffix)) := by
  unfold subtreeAnchor
  rw [stripSuffix_eq_some.mpr rfl, Option.getD_some]
  dsimp only
  split
  · exact .inr rfl
  · split
    · rename_i hro
      exact .inr (by rw [hro]; rfl)
    · rename_i hro
      exact .inl ⟨rfl, hro⟩

theorem cutLastSlash_some {front : Text} (h : cutLastSlash path = some (front, leaf)) :
    path = front ++ '/' :: leaf ∧ '/' ∉ leaf := by
  unfold cutLastSlash at h
  cases hd : path.reverse.dropWhile (· ≠ '/') with
  | nil =>
    rw [hd] at h
    cases h
  | cons c others =>
    rw [hd] at h
    cases h
    have hh := head?_dropWhile_not (· ≠ '/') path.reverse
    rw [hd] at hh
    have hc : c = '/' := by simpa using hh
    constructor
    · have hap := takeWhile_append_dropWhile (p := (· ≠ '/')) (l := path.reverse)
      rw [hd, hc] at hap
      have hr := congrArg List.reverse hap
      rw [reverse_reverse, reverse_append, reverse_cons] at hr
      rw [append_assoc, singleton_append] at hr
      exact hr.symm
    · intro hm
      have hne := mem_takeWhile_imp (mem_reverse.mp hm)
      simp at hne

/-- The anchor of an exact scope is what is before its leaf, or that with the slash. -/
theorem splitExactScope_some {exactLeaf : Option Text}
    (h : splitExactScope path = some (anchor, exactLeaf)) :
    ∃ front leaf, path = front ++ '/' :: leaf ∧ '/' ∉ leaf ∧ leaf ≠ [] ∧ exactLeaf = some leaf ∧
      Anchors front anchor := by
  obtain ⟨⟨front, leaf⟩, hcut, h⟩ := Option.bind_eq_some_iff.mp h
  obtain ⟨hpa, hsl⟩ := cutLastSlash_some hcut
  refine ⟨front, leaf, hpa, hsl, ?_⟩
  dsimp only at h
  split at h
  · cases h
  · rename_i hle
    split at h
    · rename_i hfr
      cases h
      exact ⟨hle, rfl, .inr (by rw [hfr]; rfl)⟩
    · rename_i hfr
      split at h
      · cases h
        exact ⟨hle, rfl, .inr rfl⟩
      · cases h
        exact ⟨hle, rfl, .inl ⟨rfl, hfr⟩⟩

/-- Names behind a root are spelled behind its anchor. -/
theorem spelled_behind {rest : Text} (han : Anchors root anchor)
    (hpa : ValidPath platform (root ++ '/' :: rest)) (hr : rest ≠ []) :
    root ++ '/' :: rest = spelled anchor (pathNames rest) := by
  have hna : ['/'].intercalate (pathNames rest) = rest := intercalate_namesBetween fun segment hm =>
      validateFsComponent_ne_nil (hpa.behind hr segment hm)
  unfold spelled
  rw [hna]
  rcases han with ⟨rfl, -⟩ | rfl
  · rw [if_neg, append_assoc, singleton_append]
    intro hsl
    -- a slash at the end of the root would leave an empty name
    obtain ⟨front, rfl⟩ := getLast_slash.mp hsl
    rw [append_assoc, singleton_append] at hpa
    have he : [] ∈ ('/' :: rest).splitOn '/' :=
      splitOn_append_cons_self (a := '/') [] rest ▸ mem_append_left _ mem_cons_self
    exact validateFsComponent_ne_nil (hpa.behind (by simp) [] he) rfl
  · rw [if_pos (getLast_slash.mpr ⟨root, rfl⟩), append_assoc, singleton_append]

/-- A grant and the pattern that it was made of. -/
inductive Retains (platform : Platform) (pattern : Text) (grant : RetainedGrant) : Prop
  | subtree {root : Text} : pattern = root ++ globSuffix → GlobRoot platform root →
      grant.kind = .subtree → Anchors root grant.anchor → Retains platform pattern grant
  | exact {front leaf : Text} : (∀ root, pattern ≠ root ++ globSuffix) →
      ValidPath platform pattern → pattern = front ++ '/' :: leaf → '/' ∉ leaf → leaf ≠ [] →
      grant.kind = .exact → grant.exactLeaf = some leaf → Anchors front grant.anchor →
      Retains platform pattern grant

theorem scopeShape_cases (pattern : Text) :
    (∃ root, pattern = root ++ globSuffix ∧
      scopeShape pattern = (if root = [] then ['/'] else root, .subtree)) ∨
    ((∀ root, pattern ≠ root ++ globSuffix) ∧ scopeShape pattern = (pattern, .exact)) := by
  unfold scopeShape
  cases hst : stripSuffix globSuffix pattern with
  | none => exact .inr ⟨stripSuffix_eq_none.mp hst, rfl⟩
  | some root => exact .inl ⟨root, stripSuffix_eq_some.mp hst, rfl⟩

theorem retains_of_grant (hok : ScopeOk platform pattern)
    (hgr : GrantOf platform (scopeAt i pattern) grant) :
    Retains platform pattern grant := by
  have hkind : grant.kind = (scopeShape pattern).2 := hgr.kind
  rcases scopeShape_cases pattern with ⟨root, hpat, hsh⟩ | ⟨hno, hsh⟩
  · have hv := hok.valid
    rw [hsh] at hv hkind
    have hro := globRoot_of_valid hv
    refine .subtree hpat hro hkind ?_
    have hanch : grant.anchor = subtreeAnchor platform pattern := hgr.subtree (by rw [scopeAt, hsh])
    rw [hanch, hpat]
    exact anchors_subtree hro
  · have hv := hok.valid
    rw [hsh] at hv hkind
    have hpl : servicePath platform pattern .exact = pattern := if_neg (by simp)
    rw [hpl] at hv
    obtain ⟨front, leaf, hpat, hsl, hle, hex, han⟩ :=
      splitExactScope_some (hgr.exact (by rw [scopeAt, hsh]))
    exact .exact hno hv hpat hsl hle hkind hex han

/-! ## What is walked -/

/-- How the grant of a scope walks a request that the scope matches. -/
structure Walks (platform : Platform) (operation pattern : Text) (grant : RetainedGrant)
    (path : Text) (walked : List Text) : Prop where
  subtree : grant.kind = .subtree → ∃ root, pattern = root ++ globSuffix ∧
    root.isPrefixOf path ∧ walked = pathNames (path.drop root.length)
  exact : grant.kind = .exact → path = pattern ∧
    ∃ front leaf, path = front ++ '/' :: leaf ∧ '/' ∉ leaf ∧ walked = [leaf]
  plan : walked ≠ [] → walkPlan grant path = .ok (walked.map .normal)
  names : pathNames path = pathNames grant.anchor ++ walked
  spells : filesystemDispatchPathIsValid platform operation path = true → walked ≠ [] →
    path = spelled grant.anchor walked
  /-- A bare root is refused whatever the calls would have found. -/
  refused : walked = [] → ∃ error, ∀ (purpose : OpenPurpose) (first : Moment) (rounds : ℕ → Round),
    (Walker.mk platform grant path purpose).walk first rounds = some (.error error)

theorem walk_of_plan {error : FsError} (h : walkPlan grant path = .error error)
    (purpose : OpenPurpose) (first : Moment) (rounds : ℕ → Round) :
    (Walker.mk platform grant path purpose).walk first rounds = some (.error error) := by
  unfold Walker.walk Walker.start
  rw [h]
  rfl

/-- A request that the pattern of a grant matches is walked by the grant. -/
theorem Retains.walks (hopn : isFilesystemCapability operation = true)
    (h : Retains platform pattern grant) (hsc : pathInScope path pattern = true) :
    ∃ walked, Walks platform operation pattern grant path walked := by
  cases h with
  | @subtree root hpat hro hkind han =>
    subst hpat
    have hnotExact : grant.kind ≠ .exact := by
      rw [hkind]
      nofun
    obtain ⟨-, rfl | ⟨rest, rfl⟩⟩ := pathInScope_glob.mp hsc
    · obtain ⟨error, hp⟩ := walkPlan_root hkind han
      refine ⟨[], fun _ => ⟨path, rfl, by simp, by simp⟩, fun hex => absurd hex hnotExact,
        fun hne => absurd rfl hne, ?_, fun _ hne => absurd rfl hne,
        fun _ => ⟨error, walk_of_plan hp⟩⟩
      rw [han.names, append_nil]
    · have hp := walkPlan_below hkind han rest
      refine ⟨pathNames rest, fun _ => ⟨root, rfl, ?_, ?_⟩, fun hex => absurd hex hnotExact,
        fun hne => hp.trans (if_neg hne), ?_, fun hv hne => ?_, fun he => ?_⟩
      · exact isPrefixOf_iff_prefix.mpr (prefix_append _ _)
      · rw [drop_left]
        exact (namesBetween_cons rfl rest).symm
      · rw [han.names]
        exact namesBetween_append rfl root rest
      · exact spelled_behind han ((dispatch_valid_iff hopn).mp hv) (ne_nil_of_namesBetween hne)
      · exact ⟨_, walk_of_plan (hp.trans (if_pos he))⟩
  | @exact front leaf hno hv hpat hsl hle hkind hex han =>
    rw [pathInScope_literal hno] at hsc
    subst hsc
    have hn : pathNames leaf = [leaf] :=
      namesBetween_name hle fun c hc => beq_eq_false_iff_ne.mpr fun heq => hsl (heq ▸ hc)
    refine ⟨[leaf], fun hsu => ?_, fun _ => ⟨rfl, front, leaf, hpat, hsl, rfl⟩,
      fun _ => walkPlan_exact hkind hex hle hsl path, ?_, fun _ _ => ?_, nofun⟩
    · rw [hkind] at hsu
      cases hsu
    · rw [han.names, ← hn, hpat]
      exact namesBetween_append rfl front leaf
    · rw [hpat] at hv ⊢
      rw [← hn]
      exact spelled_behind han hv hle

/-! ## Scopes that can serve a request -/

/-- A request that the broker begins to walk under the grant. -/
structure Serviceable (platform : Platform) (operation : Text) (grant : RetainedGrant)
    (path : Text) : Prop where
  shape : validateRequestShape path = .ok ()
  dispatched : filesystemDispatchPathIsValid platform operation path = true
  planned : ∃ pending, walkPlan grant path = .ok pending

/-- The root of a pattern has no slash of its own at its end, and leaves room for a name. -/
def HasRoom (platform : Platform) (pattern : Text) : Prop :=
  match stripSuffix globSuffix pattern with
  | some root => isFsRoot platform root = false ∧ byteLen root + 2 ≤ maxFsPathBytes
  | none => byteLen pattern ≤ maxFsPathBytes

theorem validateRequestShape_ok (hv : ValidPath platform path) :
    validateRequestShape path = .ok () ↔ byteLen path ≤ maxFsPathBytes := by
  have hnul : (!path.contains '\x00') = true := by
    rw [Bool.not_eq_true', contains_eq_mem, decide_eq_false_iff_not]
    exact fun hm => (hv.chars _ hm).1 rfl
  unfold validateRequestShape
  rw [bind_unit_ok, require_ok, decide_eq_true_eq, require_ok]
  exact and_iff_left hnul

theorem byteLen_append (front rest : Text) : byteLen (front ++ rest) = byteLen front + byteLen rest := by
  unfold byteLen
  rw [map_append, sum_append]

theorem byteLen_pos {text : Text} (h : text ≠ []) : 0 < byteLen text := by
  obtain ⟨c, rest, rfl⟩ := exists_cons_of_ne_nil h
  unfold byteLen
  rw [map_cons, sum_cons]
  exact Nat.add_pos_left (Char.utf8Size_pos c) _

theorem isFsRoot_slash (h : isFsRoot platform root = true) : ∃ front, root = front ++ ['/'] := by
  unfold isFsRoot at h
  split at h
  · rw [Bool.and_eq_true, decide_eq_true_eq, decide_eq_true_eq] at h
    obtain ⟨-, hd⟩ := h
    match root, hd with
    | drive :: rest, hd =>
      rw [drop_one, tail_cons] at hd
      exact ⟨[drive, ':'], by rw [hd]; rfl⟩
  · exact ⟨[], of_decide_eq_true h⟩

/-- Where a scope serves a request, there is room behind its root. -/
theorem Retains.hasRoom (hopn : isFilesystemCapability operation = true)
    (h : Retains platform pattern grant) (hsc : pathInScope path pattern = true)
    (hse : Serviceable platform operation grant path) : HasRoom platform pattern := by
  have hpa := (dispatch_valid_iff hopn).mp hse.dispatched
  have hby := (validateRequestShape_ok hpa).mp hse.shape
  obtain ⟨pending, hp⟩ := hse.planned
  unfold HasRoom
  cases h with
  | @subtree root hpat hro hkind han =>
    subst hpat
    rw [stripSuffix_eq_some.mpr rfl]
    obtain ⟨-, rfl | ⟨rest, rfl⟩⟩ := pathInScope_glob.mp hsc
    · obtain ⟨error, heo⟩ := walkPlan_root hkind han
      rw [hp] at heo
      cases heo
    · have hr : rest ≠ [] := by
        rintro rfl
        rw [walkPlan_below hkind han [], if_pos namesBetween_nil] at hp
        cases hp
      constructor
      · by_contra hfsRoot
        rw [Bool.not_eq_false] at hfsRoot
        obtain ⟨front, rfl⟩ := isFsRoot_slash hfsRoot
        rw [append_assoc, singleton_append] at hpa
        have he : [] ∈ ('/' :: rest).splitOn '/' :=
          splitOn_append_cons_self (a := '/') [] rest ▸ mem_append_left _ mem_cons_self
        exact validateFsComponent_ne_nil (hpa.behind (by simp) [] he) rfl
      · have hl := byteLen_append root ('/' :: rest)
        have hsl := byteLen_append ['/'] rest
        have ho : byteLen ['/'] = 1 := rfl
        have hpos := byteLen_pos hr
        rw [singleton_append] at hsl
        omega
  | exact hno =>
    rw [stripSuffix_eq_none.mpr hno]
    rw [pathInScope_literal hno] at hsc
    rw [← hsc]
    exact hby

theorem validateFsComponent_x : validateFsComponent platform ['x'] = .ok () := by
  cases platform <;> rfl

/-- Where there is room, a scope serves a request. -/
theorem Retains.serves (hopn : isFilesystemCapability operation = true)
    (h : Retains platform pattern grant) (hro : HasRoom platform pattern) :
    ∃ path, Serviceable platform operation grant path ∧ pathInScope path pattern = true := by
  unfold HasRoom at hro
  cases h with
  | @subtree root hpat hroot hkind han =>
    subst hpat
    rw [stripSuffix_eq_some.mpr rfl] at hro
    obtain ⟨hfsRoot, hby⟩ := hro
    have hpa : ValidPath platform (root ++ '/' :: ['x']) :=
      hroot.child hfsRoot validateFsComponent_x
    refine ⟨root ++ '/' :: ['x'], ⟨(validateRequestShape_ok hpa).mpr ?_,
      (dispatch_valid_iff hopn).mpr hpa, (pathNames ['x']).map .normal,
      (walkPlan_below hkind han ['x']).trans (if_neg (by decide))⟩, ?_⟩
    · rw [byteLen_append]
      exact hby
    · exact pathInScope_glob.mpr ⟨hroot.names_destination hfsRoot, .inr ⟨_, rfl⟩⟩
  | exact hno hv hpat hsl hle hkind hex han =>
    rw [stripSuffix_eq_none.mpr hno] at hro
    exact ⟨pattern, ⟨(validateRequestShape_ok hv).mpr hro, (dispatch_valid_iff hopn).mpr hv, _,
      walkPlan_exact hkind hex hle hsl pattern⟩,
      (pathInScope_literal hno).mpr rfl⟩

/-! ## Agreement -/

section

variable
  (h : List.Forall₂ (GrantOf platform) (patterns.mapIdx fun j pattern => scopeAt (k + j) pattern) grants)
include h

/-- The grants of scopes from an index on have indices from there on. -/
theorem le_grantIndex : ∀ grant ∈ grants, k ≤ grant.grantIndex := by
  induction patterns generalizing grants k with
  | nil =>
    cases h
    simp
  | cons pattern rest ih =>
    rw [mapIdx_cons] at h
    cases h with
    | cons hgr hr =>
      intro grant hm
      rcases mem_cons.mp hm with rfl | hm
      · exact hgr.grantIndex.ge
      · simp only [Nat.add_comm _ 1, ← Nat.add_assoc] at hr
        exact Nat.le_trans (Nat.le_add_left k 1) (ih hr grant hm)

/-- One grant has the index of a scope, and it was made of that scope. -/
theorem filter_grantIndex (hpat : patterns[i]? = some pattern) :
    ∃ grant, grants.filter (·.grantIndex = k + i) = [grant] ∧
      GrantOf platform (scopeAt (k + i) pattern) grant := by
  induction patterns generalizing grants k i with
  | nil => cases hpat
  | cons first rest ih =>
    rw [mapIdx_cons] at h
    cases h with
    | @cons _ grant _ others hgr hr =>
      simp only [Nat.add_comm _ 1, ← Nat.add_assoc] at hr
      have hin : grant.grantIndex = k := hgr.grantIndex
      cases i with
      | zero =>
        cases hpat
        refine ⟨grant, ?_, hgr⟩
        rw [Nat.add_zero, filter_cons, if_pos (decide_eq_true hin), filter_eq_nil_iff.mpr]
        intro other ho
        have hle := le_grantIndex hr other ho
        rw [decide_eq_true_eq]
        omega
      | succ i =>
        obtain ⟨found, hfi, hf⟩ := ih hr hpat
        rw [show 1 + k + i = k + (i + 1) by omega] at hfi hf
        refine ⟨found, ?_, hf⟩
        rw [filter_cons, if_neg, hfi]
        rw [decide_eq_true_eq, hin]
        omega

end

/-- What the guard allows the broker walks, and every scope serves some request. -/
structure Agrees (platform : Platform) (manifest : PermissionsManifest) (broker : FsBroker)
    (operation : Text) : Prop where
  walks : ∀ path i, evaluate manifest .appProcess operation path = .allow i →
    ∃ scopes scope grant walked, pathScopes platform manifest operation = .ok scopes ∧
      scopes[i]? = some scope ∧ scope.grantIndex = i ∧
      (broker.grants operation).filter (·.grantIndex = i) = [grant] ∧
      selectedGrant (broker.grants operation) i path = .ok grant ∧ grant.kind = scope.kind ∧
      Walks platform operation scope.pattern grant path walked
  live : ∀ scopes, pathScopes platform manifest operation = .ok scopes → ∀ scope ∈ scopes,
    ∃ grant ∈ broker.grants operation, grant.grantIndex = scope.grantIndex ∧
      ∃ path, Serviceable platform operation grant path ∧
        pathInScope path scope.pattern = true ∧
        ∃ j, evaluate manifest .appProcess operation path = .allow j

/-- A request that a grant matches and that is an accepted path is allowed. -/
theorem evaluate_allows {manifest : PermissionsManifest} {grants : List Text}
    (hgrs : Guard.Grants manifest operation grants) (hpa : ValidPath platform path)
    (hpat : grants[i]? = some pattern) (hsc : pathInScope path pattern = true) :
    ∃ j, evaluate manifest .appProcess operation path = .allow j := by
  have hs : ∃ k, ∃ pattern, grants[k]? = some pattern ∧ pathInScope path pattern = true :=
    ⟨i, pattern, hpat, hsc⟩
  refine ⟨Nat.find hs, evaluate_allow_iff.mpr ⟨grants, hgrs, hpa.no_dotdot, ?_, ?_⟩⟩
  · exact Nat.find_spec hs
  · exact fun k hk => Nat.find_min' hs hk

/-- Guard and broker agree where every scope has room. -/
theorem agrees_iff_room {opener : Opener} {verified : VerifiedManifest} {broker : FsBroker}
    {operation : Text} (hprepare : FsBroker.prepare platform opener verified = .ok broker)
    (hoperation : isFilesystemCapability operation = true) :
    Agrees platform verified.manifest broker operation ↔
      ∀ scopes, pathScopes platform verified.manifest operation = .ok scopes →
        ∀ scope ∈ scopes, HasRoom platform scope.pattern := by
  obtain ⟨scopes, hscs, hgrs⟩ := prepare_ok hprepare hoperation
  obtain ⟨patterns, rfl, hok, hno⟩ := pathScopes_ok hscs
  have hid : List.Forall₂ (GrantOf platform)
      (patterns.mapIdx fun j pattern => scopeAt (0 + j) pattern) (broker.grants operation) := by
    simp only [Nat.zero_add]
    exact hgrs
  have hf : ∀ {i : ℕ} {pattern : Text}, patterns[i]? = some pattern →
      ∃ grant, (broker.grants operation).filter (·.grantIndex = i) = [grant] ∧
        grant.grantIndex = i ∧ grant.kind = (scopeAt i pattern).kind ∧
        Retains platform pattern grant := by
    intro i pattern hpat
    obtain ⟨grant, hfi, hgr⟩ := filter_grantIndex hid hpat
    rw [Nat.zero_add] at hfi hgr
    exact ⟨grant, hfi, hgr.grantIndex, hgr.kind,
      retains_of_grant (hok pattern (mem_of_getElem? hpat)) hgr⟩
  have hat : ∀ {i : ℕ} {pattern : Text}, patterns[i]? = some pattern →
      (patterns.mapIdx scopeAt)[i]? = some (scopeAt i pattern) := by
    intro i pattern hpat
    rw [getElem?_mapIdx, hpat]
    rfl
  have hof : ∀ scope ∈ patterns.mapIdx scopeAt, ∃ i pattern, patterns[i]? = some pattern ∧
      scope = scopeAt i pattern := by
    intro scope hsc
    obtain ⟨i, hi, rfl⟩ := mem_mapIdx.mp hsc
    exact ⟨i, patterns[i], getElem?_eq_getElem hi, rfl⟩
  constructor
  · intro hag scopes' hscs' scope hsc
    rw [hscs] at hscs'
    cases hscs'
    obtain ⟨grant, hgr, hin, path, hse, hm, -⟩ := hag.live _ hscs scope hsc
    obtain ⟨i, pattern, hpat, rfl⟩ := hof scope hsc
    obtain ⟨found, hfi, -, -, hre⟩ := hf hpat
    have hme : grant ∈ (broker.grants operation).filter (·.grantIndex = i) :=
      mem_filter.mpr ⟨hgr, decide_eq_true hin⟩
    rw [hfi, mem_singleton] at hme
    rw [hme] at hse
    exact hre.hasRoom hoperation hm hse
  · intro hro
    constructor
    · intro path i ha
      obtain ⟨grants, hgn, -, ⟨pattern, hpat, hm⟩, -⟩ :=
        evaluate_allow_iff.mp ha
      obtain ⟨-, rfl⟩ := (hno grants).mp hgn
      obtain ⟨grant, hfi, hin, hkind, hre⟩ := hf hpat
      obtain ⟨walked, hwa⟩ := hre.walks hoperation hm
      refine ⟨_, scopeAt i pattern, grant, walked, hscs, hat hpat, rfl, hfi, ?_, hkind,
        hwa⟩
      unfold selectedGrant
      rw [← head?_filter, hfi]
      rfl
    · intro scopes' hscs' scope hsc
      rw [hscs] at hscs'
      cases hscs'
      have hhas := hro _ hscs scope hsc
      obtain ⟨i, pattern, hpat, rfl⟩ := hof scope hsc
      obtain ⟨grant, hfi, hin, -, hre⟩ := hf hpat
      obtain ⟨path, hse, hm⟩ := hre.serves hoperation hhas
      have hgr : grant ∈ (broker.grants operation).filter (·.grantIndex = i) := by
        rw [hfi]
        exact mem_singleton_self grant
      have hgn : Guard.Grants verified.manifest operation patterns :=
        (hno patterns).mpr ⟨ne_nil_of_mem (mem_of_getElem? hpat), rfl⟩
      exact ⟨grant, (mem_filter.mp hgr).1, hin, path, hse, hm,
        evaluate_allows hgn ((dispatch_valid_iff hoperation).mp hse.dispatched)
          hpat hm⟩

/-- A manifest that grants reading under one scope. -/
def readManifest (pattern : Text) : VerifiedManifest where
  manifest :=
    { app := [("fs".toList, .object [("read".toList, .array [.string pattern])])] }
  verifiedSha256 := []

/-- A host on which every directory opens. -/
def plainOpener : Opener where
  openAmbientDir _ := .ok 0
  dirMetadata _ := .ok { fileType := .directory, dev := 0 }

def readGrant (anchor : Text) : RetainedGrant where
  grantIndex := 0
  kind := .subtree
  anchor := anchor
  exactLeaf := none
  root := 0
  rootDevice := 0

def readBroker (anchor : Text) : FsBroker where
  preparedDigest := []
  readGrants := [readGrant anchor]
  writeGrants := []

theorem agrees_iff_room_data :
    Agrees .linux (readManifest "/data/**".toList).manifest (readBroker "/data".toList)
      Guard.Capability.fsRead := by
  have hpr : FsBroker.prepare .linux plainOpener (readManifest "/data/**".toList) =
      .ok (readBroker "/data".toList) := by rfl
  refine (agrees_iff_room hpr (by rfl)).mpr ?_
  intro scopes hscs scope hsc
  have ho : scopes = [scopeAt 0 "/data/**".toList] := Except.ok.inj (hscs.symm.trans (by rfl))
  rw [ho, mem_singleton] at hsc
  rw [hsc]
  exact ⟨by decide +kernel, by decide +kernel⟩

/-- The root with its slash doubled is retained, and serves no request. -/
theorem doubled_root_disagrees :
    FsBroker.prepare .linux plainOpener (readManifest "//**".toList) = .ok (readBroker ['/']) ∧
      ¬ Agrees .linux (readManifest "//**".toList).manifest (readBroker ['/'])
        Guard.Capability.fsRead := by
  refine ⟨by rfl, fun hag => ?_⟩
  obtain ⟨grant, hgr, -, path, hse, hm, -⟩ :=
    hag.live [scopeAt 0 "//**".toList] (by rfl) _ mem_cons_self
  obtain rfl : grant = readGrant ['/'] := mem_singleton.mp hgr
  have hre : Retains .linux "//**".toList (readGrant ['/']) :=
    @Retains.subtree _ _ _ ['/'] rfl (.path (ValidPath.slash nofun)) rfl (.inl ⟨rfl, nofun⟩)
  have hro := hre.hasRoom (by rfl) hm hse
  cases hro.1

end Keld.Fs
