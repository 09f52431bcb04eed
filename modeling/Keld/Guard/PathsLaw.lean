/-
# `Keld.Guard.PathsLaw` — which paths and scopes are accepted

A path that is accepted is a root with ordinary names behind it, so it ends in a
separator only where it is the root.  The scopes of a capability are accepted
together: they are its grants, each under its own index and of the kind that its
pattern has, and no two are the same.
-/
import Keld.Lib.Trace
import Keld.Guard.MatcherLaw
import Keld.Guard.Paths
import Keld.Lib.Names

namespace Keld.Guard

open List

variable {platform : Platform}

/-! ## Components -/

variable {component path rest root operation name : Text} {drive : Char} {value : Value}
  {scopes : List PathScope} {grantIndex : ℕ}

theorem validatePortableComponent_ok (h : validatePortableComponent component = .ok ()) :
    component ≠ [] ∧ component ≠ ['.'] ∧ component ≠ ['.', '.'] ∧
      ∀ c ∈ component, c ≠ '\x00' ∧ isSeparator c = false := by
  obtain ⟨hno, h⟩ := bind_unit_ok.mp h
  obtain ⟨hne, hdot, hdo⟩ := of_decide_eq_true (require_ok.mp hno)
  refine ⟨hne, hdot, hdo, ?_⟩
  have hany := require_ok.mp h
  rw [Bool.not_eq_true', any_eq_false] at hany
  intro c hc
  have ho := hany c hc
  rw [Bool.not_eq_true, Bool.or_eq_false_iff] at ho
  exact ⟨of_decide_eq_false ho.1, ho.2⟩

theorem validateFsComponent_portable (h : validateFsComponent platform component = .ok ()) :
    validatePortableComponent component = .ok () := (bind_unit_ok.mp h).1

theorem validateFsComponent_ne_nil (h : validateFsComponent platform component = .ok ()) :
    component ≠ [] :=
  (validatePortableComponent_ok (validateFsComponent_portable h)).1

/-- On Windows a component does not end in white space or a separator. -/
theorem validateFsComponent_last (h : validateFsComponent .windows component = .ok ()) :
    ∃ c ∈ component, isSkipped c = false := by
  obtain ⟨hpo, hwi⟩ := bind_unit_ok.mp h
  obtain ⟨hne, -, -, hch⟩ := validatePortableComponent_ok hpo
  obtain ⟨-, hwi⟩ := bind_unit_ok.mp hwi
  obtain ⟨hfo, hwi⟩ := bind_unit_ok.mp hwi
  obtain ⟨hl, -⟩ := bind_unit_ok.mp hwi
  have hm := getLast_mem hne
  refine ⟨component.getLast hne, hm, ?_⟩
  have hsp : component.getLast hne ≠ ' ' := by
    intro hsp
    refine (of_decide_eq_true (require_ok.mp hl)).2 ?_
    rw [getLast?_eq_some_getLast hne, hsp]
  have ha : isForbiddenOnWindows (component.getLast hne) = false := by
    have hany := require_ok.mp hfo
    rw [Bool.not_eq_true', any_eq_false] at hany
    exact eq_false_of_ne_true (hany _ hm)
  generalize component.getLast hne = c at *
  have hco : ∀ d : Char, 1 ≤ d.val → d.val ≤ 0x1f → c ≠ d := by
    rintro d hlow hhi rfl
    unfold isForbiddenOnWindows at ha
    rw [Bool.or_eq_false_iff] at ha
    have := ha.2
    simp [hlow, hhi] at this
  unfold isSkipped isAsciiWhitespace
  rw [(hch c hm).2]
  simp [hsp, hco '\t' (by decide) (by decide), hco '\n' (by decide) (by decide),
    hco '\x0c' (by decide) (by decide), hco '\r' (by decide) (by decide)]

/-! ## Paths -/

/-- A root of the platform: the slash, or a drive. -/
inductive IsRoot : Platform → Text → Prop
  | linux : IsRoot .linux ['/']
  | mac : IsRoot .mac ['/']
  | windows {drive : Char} : isDrive drive = true → IsRoot .windows [drive, ':', '/']

theorem behindRoot_eq_some :
    behindRoot platform path = some rest ↔ ∃ root, IsRoot platform root ∧ path = root ++ rest := by
  constructor
  · intro h
    unfold behindRoot at h
    split at h
    · split at h
      · rename_i hdr
        cases h
        exact ⟨_, .windows hdr, rfl⟩
      · cases h
    · cases h
    · rename_i hpl
      cases h
      cases platform with
      | windows => exact absurd rfl hpl
      | linux => exact ⟨_, .linux, rfl⟩
      | mac => exact ⟨_, .mac, rfl⟩
    · cases h
  · rintro ⟨root, hro, rfl⟩
    cases hro with
    | linux | mac => rfl
    | windows hdr => exact if_pos hdr

/-- An accepted path: a root, and behind it nothing or names. -/
structure ValidPath (platform : Platform) (path : Text) : Prop where
  chars : ∀ c ∈ path, c ≠ '\x00' ∧ c ≠ '\\'
  spelled : ∃ root rest, IsRoot platform root ∧ path = root ++ rest ∧
    (rest ≠ [] → ∀ name ∈ rest.splitOn '/', validateFsComponent platform name = .ok ())

theorem IsRoot.ne_nil (h : IsRoot platform root) : root ≠ [] := by
  cases h <;> nofun

theorem not_any_iff : (!path.any fun c => c = '\x00' || c = '\\') = true ↔
    ∀ c ∈ path, c ≠ '\x00' ∧ c ≠ '\\' := by
  simp

theorem validateFsPath_ok : validateFsPath platform path = .ok () ↔ ValidPath platform path := by
  unfold validateFsPath
  simp only [bind_unit_ok, orElseError_bind_ok, require_ok, decide_eq_true_eq, not_any_iff,
    behindRoot_eq_some]
  constructor
  · rintro ⟨-, hch, rest, ⟨root, hro, hs⟩, hna⟩
    refine ⟨hch, root, rest, hro, hs, fun hr => ?_⟩
    rw [if_pos hr] at hna
    exact forM_ok.mp hna
  · rintro ⟨hch, root, rest, hro, hs, hna⟩
    refine ⟨?_, hch, rest, ⟨root, hro, hs⟩, ?_⟩
    · rw [hs]
      exact append_ne_nil_of_left_ne_nil hro.ne_nil rest
    · by_cases hr : rest = []
      · rw [if_neg (not_not.mpr hr)]
        rfl
      · rw [if_pos hr]
        exact forM_ok.mpr (hna hr)

/-- A request to a filesystem capability is looked at as a scope is. -/
theorem dispatch_valid_iff (h : isFilesystemCapability operation = true) :
    filesystemDispatchPathIsValid platform operation path = true ↔ ValidPath platform path := by
  have ha : ∀ {rest : Text}, (rest.splitOn '/').all
      (fun name => (validateFsComponent platform name).isOk) = true ↔
        ∀ name ∈ rest.splitOn '/', validateFsComponent platform name = .ok () := by
    intro rest
    rw [all_eq_true]
    refine forall₂_congr fun name _ => ?_
    cases validateFsComponent platform name <;> simp [Except.isOk, Except.toBool]
  unfold filesystemDispatchPathIsValid
  rw [h]
  constructor
  · intro hv
    split at hv
    · cases ‹(!true) = true›
    · split at hv
      · cases hv
      · rename_i hch
        rw [Bool.not_eq_true, Bool.or_eq_false_iff] at hch
        split at hv
        · cases hv
        · rename_i rest hbeh
          obtain ⟨root, hro, hs⟩ := behindRoot_eq_some.mp hbeh
          refine ⟨not_any_iff.mp (by rw [hch.2]; rfl), root, rest, hro, hs, ?_⟩
          intro hr
          rw [Bool.or_eq_true, decide_eq_true_eq] at hv
          exact ha.mp (hv.resolve_left hr)
  · rintro ⟨hch, root, rest, hro, hs, hna⟩
    have hne : path ≠ [] := by
      rw [hs]
      exact append_ne_nil_of_left_ne_nil hro.ne_nil rest
    have hany : (path.any fun c => c = '\x00' || c = '\\') = false := by
      simpa using not_any_iff.mpr hch
    rw [if_neg (by simp), if_neg (by simp [hne, hany]), behindRoot_eq_some.mpr ⟨root, hro, hs⟩]
    rw [Bool.or_eq_true, decide_eq_true_eq]
    exact (Classical.em (rest = [])).imp_right fun hr => ha.mpr (hna hr)

theorem isDrive_utf8Size (h : isDrive drive = true) : drive.utf8Size = 1 := by
  unfold isDrive at h
  rw [Bool.and_eq_true, decide_eq_true_eq, decide_eq_true_eq] at h
  have hlow : drive.val ≤ 'Z'.val := h.2
  exact if_pos (UInt32.le_trans hlow (by decide))

theorem isDrive_plain (h : isDrive drive = true) :
    drive ≠ ':' ∧ drive ≠ '\x00' ∧ drive ≠ '/' ∧ drive ≠ '\\' := by
  refine ⟨?_, ?_, ?_, ?_⟩ <;> rintro rfl <;> cases h

theorem IsRoot.isFsRoot (h : IsRoot platform root) : isFsRoot platform root = true := by
  cases h with
  | linux | mac => rfl
  | @windows drive hdr =>
    unfold Guard.isFsRoot byteLen
    simp only [map_cons, map_nil, sum_cons, sum_nil, isDrive_utf8Size hdr]
    rfl

/-- One more name behind an accepted path. -/
theorem ValidPath.snoc (h : ValidPath platform path) (hro : Guard.isFsRoot platform path = false)
    (hn : validateFsComponent platform name = .ok ()) :
    ValidPath platform (path ++ '/' :: name) := by
  obtain ⟨hch, root, rest, hir, hs, hna⟩ := h
  have hr : rest ≠ [] := by
    rintro rfl
    rw [hs, append_nil, hir.isFsRoot] at hro
    cases hro
  have hpl := (validatePortableComponent_ok (validateFsComponent_portable hn)).2.2.2
  have hsl : '/' ∉ name := fun hm => by cases (hpl '/' hm).2
  refine ⟨?_, root, rest ++ '/' :: name, hir, by rw [hs, append_assoc], ?_⟩
  · intro c hc
    rcases mem_append.mp hc with hc | hc
    · exact hch c hc
    · rcases mem_cons.mp hc with rfl | hc
      · exact ⟨by decide, by decide⟩
      · refine ⟨(hpl c hc).1, ?_⟩
        rintro rfl
        cases (hpl _ hc).2
  · intro _ one ho
    rw [splitOn_append_cons_self, splitOn_eq_singleton hsl] at ho
    rcases mem_snoc.mp ho with ho | rfl
    · exact hna hr one ho
    · exact hn

theorem IsRoot.head (h : IsRoot platform root) :
    ∃ head, root = head ++ ['/'] ∧ '/' ∉ head ∧ head ≠ ['.', '.'] := by
  cases h with
  | linux | mac => exact ⟨[], rfl, by simp, nofun⟩
  | @windows drive hdr =>
    refine ⟨[drive, ':'], rfl, ?_, by simp⟩
    simp [(isDrive_plain hdr).2.2.1.symm]

theorem IsRoot.splitOn {head : Text} (hh : root = head ++ ['/']) (hsl : '/' ∉ head) :
    (root ++ rest).splitOn '/' = head :: rest.splitOn '/' := by
  rw [hh, append_assoc, singleton_append, splitOn_append_cons_self_of_not_mem hsl]

/-- What an accepted path has behind a slash is names. -/
theorem ValidPath.behind {front : Text} (h : ValidPath platform (front ++ '/' :: rest))
    (hr : rest ≠ []) :
    ∀ name ∈ rest.splitOn '/', validateFsComponent platform name = .ok () := by
  obtain ⟨-, root, others, hro, hsl, hna⟩ := h
  obtain ⟨head, hh, hss, -⟩ := hro.head
  obtain ⟨first, between, hfr⟩ := exists_cons_of_ne_nil (splitOn_ne_nil '/' front)
  have hs := congrArg (List.splitOn '/') hsl
  rw [splitOn_append_cons_self, IsRoot.splitOn hh hss, hfr, cons_append] at hs
  have hta : between ++ rest.splitOn '/' = others.splitOn '/' := (List.cons.inj hs).2
  have hoh : others ≠ [] := by
    rintro rfl
    -- then what is behind the slash has one segment, and that is empty
    have hl := congrArg List.length hta
    rw [length_append, splitOn_nil, length_singleton] at hl
    have hpos := length_pos_iff.mpr (splitOn_ne_nil '/' rest)
    have hbe : between = [] := eq_nil_iff_length_eq_zero.mpr (by omega)
    rw [hbe, nil_append, splitOn_nil] at hta
    have hsp : ['/'].intercalate (rest.splitOn '/') = rest := intercalate_splitOn '/'
    rw [hta] at hsp
    exact hr (hsp.symm.trans rfl)
  intro name hn
  exact hna hoh name (hta ▸ mem_append_right between hn)

/-- An accepted path has no `..` in it. -/
theorem ValidPath.no_dotdot (h : ValidPath platform path) :
    ['.', '.'] ∉ path.splitOnP isSeparator := by
  obtain ⟨hch, root, rest, hro, hs, hna⟩ := h
  obtain ⟨head, hh, hsl, hdo⟩ := hro.head
  have hsa : path.splitOnP isSeparator = path.splitOn '/' := by
    rw [splitOn_eq_splitOnP]
    refine splitOnP_congr fun c hc => ?_
    rw [isSeparator, decide_eq_false (hch c hc).2, Bool.or_false]
    rfl
  rw [hsa, hs, IsRoot.splitOn hh hsl, mem_cons, not_or]
  refine ⟨hdo.symm, fun hm => ?_⟩
  by_cases hr : rest = []
  · rw [hr] at hm
    simp at hm
  · have hv := validateFsComponent_portable (hna hr _ hm)
    exact (validatePortableComponent_ok hv).2.2.1 rfl

/-! ## Scopes -/

/-- The root of a glob that is accepted: nothing, a bare drive, or an accepted path. -/
inductive GlobRoot : Platform → Text → Prop
  | nothing {platform : Platform} : platform ≠ .windows → GlobRoot platform []
  | drive {drive : Char} : isDrive drive = true → GlobRoot .windows [drive, ':']
  | path {platform : Platform} {root : Text} : ValidPath platform root → GlobRoot platform root

theorem ValidPath.slash (h : platform ≠ .windows) : ValidPath platform ['/'] := by
  refine ⟨by simp, ['/'], [], ?_, rfl, fun hne => absurd rfl hne⟩
  cases platform with
  | windows => exact absurd rfl h
  | linux => exact .linux
  | mac => exact .mac

theorem not_validPath_slash : ¬ ValidPath .windows ['/'] := by
  rintro ⟨-, root, rest, hro, hs, -⟩
  cases hro
  cases hs

theorem isBareDrive_iff :
    isBareDrive path = true ↔ ∃ drive, isDrive drive = true ∧ path = [drive, ':'] := by
  constructor
  · intro h
    unfold isBareDrive at h
    split at h
    · exact ⟨_, h, rfl⟩
    · cases h
  · rintro ⟨drive, hdr, rfl⟩
    exact hdr

theorem globRoot_of_valid
    (h : ValidPath platform (servicePath platform (if root = [] then ['/'] else root) .subtree)) :
    GlobRoot platform root := by
  by_cases hro : root = []
  · rw [if_pos hro] at h
    subst hro
    refine .nothing ?_
    rintro rfl
    exact not_validPath_slash h
  · rw [if_neg hro] at h
    unfold servicePath at h
    split at h
    · rename_i hb
      obtain ⟨rfl, -, hb⟩ := hb
      obtain ⟨drive, hdr, rfl⟩ := isBareDrive_iff.mp hb
      exact .drive hdr
    · exact .path h

/-- A name behind the root of a glob, unless that ends in its slash already. -/
theorem GlobRoot.child (h : GlobRoot platform root) (hro : isFsRoot platform root = false)
    (hn : validateFsComponent platform name = .ok ()) :
    ValidPath platform (root ++ '/' :: name) := by
  have hpl := (validatePortableComponent_ok (validateFsComponent_portable hn)).2.2.2
  have hsl : '/' ∉ name := fun hm => by cases (hpl '/' hm).2
  have hch : ∀ c ∈ name, c ≠ '\x00' ∧ c ≠ '\\' := by
    intro c hc
    refine ⟨(hpl c hc).1, ?_⟩
    rintro rfl
    cases (hpl _ hc).2
  have hna : ∀ one ∈ name.splitOn '/', validateFsComponent platform one = .ok () := by
    rw [splitOn_eq_singleton hsl]
    intro one ho
    rw [mem_singleton.mp ho]
    exact hn
  cases h with
  | path hv => exact hv.snoc hro hn
  | nothing hpt =>
    obtain ⟨-, root, rest, hir, hs, -⟩ := ValidPath.slash hpt
    refine ⟨?_, ['/'], name, ?_, rfl, fun _ => hna⟩
    · intro c hc
      rcases mem_cons.mp hc with rfl | hc
      · exact ⟨by decide, by decide⟩
      · exact hch c hc
    · cases hir with
      | linux => exact .linux
      | mac => exact .mac
      | windows => cases hs
  | @drive drive hdr =>
    refine ⟨?_, [drive, ':', '/'], name, .windows hdr, rfl, fun _ => hna⟩
    intro c hc
    simp only [cons_append, nil_append, mem_cons] at hc
    rcases hc with rfl | rfl | rfl | hc
    · exact ⟨(isDrive_plain hdr).2.1, (isDrive_plain hdr).2.2.2⟩
    · exact ⟨by decide, by decide⟩
    · exact ⟨by decide, by decide⟩
    · exact hch c hc

/-- What `namesNoDestination` makes of a drive with more behind it. -/
theorem namesNoDestination_drive (h : isDrive drive = true) (tail : Text) :
    namesNoDestination (drive :: ':' :: tail) = (tail.all isSkipped && byteLen tail ≠ 0) := by
  obtain ⟨hco, -, hsl, hba⟩ := isDrive_plain h
  have hcut := @cut_at ':' [drive] (by simp [hco.symm]) tail
  rw [cons_append, nil_append] at hcut
  have hsep : [drive].any isSeparator = false := by simp [isSeparator, hsl, hba]
  have hl : byteLen [drive] = 1 := by simp [byteLen, isDrive_utf8Size h]
  unfold namesNoDestination
  rw [hcut.1, hcut.2]
  dsimp only
  rw [hsep, hl]
  have ha : (tail.all fun c => isSeparator c || isAsciiWhitespace c) = tail.all isSkipped := rfl
  rw [ha]
  cases tail.all isSkipped <;> simp

/-- The root of a glob names a destination, unless it is a drive with its slash. -/
theorem GlobRoot.names_destination (h : GlobRoot platform root)
    (hro : isFsRoot platform root = false) : namesNoDestination root = false := by
  cases h with
  | nothing => rfl
  | drive hdr =>
    rw [namesNoDestination_drive hdr]
    rfl
  | path hv =>
    obtain ⟨-, head, rest, hh, hs, hna⟩ := hv
    have hr : rest ≠ [] := by
      rintro rfl
      rw [hs, append_nil, hh.isFsRoot] at hro
      cases hro
    cases hh with
    | linux | mac =>
      -- a slash comes before any colon
      rw [hs]
      unfold namesNoDestination
      have hta : (['/'] ++ rest).takeWhile (· ≠ ':') = '/' :: rest.takeWhile (· ≠ ':') := by
        simp
      split
      · rfl
      · exact if_pos (by simp [isSeparator])
    | @windows drive hdr =>
      obtain ⟨name, others, hsp⟩ := exists_cons_of_ne_nil (splitOn_ne_nil '/' rest)
      have hn : name ∈ rest.splitOn '/' := hsp ▸ mem_cons_self
      obtain ⟨c, hc, hsk⟩ := validateFsComponent_last (hna hr name hn)
      rw [splitOn_eq_splitOnP] at hn
      have hm := mem_of_mem_splitOnP hn hc
      rw [hs]
      refine (namesNoDestination_drive hdr ('/' :: rest)).trans ?_
      have ha : ('/' :: rest).all isSkipped = false := by
        rw [all_eq_false]
        exact ⟨c, mem_cons_of_mem _ hm, by simp [hsk]⟩
      rw [ha]
      rfl

/-! ## The scopes of a capability -/

/-- What is accepted of a pattern. -/
structure ScopeOk (platform : Platform) (pattern : Text) : Prop where
  valid : ValidPath platform (servicePath platform (scopeShape pattern).1 (scopeShape pattern).2)
  leaf : (scopeShape pattern).2 = .exact → isFsRoot platform (scopeShape pattern).1 = false

/-- The scope that a pattern is, at its place in the manifest. -/
def scopeAt (grantIndex : ℕ) (pattern : Text) : PathScope where
  grantIndex := grantIndex
  pattern := pattern
  kind := (scopeShape pattern).2

theorem asStr_eq_some {text : Text} : value.asStr = some text ↔ value = .string text := by
  cases value <;> simp [Value.asStr]

theorem pathScope_ok {scope : PathScope}
    (h : pathScope platform scopes grantIndex value = .ok scope) :
    ∃ pattern, value = .string pattern ∧ scope = scopeAt grantIndex pattern ∧
      ScopeOk platform pattern := by
  obtain ⟨pattern, hpat, h⟩ := bind_ok.mp h
  refine ⟨pattern, asStr_eq_some.mp (orElseError_ok.mp hpat), ?_⟩
  split at h
  · cases h
  · obtain ⟨-, h⟩ := bind_unit_ok.mp h
    obtain ⟨hv, h⟩ := bind_unit_ok.mp h
    obtain ⟨hle, h⟩ := bind_unit_ok.mp h
    cases h
    refine ⟨rfl, validateFsPath_ok.mp (mapError_ok.mp hv), fun hex => ?_⟩
    have hnot := require_ok.mp hle
    rw [hex] at hnot
    simpa using hnot

theorem pathScopesFrom_ok {before out : List PathScope} {values : List Value}
    (h : pathScopesFrom platform before grantIndex values = .ok out) :
    ∃ patterns : List Text, values = patterns.map .string ∧
      out = before ++ patterns.mapIdx (fun i pattern => scopeAt (grantIndex + i) pattern) ∧
      ∀ pattern ∈ patterns, ScopeOk platform pattern := by
  induction values generalizing before grantIndex with
  | nil =>
    cases h
    exact ⟨[], rfl, by simp, by simp⟩
  | cons value rest ih =>
    obtain ⟨scope, hsc, h⟩ := bind_ok.mp h
    obtain ⟨pattern, rfl, rfl, hok⟩ := pathScope_ok hsc
    obtain ⟨patterns, rfl, rfl, ha⟩ := ih h
    refine ⟨pattern :: patterns, rfl, ?_, forall_mem_cons.mpr ⟨hok, ha⟩⟩
    rw [mapIdx_cons, append_assoc, singleton_append]
    simp only [Nat.add_zero, Nat.add_assoc, Nat.add_comm 1]

/-- The scopes that are accepted are the grants of the capability, in their order. -/
theorem pathScopes_ok {manifest : PermissionsManifest}
    (h : pathScopes platform manifest operation = .ok scopes) :
    ∃ patterns : List Text, scopes = patterns.mapIdx scopeAt ∧
      (∀ pattern ∈ patterns, ScopeOk platform pattern) ∧
      ∀ grants, Grants manifest operation grants ↔ grants ≠ [] ∧ grants = patterns := by
  obtain ⟨-, h⟩ := bind_unit_ok.mp h
  cases hno : grantNode manifest operation with
  | none =>
    rw [hno] at h
    cases h
    refine ⟨[], rfl, by simp, fun grants => ?_⟩
    constructor
    · rintro ⟨-, hgrs⟩
      rw [hno] at hgrs
      cases hgrs
    · rintro ⟨hne, rfl⟩
      exact absurd rfl hne
  | some node =>
    rw [hno] at h
    obtain ⟨values, hva, h⟩ := bind_ok.mp h
    obtain ⟨-, h⟩ := bind_unit_ok.mp h
    obtain ⟨patterns, rfl, hscs, ha⟩ := pathScopesFrom_ok h
    refine ⟨patterns, ?_, ha, fun grants => ?_⟩
    · rw [hscs, nil_append]
      simp only [Nat.zero_add]
    · rw [asArray_eq_some.mp (orElseError_ok.mp hva)] at hno
      unfold Grants
      rw [hno]
      refine and_congr_right fun _ => ?_
      simp only [Option.some.injEq, Value.array.injEq]
      rw [List.map_inj_right (fun _ _ h => Value.string.inj h)]
      exact eq_comm

end Keld.Guard
