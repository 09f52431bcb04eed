/-
# `Keld.Fs.Confinement` — the walk stays below its root

Whatever changes between two calls, each directory on the stack was opened as a
child of the one below it, down to the root that was retained: going back can
only return to such a directory, and a link can only add components.  So the
result was found in a directory that was reached from the root.

Where nothing changes, the walk resolves its request: a round takes the
resolution of what is pending in the directory on top, which is the resolution
of the whole request from the root, to that of what it leaves.  The resolution
disregards empty segments, as the walk does.
-/
import Keld.Lib.Trace
import Keld.Fs.Rounds

namespace Keld.Fs

open List

open Guard (Text Platform PathScopeKind)

/-! ## The stack, under any interference -/

namespace Walker

variable (w : Walker)

/-- Before round `k`, each directory was opened under a name of the next, the last is the root. -/
inductive Retained (rounds : ℕ → Round) (k : ℕ) : List Object → Prop
  | root : Retained rounds k [w.grant.root]
  | enter {dir child : Object} {name : Text} {below : List Object} {i : ℕ} :
      Retained rounds k (dir :: below) → i < k →
      (rounds i).act.world.entry dir name = some child →
      ((rounds i).act.world.metadata child).fileType = .directory →
      ((rounds i).opened.world.metadata child).dev = w.grant.rootDevice →
      Retained rounds k (child :: dir :: below)

/-- A link is followed under a subtree grant only, and to a relative target. -/
def Follows : Move → Prop
  | .follow _ target => w.grant.kind = .subtree ∧
      ∃ text, target = some text ∧ isRooted w.platform text = false
  | _ => True

def isFollow : Move → Bool
  | .follow .. => true
  | _ => false

/-- What holds of a walk before round `i`, behind its moves. -/
structure Inside (rounds : ℕ → Round) (i : ℕ) (moves : List Move) (s : WalkState) : Prop where
  components : s.components = i
  components_le : i ≤ maxFsComponents
  links : s.links = moves.countP isFollow
  links_le : s.links ≤ maxFsSymlinkExpansions
  retained : w.Retained rounds i s.directories
  follows : ∀ move ∈ moves, w.Follows move

/-- How a result was found in the directory on top of the stack. -/
inductive Finds (r : Round) (current : Object) : WalkResult → Prop
  | file {file : Object} {name : Text} : r.act.world.entry current name = some file →
      (r.act.world.metadata file).fileType ≠ .symlink →
      (r.opened.world.metadata file).fileType = .file →
      (r.opened.world.metadata file).dev = w.grant.rootDevice → Finds r current (.file file)
  | missing {name : Text} : w.purpose = .write →
      r.probe.symlinkMetadata current name = .error .notFound → Finds r current (.missing current name)

variable {w} {rounds : ℕ → Round}

variable {k i : ℕ} {stack : List Object} {moves : List Move} {s begins : WalkState} {first : Moment}
  {result : WalkResult}

theorem Retained.mono {n : ℕ} (h : w.Retained rounds k stack) (hkn : k ≤ n) :
    w.Retained rounds n stack := by
  induction h with
  | root => exact .root
  | enter _ hi he hty hdev ih =>
    exact .enter ih (Nat.lt_of_lt_of_le hi hkn) he hty hdev

theorem Retained.bottom (h : w.Retained rounds k stack) : stack.getLast? = some w.grant.root := by
  induction h with
  | root => rfl
  | enter _ _ _ _ _ ih => rw [getLast?_cons_cons, ih]

theorem Retained.tail (h : w.Retained rounds k stack) (hl : stack.length ≠ 1) :
    w.Retained rounds k stack.tail := by
  cases h with
  | root => exact absurd rfl hl
  | enter hbe => exact hbe

/-- One round keeps the walk inside. -/
theorem Inside.next {move : Move} {s' : WalkState} (h : w.Inside rounds i moves s)
    (hc : s.components + 1 ≤ maxFsComponents) (hn : w.Next (rounds i) s move s') :
    w.Inside rounds (i + 1) (moves ++ [move]) s' := by
  have ha : ∀ {move : Move}, w.Follows move → ∀ other ∈ moves ++ [move], w.Follows other := by
    intro move hmo other ho
    rcases mem_snoc.mp ho with ho | rfl
    · exact h.follows other ho
    · exact hmo
  have hret := h.retained.mono (Nat.le_succ i)
  have hb : i + 1 ≤ maxFsComponents := h.components ▸ hc
  have hli : ∀ {move : Move}, isFollow move = false →
      s.links = (moves ++ [move]).countP isFollow := by
    intro move hmo
    rw [countP_append, ← h.links]
    simp [hmo]
  cases hn with
  | stay =>
    exact
      { components := congrArg (· + 1) h.components
        components_le := hb
        links := hli rfl
        links_le := h.links_le
        retained := hret
        follows := ha trivial }
  | up _ hl =>
    exact
      { components := congrArg (· + 1) h.components
        components_le := hb
        links := hli rfl
        links_le := h.links_le
        retained := hret.tail hl
        follows := ha trivial }
  | follow _ _ _ hk hlink _ _ _ hro =>
    exact
      { components := congrArg (· + 1) h.components
        components_le := hb
        links := by
          rw [countP_append, ← h.links]
          rfl
        links_le := hlink
        retained := hret
        follows := ha ⟨hk, _, rfl, hro⟩ }
  | enter _ _ hdi he hty hdev =>
    exact
      { components := congrArg (· + 1) h.components
        components_le := hb
        links := hli rfl
        links_le := h.links_le
        retained := by
          rw [hdi] at hret ⊢
          exact .enter hret (Nat.lt_succ_self i) he hty hdev
        follows := ha trivial }

theorem start_ok (h : w.start first = .ok begins) :
    walkPlan w.grant w.requested = .ok begins.pending ∧ begins.directories = [w.grant.root] ∧
      begins.components = 0 ∧ begins.links = 0 := by
  obtain ⟨pending, hp, h⟩ := bind_ok.mp h
  obtain ⟨root, hro, h⟩ := bind_ok.mp h
  cases h
  rw [Moment.tryClone_ok (Moment.finishReadIo_ok hro)]
  exact ⟨hp, rfl, rfl, rfl⟩

/-- A walk is inside at every state it comes to. -/
theorem Reached.inside (hs : w.start first = .ok begins) (h : w.Reached rounds begins i moves s) :
    w.Inside rounds i moves s := by
  induction h with
  | start =>
    obtain ⟨-, hdi, hcm, hli⟩ := start_ok hs
    exact
      { components := hcm
        components_le := Nat.zero_le _
        links := hli
        links_le := by rw [hli]; exact Nat.zero_le _
        retained := by rw [hdi]; exact .root
        follows := nofun }
  | next _ htu ih =>
    obtain ⟨hc, hn⟩ := turn_ok htu
    exact ih.next hc hn

theorem Done.finds {r : Round} (h : w.Done r s result) :
    ∃ current below, s.directories = current :: below ∧ w.Finds r current result := by
  cases h with
  | file _ _ hdi he hno hty hdev =>
    exact ⟨_, _, hdi, .file he hno hty hdev⟩
  | missing _ hdi hw hpr => exact ⟨_, _, hdi, .missing hw hpr⟩

theorem walk_ends (first : Moment) : ∃ result, w.walk first rounds = some result := by
  unfold walk
  cases hs : w.start first with
  | error error => exact ⟨_, rfl⟩
  | ok begins =>
    have hc := (start_ok hs).2.2.1
    exact walkFrom_ends (by omega) (by omega)

/-- A result is what the last round of the walk is done with. -/
theorem walk_done (h : w.walk first rounds = some (.ok result)) :
    ∃ begins i moves s, w.start first = .ok begins ∧ w.Reached rounds begins i moves s ∧
      w.Done (rounds i) s result := by
  unfold walk at h
  cases hs : w.start first with
  | error error =>
    rw [hs] at h
    cases h
  | ok begins =>
    rw [hs] at h
    obtain ⟨i, moves, s, hrch, htu⟩ := walkFrom_done .start h
    exact ⟨begins, i, moves, s, rfl, hrch, (turn_ok htu).2⟩

end Walker

/-! ## A tree that does not change -/

/-- What ordinary resolution sees of an object. -/
def World.standing (world : World) (object : Object) : Standing (Option Text) :=
  match (world.metadata object).fileType with
  | .directory => .directory
  | .file => .file
  | .symlink => .link (world.target object)
  | .other => .other

theorem World.standing_directory {world : World} {object : Object} :
    world.standing object = .directory ↔ (world.metadata object).fileType = .directory := by
  unfold standing
  cases (world.metadata object).fileType <;> simp

/-- A world in which a directory is held by one directory, of smaller rank. -/
structure Tree where
  world : World
  parent : Object → Object
  rank : Object → ℕ
  parent_entry : ∀ {dir name child}, world.entry dir name = some child →
    (world.metadata child).fileType = .directory → parent child = dir
  rank_entry : ∀ {dir name child}, world.entry dir name = some child →
    (world.metadata child).fileType = .directory → rank dir < rank child

def Tree.fileTree (tree : Tree) : FileTree Object Text (Option Text) where
  standing := tree.world.standing
  entry := tree.world.entry
  parent := tree.parent
  rank := tree.rank
  parent_entry hentry hstanding :=
    tree.parent_entry hentry (World.standing_directory.mp hstanding)
  rank_entry hentry hstanding := tree.rank_entry hentry (World.standing_directory.mp hstanding)

/-- Every call finds the same world. -/
def Unchanging (rounds : ℕ → Round) (world : World) : Prop :=
  ∀ i, (rounds i).probe.world = world ∧ (rounds i).act.world = world ∧
    (rounds i).opened.world = world

/-- The path that a text spells, its empty segments disregarded. -/
def pathOf (isBreak : Char → Bool) (text : Text) : List PendingComponent :=
  (namesBetween isBreak text).map segmentOf

/-- The target of a link, its empty segments disregarded. -/
def readNames (platform : Platform) : Reading Text (Option Text) := fun target =>
  target.map fun text => (isRooted platform text, pathOf (linkBreak platform) text)

/-- What a component that is still pending reads as. -/
def plain : PendingComponent → PendingComponent
  | .normal name => segmentOf name
  | component => component

theorem plain_segmentOf (name : Text) : plain (segmentOf name) = segmentOf name := by
  unfold segmentOf
  split
  · rfl
  · split
    · rfl
    · rename_i hc hpar
      exact (if_neg hc).trans (if_neg hpar)

theorem map_plain_pathOf (isBreak : Char → Bool) (text : Text) :
    (pathOf isBreak text).map plain = pathOf isBreak text := by
  unfold pathOf
  rw [map_map]
  exact map_congr_left fun name _ => plain_segmentOf name

namespace Walker

variable {w : Walker} {rounds : ℕ → Round} {tree : Tree}

theorem Retained.chain (hs : Unchanging rounds tree.world) {k : ℕ} {stack : List Object}
    (h : w.Retained rounds k stack) : tree.fileTree.Chain w.grant.root stack := by
  induction h with
  | root => exact .root
  | enter _ _ he hty _ ih =>
    rw [(hs _).2.1] at he hty
    exact .enter ih he (World.standing_directory.mpr hty)

/-- Where what is pending leads, from the directory on top. -/
def Leads (w : Walker) (tree : Tree) (s : WalkState) (out : Object) : Prop :=
  ∃ current below, s.directories = current :: below ∧
    tree.fileTree.Resolves (readNames w.platform) w.grant.root current (s.pending.map plain) out

variable {r : Round} {s : WalkState} {out file : Object} {first : Moment}

/-- What a round leaves leads where the state before it did. -/
theorem Next.leads {s' : WalkState} {move : Move} (hwo : r.act.world = tree.world)
    (hch : tree.fileTree.Chain w.grant.root s.directories) (h : w.Next r s move s')
    (hle : w.Leads tree s' out) : w.Leads tree s out := by
  obtain ⟨top, rest, htop, hre⟩ := hle
  cases h with
  | stay hp =>
    refine ⟨top, rest, htop, ?_⟩
    rw [hp]
    exact .current hre
  | up hp hl =>
    cases hdi : s.directories with
    | nil =>
      rw [hdi] at htop
      cases htop
    | cons current below =>
      rw [hdi] at htop
      obtain rfl : below = top :: rest := htop
      rw [hdi] at hch
      obtain ⟨hne, hpar, -⟩ := hch.up
      refine ⟨current, _, hdi, ?_⟩
      rw [hp]
      exact .parent hne (hpar.symm ▸ hre)
  | @follow name text pending _ link _ hp hv hdi _ _ he hli htgt hrooted =>
    refine ⟨top, rest, htop, ?_⟩
    rw [hdi] at htop
    cases htop
    rw [hwo] at he hli htgt
    have hst : tree.fileTree.standing link = .link (some text) := by
      show tree.world.standing link = _
      rw [World.standing, hli, ← htgt]
    have hr : readNames w.platform (some text) =
        some (false, pathOf (linkBreak w.platform) text) := by
      rw [← hrooted]
      rfl
    rw [hp, map_cons, plain, segmentOf_valid hv]
    refine .follow he hst hr ?_
    rw [← map_plain_pathOf, ← map_append]
    exact hre
  | enter hp hv hdi he hty _ =>
    cases htop
    refine ⟨_, _, hdi, ?_⟩
    rw [hwo] at he hty
    rw [hp, map_cons, plain, segmentOf_valid hv]
    exact .enter he (World.standing_directory.mpr hty) hre

theorem Reached.leads {begins : WalkState} {i : ℕ} {moves : List Move}
    (hs : Unchanging rounds tree.world) (hst : w.start first = .ok begins)
    (h : w.Reached rounds begins i moves s) (hle : w.Leads tree s out) :
    w.Leads tree begins out := by
  induction h with
  | start => exact hle
  | next hrch htu ih =>
    have hch := (hrch.inside hst).retained.chain hs
    exact ih (Next.leads (hs _).2.1 hch (turn_ok htu).2 hle)

/-- The file that a walk is done with is where what was pending leads. -/
theorem Done.leads (ha : r.act.world = tree.world) (hop : r.opened.world = tree.world)
    (h : w.Done r s (.file file)) :
    w.Leads tree s file := by
  cases h with
  | file hp hv hdi he _ hty _ =>
    rw [ha] at he
    rw [hop] at hty
    refine ⟨_, _, hdi, ?_⟩
    rw [hp, map_cons, plain, segmentOf_valid hv]
    refine .last he (.inl ?_)
    show tree.world.standing _ = _
    rw [World.standing, hty]

/-! ## The walk -/

/-- The file that a walk over an unchanging tree returns is the one its request resolves to. -/
theorem walk_resolves (hsa : Unchanging rounds tree.world)
    (h : w.walk first rounds = some (.ok (.file file))) :
    ∃ relative, relativeRequest w.grant w.requested = .ok relative ∧
      tree.fileTree.Resolves (readNames w.platform) w.grant.root w.grant.root
        (pathOf (· == '/') relative) file := by
  obtain ⟨begins, i, moves, s, hs, hrch, hd⟩ := walk_done h
  obtain ⟨hp, hdi, -, -⟩ := start_ok hs
  obtain ⟨relative, hrela, hp⟩ := bind_ok.mp hp
  obtain ⟨-, hp⟩ := bind_unit_ok.mp hp
  have hpe : (namesBetween (· == '/') relative).map Segment.normal = begins.pending :=
    Except.ok.inj hp
  have hle := hrch.leads hsa hs (hd.leads (hsa i).2.1 (hsa i).2.2)
  obtain ⟨current, below, hst, hre⟩ := hle
  rw [hdi] at hst
  cases hst
  rw [← hpe, map_map] at hre
  exact ⟨relative, hrela, hre⟩

/-- The walk ends within its limits and stays inside its root, whatever it finds; what it returns
was found in a directory on its stack, and over an unchanging tree is what its request names. -/
theorem walk_confined (w : Walker) (first : Moment) (rounds : ℕ → Round) :
    (∃ result, w.walk first rounds = some result) ∧
    (∀ begins, w.start first = .ok begins → ∀ i moves s, w.Reached rounds begins i moves s →
      w.Inside rounds i moves s) ∧
    (∀ result, w.walk first rounds = some (.ok result) →
      ∃ begins i moves s current below, w.start first = .ok begins ∧
        w.Reached rounds begins i moves s ∧ s.directories = current :: below ∧
        w.Retained rounds i (current :: below) ∧
        (current :: below).getLast? = some w.grant.root ∧ w.Finds (rounds i) current result) ∧
    (∀ (tree : Tree) (file : Object), Unchanging rounds tree.world →
      w.walk first rounds = some (.ok (.file file)) →
      ∃ relative, relativeRequest w.grant w.requested = .ok relative ∧
        ∀ out, tree.fileTree.Resolves (readNames w.platform) w.grant.root w.grant.root
          (pathOf (· == '/') relative) out ↔ out = file) := by
  refine ⟨walk_ends first, fun begins hs i moves s h => h.inside hs, ?_, ?_⟩
  · intro result h
    obtain ⟨begins, i, moves, s, hs, hrch, hd⟩ := walk_done h
    obtain ⟨current, below, hst, hfi⟩ := hd.finds
    have hret := (hrch.inside hs).retained
    rw [hst] at hret
    exact ⟨begins, i, moves, s, current, below, hs, hrch, hst, hret,
      hret.bottom, hfi⟩
  · intro tree file hsa h
    obtain ⟨relative, hrela, hre⟩ := walk_resolves hsa h
    refine ⟨relative, hrela, fun out => ⟨fun ho => ho.unique hre, ?_⟩⟩
    rintro rfl
    exact hre

end Walker

/-- A root that holds a file `f` and a link `l`. -/
def linkedTree (target : Text) : Tree where
  world :=
    { entry dir name := if dir ≠ 0 then none else if name = ['l'] then some 1
        else if name = ['f'] then some 2 else none
      metadata object :=
        { fileType := if object = 0 then .directory else if object = 1 then .symlink else .file
          dev := 0 }
      target object := if object = 1 then some target else none }
  parent _ := 0
  rank object := if object = 0 then 0 else 1
  parent_entry {dir name child} hentry htype := by
    dsimp only at hentry htype
    split at hentry
    · cases hentry
    · rename_i hdir
      exact (not_not.mp hdir).symm
  rank_entry {dir name child} hentry htype := by
    dsimp only at hentry htype
    split at hentry
    · cases hentry
    · split at hentry
      · cases hentry
        cases htype
      · split at hentry
        · cases hentry
          cases htype
        · cases hentry

def linkWalker : Walker where
  platform := .linux
  grant :=
    { grantIndex := 0
      kind := .subtree
      anchor := "/r".toList
      exactLeaf := none
      root := 0
      rootDevice := 0 }
  requested := "/r/l".toList
  purpose := .read

/-- A call that finds the tree. -/
def quietMoment (tree : Tree) : Moment where
  world := tree.world

def quietRound (tree : Tree) : Round where
  top := quietMoment tree
  probe := quietMoment tree
  act := quietMoment tree
  opened := quietMoment tree

theorem walk_confined_link :
    (linkedTree ['f']).fileTree.Resolves (readNames .linux) 0 0 (pathOf (· == '/') ['l']) 2 := by
  obtain ⟨-, -, -, htr⟩ :=
    Walker.walk_confined linkWalker (quietMoment (linkedTree ['f']))
      fun _ => quietRound (linkedTree ['f'])
  obtain ⟨relative, hrela, hre⟩ :=
    htr (linkedTree ['f']) 2 (fun _ => ⟨rfl, rfl, rfl⟩) (by rfl)
  have hl : relative = ['l'] := Except.ok.inj (hrela.symm.trans (by rfl))
  subst hl
  exact (hre 2).mpr rfl

/-- The target of a link as a path name: a separator at its end asks for a directory. -/
def readPathname (platform : Platform) : Reading Text (Option Text) := fun target =>
  target.bind fun text =>
    if text = [] then none
    else some (isRooted platform text, pathOf (linkBreak platform) text ++
      if text.getLast?.any (linkBreak platform) then [.current] else [])

/-- A link whose target ends in a separator names no file, and the walk returns one. -/
theorem trailing_separator_names_no_file :
    ¬ ∀ (w : Walker) (first : Moment) (rounds : ℕ → Round) (tree : Tree) (file : Object),
      Unchanging rounds tree.world → w.walk first rounds = some (.ok (.file file)) →
      ∃ relative, relativeRequest w.grant w.requested = .ok relative ∧
        tree.fileTree.Resolves (readPathname w.platform) w.grant.root w.grant.root
          (pathOf (· == '/') relative) file := by
  intro h
  obtain ⟨relative, hrela, hrs⟩ :=
    h linkWalker (quietMoment (linkedTree ['f', '/'])) (fun _ => quietRound (linkedTree ['f', '/']))
      (linkedTree ['f', '/']) 2 (fun _ => ⟨rfl, rfl, rfl⟩) (by rfl)
  have hl : relative = ['l'] := Except.ok.inj (hrela.symm.trans (by rfl))
  subst hl
  have hpa : pathOf (· == '/') ['l'] = [.normal ['l']] := by rfl
  rw [hpa] at hrs
  cases hrs with
  | enter he hst _ =>
    cases he
    cases hst
  | last he hst =>
    cases he
  | follow he hst hre hr =>
    cases he
    cases hst
    cases hre
    cases hr with
    | enter he hst _ | follow he hst _ _ =>
      cases he
      cases hst

end Keld.Fs
