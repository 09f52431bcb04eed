/-
# `Keld.Strict.Sandbox` — what the operations put together

Every operation is a mount, a directory that is made, or nothing to the tree
(`Operation.effect`).  The table of a strict command (`table_operations`) is the
fresh file systems, the program and the launcher, then what is bound for the
role, and last the role root.

The names of an ancestor are the first names of its path (`names_of_ancestor`):
a path that is cut between two separators loses names at its end only.
-/
import Keld.Strict.Bubblewrap
import Mathlib.Data.List.Infix

namespace Keld.Strict

open List

/-! ## Names -/

theorem slash_notMem_splitOn {path : OsString} : ∀ part ∈ path.splitOn slash, slash ∉ part := by
  induction path with
  | nil =>
    intro part hp
    rw [splitOn_nil, mem_singleton] at hp
    rw [hp]
    exact not_mem_nil
  | cons byte path ih =>
    intro part hp
    rw [splitOn_cons_eq_if_modifyHead] at hp
    by_cases hby : (byte == slash) = true
    · rw [if_pos hby] at hp
      rcases mem_cons.mp hp with rfl | hp
      · exact not_mem_nil
      · exact ih part hp
    · rw [if_neg hby] at hp
      rcases hs : path.splitOn slash with _ | ⟨first, others⟩
      · exact absurd hs (splitOn_ne_nil _ _)
      · rw [hs] at hp ih
        rcases mem_cons.mp hp with rfl | hp
        · rw [mem_cons, not_or]
          exact ⟨fun h => hby (beq_iff_eq.mpr h.symm), ih first (mem_cons_self ..)⟩
        · exact ih part (mem_cons_of_mem _ hp)

theorem splitOn_joined : ∀ {parts : List OsString}, parts ≠ [] →
    (∀ part ∈ parts, slash ∉ part) → (joined parts).splitOn slash = [] :: parts := by
  intro parts hne hpa
  have hr : ∀ {parts : List OsString}, (∀ part ∈ parts, slash ∉ part) → ∀ part, slash ∉ part →
        (part ++ parts.flatMap (slash :: ·)).splitOn slash = part :: parts := by
    intro parts
    induction parts with
    | nil =>
      intro _ part hp
      rw [flatMap_nil, append_nil]
      exact splitOnP_eq_singleton fun byte hby =>
        beq_eq_false_iff_ne.mpr (ne_of_mem_of_not_mem hby hp)
    | cons next parts ih =>
      intro hpa part hp
      rw [flatMap_cons, cons_append, splitOn_eq_splitOnP, splitOnP_append_cons_of_forall_mem
          (fun byte hby => beq_eq_false_iff_ne.mpr (ne_of_mem_of_not_mem hby hp)) slash
          (beq_self_eq_true slash), ← splitOn_eq_splitOnP,
        ih (fun part hp => hpa part (mem_cons_of_mem _ hp)) next (hpa next (mem_cons_self ..))]
  unfold joined
  rw [if_neg hne]
  exact hr hpa [] not_mem_nil

theorem component_empty : component [] = none := by decide

theorem splitOn_slash (body : OsString) :
    (slash :: body).splitOn slash = [] :: body.splitOn slash := by
  rw [splitOn_cons_eq_if_modifyHead]
  exact if_pos (beq_self_eq_true slash)

theorem components_of_slash {body : OsString} :
    components (slash :: body) = .rootDir :: (body.splitOn slash).filterMap component := by
  unfold components
  rw [splitOn_slash, filterMap_cons_none component_empty]
  exact if_pos rfl

theorem components_joined {parts : List OsString} (h : ∀ part ∈ parts, slash ∉ part) :
    components (joined parts) = .rootDir :: parts.filterMap component := by
  by_cases hne : parts = []
  · subst hne
    decide
  · have hh : (joined parts).head? = some slash := by
      obtain ⟨part, rest, rfl⟩ := exists_cons_of_ne_nil hne
      rfl
    unfold components
    rw [splitOn_joined hne h, filterMap_cons_none component_empty]
    exact if_pos hh

theorem component_name (name : PathName) : component name.val = some (.normal name) := by
  unfold component
  rw [dif_pos name.property]

theorem slash_notMem_name (name : PathName) : slash ∉ name.val := by
  have hn := name.property
  unfold isName at hn
  simp only [Bool.and_eq_true, Bool.not_eq_true', contains_eq_mem, decide_eq_false_iff_not] at hn
  exact hn.2

theorem namesOf_bytes (path : AbsPath) : namesOf path.bytes = path := by
  unfold namesOf AbsPath.bytes
  rw [components_joined fun part hp => by
    obtain ⟨name, -, rfl⟩ := mem_map.mp hp
    exact slash_notMem_name name]
  induction path with
  | nil => rfl
  | cons name path ih =>
    rw [map_cons, filterMap_cons_some (component_name name)]
    exact congrArg (name :: ·) ih

theorem head_bytes (path : AbsPath) : path.bytes.head? = some slash := by
  cases path with
  | nil | cons => rfl

/-- The names of an ancestor are the first names of the path. -/
theorem names_of_ancestor {path ancestor : OsString} (hro : path.head? = some slash)
    (h : ancestor ∈ ancestors path) : namesOf ancestor <+: namesOf path := by
  obtain ⟨body, rfl⟩ : ∃ body, path = slash :: body := by
    cases path with
    | nil => cases hro
    | cons byte body => exact ⟨body, by cases hro; rfl⟩
  obtain ⟨parts, hpa, rfl⟩ := mem_map.mp h
  have hin := mem_filter.mp (mem_reverse.mp (mem_of_mem_drop hpa))
  have hfr : parts <+: body.splitOn slash := by
    have hm := (mem_inits _ _).mp hin.1
    rwa [splitOn_slash, drop_succ_cons, drop_zero] at hm
  unfold namesOf
  rw [components_joined fun part hp => slash_notMem_splitOn part (hfr.mem hp), components_of_slash]
  exact List.IsPrefix.filterMap _ ((prefix_cons_inj _).mpr (hfr.filterMap _))

/-! ## The tree -/

/-- What is mounted: something new, or a path of the host. -/
inductive Content
  | fresh
  | host (source : AbsPath) (writable : Bool)
deriving DecidableEq

/-- Everything but a directory is a leaf. -/
def leaf (host : Host) : Content → Bool
  | .fresh => false
  | .host source _ =>
    match host.metadata source with
    | .ok found => found.kind != .directory
    | .error _ => true

abbrev Effect := Mount.Op PathName Content

/-- What an operation does to the tree. -/
def Operation.effect : Operation → Option Effect
  | .unary .proc path => some (.mount ⟨namesOf path, .fresh⟩)
  | .unary .dev path => some (.mount ⟨namesOf path, .fresh⟩)
  | .unary .tmpfs path => some (.mount ⟨namesOf path, .fresh⟩)
  | .unary .dir path => some (.directory (namesOf path))
  | .binary .roBind source path => some (.mount ⟨namesOf path, .host (namesOf source) false⟩)
  | .binary .bind source path => some (.mount ⟨namesOf path, .host (namesOf source) true⟩)
  | _ => none

def effects (ops : List Operation) : List Effect := ops.filterMap Operation.effect

/-- The table of mounts that the operations leave. -/
def table (ops : List Operation) : List (Mount PathName Content) :=
  (effects ops).flatMap Mount.Op.mounts

/-- The operations that every command starts with. -/
def groundEffects (program launcher : AbsPath) : List Effect :=
  [.mount ⟨fixed "/proc", .fresh⟩, .mount ⟨fixed "/dev", .fresh⟩, .mount ⟨fixed "/tmp", .fresh⟩,
    .mount ⟨landlockCanaryRoot, .fresh⟩, .directory (fixed "/runtime"),
    .mount ⟨sandboxProgram, .host program false⟩, .mount ⟨sandboxLauncher, .host launcher false⟩]

/-- What is bound for the role. -/
def bindings (runtimeMounts : List LinuxReadonlyMount) (sockets : List LinuxSocketMount) :
    List (Mount PathName Content) :=
  (runtimeMounts.map fun mount => ⟨namesOf mount.destination, .host mount.source false⟩) ++
    sockets.map fun socket => ⟨socket.destination, .host socket.source false⟩

def roleRootMount (roleRoot : AbsPath) : Mount PathName Content :=
  ⟨sandboxRoleRoot, .host roleRoot true⟩

variable {profile : LinuxStrictProfile} {program : AbsPath} {sockets : List LinuxSocketMount}
  {environment : List (OsString × OsString)}

theorem effects_ground (profile : LinuxStrictProfile) (program : AbsPath) : effects (Flag.all.map .flag ++
      [.unary .hostname (opt "keld"), .unary .proc (opt "/proc"), .unary .dev (opt "/dev"),
        .unary .tmpfs (opt "/tmp"), .unary .tmpfs landlockCanaryRoot.bytes,
        .unary .dir (opt "/runtime"), .binary .roBind program.bytes sandboxProgram.bytes,
        .binary .roBind profile.launcher.bytes sandboxLauncher.bytes]) =
    groundEffects program profile.launcher := by
  have hfl : effects (Flag.all.map .flag) = [] := rfl
  unfold effects at hfl ⊢
  rw [filterMap_append, hfl, nil_append]
  simp only [filterMap_cons, filterMap_nil, Operation.effect, namesOf_bytes]
  rfl

theorem effects_operations : effects (operations profile program sockets environment) =
    (groundEffects program profile.launcher ++
        (directories profile.runtimeMounts sockets).map fun path => .directory (namesOf path)) ++
      ((bindings profile.runtimeMounts sockets).map .mount ++
        [.mount (roleRootMount profile.roleRoot)]) := by
  have hen : effects (environment.map fun entry => .binary .setenv entry.1 entry.2) = [] :=
    filterMap_eq_nil_iff.mpr fun op hop => by
      obtain ⟨entry, -, rfl⟩ := mem_map.mp hop
      rfl
  have hgr := effects_ground profile program
  unfold effects operations at *
  rw [filterMap_append, filterMap_append, filterMap_append, filterMap_append,
    filterMap_append, hgr, hen]
  simp [bindings, roleRootMount, Operation.effect, filterMap_map, Function.comp_def, namesOf_bytes]

theorem table_operations : table (operations profile program sockets environment) =
    (groundEffects program profile.launcher).flatMap Mount.Op.mounts ++
      (bindings profile.runtimeMounts sockets ++ [roleRootMount profile.roleRoot]) := by
  have hn : ∀ paths : List OsString, (paths.map fun path =>
      (Mount.Op.directory (namesOf path) : Effect)).flatMap Mount.Op.mounts = [] := by
    intro paths
    simp [flatMap_map, Mount.Op.mounts]
  unfold table
  rw [effects_operations]
  simp [flatMap_append, hn, flatMap_map, Mount.Op.mounts]

end Keld.Strict
