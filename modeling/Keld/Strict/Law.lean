/-
# `Keld.Strict.Law` — the sandbox a strict command describes

The law reads the argument list back as Bubblewrap does and says what is in the
sandbox then.  Of the host nothing is shown but what was reviewed (`Reviewed`),
the role root alone is writable and it is at its place whatever else was bound,
since it is bound last.

That every destination shows its own source needs more than the checks made: two
destinations of which one is above the other hide each other, or make the second
mount fail (`Separate`).  Sockets lie where they lie on the host, and the fresh
`/tmp` is expected to hold them.
-/
import Keld.Strict.Profiles

namespace Keld.Strict

open List

open Mount (shown seen)

/-- What of the host may be shown: the place, the source, whether it can be written, and
what of the place lies below the mount. -/
inductive Reviewed (profile : LinuxStrictProfile) (program : AbsPath)
    (sockets : List LinuxSocketMount) : AbsPath → AbsPath → Bool → AbsPath → Prop
  | program : Reviewed profile program sockets sandboxProgram program false []
  | launcher : Reviewed profile program sockets sandboxLauncher profile.launcher false []
  | runtime {mount : LinuxReadonlyMount} (h : mount ∈ profile.runtimeMounts) :
      Reviewed profile program sockets (namesOf mount.destination) mount.source false []
  | socket {socket : LinuxSocketMount} (h : socket ∈ sockets) :
      Reviewed profile program sockets socket.destination socket.source false []
  | roleRoot (below : AbsPath) :
      Reviewed profile program sockets (sandboxRoleRoot ++ below) profile.roleRoot true below

/-- All destinations are apart, and the sockets are apart from the reserved paths but for
those in `/tmp`. -/
structure Separate (profile : LinuxStrictProfile) (sockets : List LinuxSocketMount) : Prop where
  apart : ((bindings profile.runtimeMounts sockets).map Mount.place).Pairwise Apart
  reserved : ∀ socket ∈ sockets, ∀ reserved ∈ reservedPaths,
    Apart (fixed reserved) socket.destination ∨
      reserved = "/tmp" ∧ fixed reserved <+: socket.destination.dropLast

variable {host : Host} {profile : LinuxStrictProfile} {program : AbsPath}
  {sockets : List LinuxSocketMount}

variable {writable : Bool} {environment : List (OsString × OsString)}
  {mount : Mount PathName Content} {effect : Effect}

theorem leaf_of_kind {path : AbsPath} {kind : FileKind} (h : KindAt host path kind) :
    leaf host (.host path writable) = (kind != .directory) := by
  obtain ⟨found, hf, rfl⟩ := h
  unfold leaf
  dsimp only
  rw [hf]

/-! ## What is shown -/

theorem shown_eq_some {N C : Type} [DecidableEq N] {isLeaf : C → Bool} {mounts : List (Mount N C)}
    {path : List N} {found : C × List N} :
    shown isLeaf mounts path = some found ↔
      seen mounts path = some found ∧ (isLeaf found.1 = true → found.2 = []) := by
  unfold shown
  rw [Option.filter_eq_some_iff]
  refine and_congr_right fun _ => ?_
  cases isLeaf found.1 <;> simp

/-- The table of mounts, mount by mount. -/
theorem mem_table (h : mount ∈ table (operations profile program sockets environment)) :
    mount.content = .fresh ∨ mount = ⟨sandboxProgram, .host program false⟩ ∨
      mount = ⟨sandboxLauncher, .host profile.launcher false⟩ ∨
      (∃ runtime ∈ profile.runtimeMounts,
        mount = ⟨namesOf runtime.destination, .host runtime.source false⟩) ∨
      (∃ socket ∈ sockets, mount = ⟨socket.destination, .host socket.source false⟩) ∨
      mount = roleRootMount profile.roleRoot := by
  rw [table_operations, mem_append, mem_append, mem_singleton] at h
  rcases h with hgr | hb | rfl
  · simp only [groundEffects, Mount.Op.mounts, flatMap_cons, flatMap_nil,
      append_nil, cons_append, nil_append, mem_cons, not_mem_nil,
      or_false] at hgr
    rcases hgr with rfl | rfl | rfl | rfl | rfl | rfl
    · exact .inl rfl
    · exact .inl rfl
    · exact .inl rfl
    · exact .inl rfl
    · exact .inr (.inl rfl)
    · exact .inr (.inr (.inl rfl))
  · rcases mem_append.mp hb with hrt | hso
    · obtain ⟨runtime, hm, rfl⟩ := mem_map.mp hrt
      exact .inr (.inr (.inr (.inl ⟨runtime, hm, rfl⟩)))
    · obtain ⟨socket, hm, rfl⟩ := mem_map.mp hso
      exact .inr (.inr (.inr (.inr (.inl ⟨socket, hm, rfl⟩))))
  · exact .inr (.inr (.inr (.inr (.inr rfl))))

/-- Of the host nothing is shown but what was reviewed. -/
theorem shown_reviewed (hs : Sound host profile) (hpr : KindAt host program .file)
    (hso : ∀ socket ∈ sockets, Admitted host socket) {place source below : AbsPath}
    (h : shown (leaf host) (table (operations profile program sockets environment)) place =
      some (.host source writable, below)) :
    Reviewed profile program sockets place source writable below := by
  obtain ⟨hse, hbe⟩ := shown_eq_some.mp h
  obtain ⟨mount, hmo, hc, rfl⟩ := Mount.seen_mem hse
  -- below a file there is nothing, so the place is the one it is mounted at
  have hfi : ∀ {kind : FileKind}, KindAt host source kind → kind ≠ .directory → below = [] :=
    fun hk hne => hbe ((leaf_of_kind hk).trans (bne_iff_ne.mpr hne))
  rcases mem_table hmo with hf | rfl | rfl | ⟨runtime, hm, rfl⟩ | ⟨socket, hm, rfl⟩ | rfl
  · rw [hf] at hc
    cases hc
  · cases hc
    rw [hfi hpr nofun, append_nil]
    exact .program
  · cases hc
    rw [hfi hs.launcher nofun, append_nil]
    exact .launcher
  · cases hc
    rw [hfi (hs.source runtime hm) nofun, append_nil]
    exact .runtime hm
  · cases hc
    rw [hfi (admitted_socket (hso socket hm)).1 nofun, append_nil]
    exact .socket hm
  · cases hc
    exact .roleRoot below

theorem shown_roleRoot (hs : Sound host profile) (below : AbsPath) :
    shown (leaf host) (table (operations profile program sockets environment))
      (sandboxRoleRoot ++ below) = some (.host profile.roleRoot true, below) := by
  refine shown_eq_some.mpr ⟨Mount.seen_eq_some.mpr ?_, fun hle => ?_⟩
  · rw [table_operations, ← append_assoc]
    exact ⟨_, roleRootMount profile.roleRoot, [], rfl, prefix_append _ _, nofun, rfl,
      (drop_left).symm⟩
  · rw [leaf_of_kind hs.roleRoot] at hle
    cases hle

/-! ## Destinations that are apart -/

theorem runtime_binding {mount : LinuxReadonlyMount} (h : mount ∈ profile.runtimeMounts) :
    ⟨namesOf mount.destination, .host mount.source false⟩ ∈
      bindings profile.runtimeMounts sockets :=
  mem_append_left _ (mem_map.mpr ⟨mount, h, rfl⟩)

theorem socket_binding {socket : LinuxSocketMount} (h : socket ∈ sockets) :
    ⟨socket.destination, .host socket.source false⟩ ∈ bindings profile.runtimeMounts sockets :=
  mem_append_right _ (mem_map.mpr ⟨socket, h, rfl⟩)

/-- A destination of a command whose destinations are separate. -/
theorem binding_apart (hs : Sound host profile) (hsep : Separate profile sockets)
    {binding : Mount PathName Content} (h : binding ∈ bindings profile.runtimeMounts sockets)
    {reserved : String} (hre : reserved ∈ reservedPaths) (hne : reserved ≠ "/tmp") :
    Apart (fixed reserved) binding.place := by
  rcases mem_append.mp h with hrt | hso
  · obtain ⟨runtime, hm, rfl⟩ := mem_map.mp hrt
    exact (hs.destination runtime hm).apart reserved hre
  · obtain ⟨socket, hm, rfl⟩ := mem_map.mp hso
    rcases hsep.reserved socket hm reserved hre with hap | ⟨htmp, -⟩
    · exact hap
    · exact absurd htmp hne

theorem Apart.ne_nil {left right : AbsPath} (h : Apart left right) : right ≠ [] := by
  rintro rfl
  exact h.2 nil_prefix

/-- A directory that is made lies above a destination. -/
theorem directory_below {path : OsString} (hs : Sound host profile)
    (h : path ∈ directories profile.runtimeMounts sockets) :
    ∃ binding ∈ bindings profile.runtimeMounts sockets, namesOf path <+: binding.place := by
  have hin : ∀ (paths : List OsString) (set : List OsString),
      ∀ path ∈ paths.foldl insertPath set, path ∈ set ∨ path ∈ paths := by
    intro paths
    induction paths with
    | nil => exact fun set path h => .inl h
    | cons next paths ih =>
      intro set path hpa
      rcases ih _ path hpa with hset | hl
      · unfold insertPath at hset
        split_ifs at hset
        · exact .inl hset
        · rcases mem_snoc.mp hset with hset | hne
          · exact .inl hset
          · exact .inr (mem_cons.mpr (.inl hne))
      · exact .inr (mem_cons_of_mem _ hl)
  rcases hin _ _ path (mem_mergeSort.mp h) with hn | hpa
  · cases hn
  · rcases mem_append.mp hpa with hrt | hso
    · obtain ⟨runtime, hm, hanc⟩ := mem_flatMap.mp hrt
      exact ⟨_, runtime_binding hm,
        names_of_ancestor (hs.destination runtime hm).rooted (mem_filter.mp hanc).1⟩
    · obtain ⟨socket, hm, hanc⟩ := mem_flatMap.mp hso
      have hfr := names_of_ancestor (head_bytes _) (mem_filter.mp hanc).1
      rw [namesOf_bytes] at hfr
      exact ⟨_, socket_binding hm, hfr⟩

/-- The files among the operations that every command starts with. -/
theorem leaf_ground {paths : List OsString}
    (h : effect ∈ groundEffects program profile.launcher ++
      paths.map fun path => .directory (namesOf path))
    (hmo : mount ∈ effect.mounts) (hle : leaf host mount.content = true) :
    mount.place = sandboxProgram ∨ mount.place = sandboxLauncher := by
  rcases mem_append.mp h with hgr | hd
  · simp only [groundEffects, mem_cons, not_mem_nil, or_false] at hgr
    rcases hgr with rfl | rfl | rfl | rfl | rfl | rfl | rfl <;>
      simp only [Mount.Op.mounts, mem_singleton, not_mem_nil] at hmo <;>
      subst hmo
    · cases hle
    · cases hle
    · cases hle
    · cases hle
    · exact .inl rfl
    · exact .inr rfl
  · obtain ⟨path, -, rfl⟩ := mem_map.mp hd
    cases hmo

theorem runtime_places {place : AbsPath} (h : place = sandboxProgram ∨ place = sandboxLauncher) :
    fixed "/runtime" <+: place ∧ place.length = 2 := by
  rcases h with rfl | rfl <;> decide +kernel

theorem length_ground (h : effect ∈ groundEffects program profile.launcher) :
    effect.base.length < 2 := by
  have hba : ∀ other ∈ groundEffects [] [], other.base.length < 2 := by decide +kernel
  simp only [groundEffects, mem_cons, not_mem_nil, or_false] at h hba
  rcases h with rfl | rfl | rfl | rfl | rfl | rfl | rfl
  · exact hba _ (.inl rfl)
  · exact hba _ (.inr (.inl rfl))
  · exact hba _ (.inr (.inr (.inl rfl)))
  · exact hba _ (.inr (.inr (.inr (.inl rfl))))
  · exact hba _ (.inr (.inr (.inr (.inr (.inl rfl)))))
  · exact hba (.mount ⟨sandboxProgram, .host [] false⟩) (.inr (.inr (.inr (.inr (.inr (.inl rfl))))))
  · exact hba (.mount ⟨sandboxLauncher, .host [] false⟩)
      (.inr (.inr (.inr (.inr (.inr (.inr rfl))))))

theorem base_roleRoot (roleRoot : AbsPath) :
    (Mount.Op.mount (roleRootMount roleRoot) : Effect).base = [] := by
  show sandboxRoleRoot.dropLast = []
  decide +kernel

/-- Operations whose destinations are separate have no file above a later one. -/
theorem clear_operations (hs : Sound host profile) (hsep : Separate profile sockets) :
    Mount.Op.Clear (leaf host) (effects (operations profile program sockets environment)) := by
  have hrt : ∀ binding ∈ bindings profile.runtimeMounts sockets,
      Apart (fixed "/runtime") binding.place := fun binding hbi =>
    binding_apart hs hsep hbi (by decide) (by decide)
  -- a base below a destination is not in the program or the launcher
  have hbe : ∀ {place base : AbsPath}, (place = sandboxProgram ∨ place = sandboxLauncher) →
      ∀ binding ∈ bindings profile.runtimeMounts sockets, base <+: binding.place →
        ¬ place <+: base := fun hpl binding hbi hba hab =>
    (hrt binding hbi).1 ((runtime_places hpl).1.trans (hab.trans hba))
  -- nor is one of fewer names
  have hsh : ∀ {place base : AbsPath}, (place = sandboxProgram ∨ place = sandboxLauncher) →
      base.length < 2 → ¬ place <+: base := by
    intro place base hpl hlen hab
    have hle := hab.length_le
    have htwo := (runtime_places hpl).2
    omega
  rw [effects_operations]
  refine pairwise_append.mpr ⟨?_, ?_, ?_⟩
  · refine pairwise_of_forall_mem_list fun earlier hea later hl mount hmo hleaf => ?_
    have hpl := leaf_ground hea hmo hleaf
    rcases mem_append.mp hl with hgr | hd
    · exact hsh hpl (length_ground hgr)
    · obtain ⟨path, hpa, rfl⟩ := mem_map.mp hd
      obtain ⟨binding, hbi, hfr⟩ := directory_below hs hpa
      exact hbe hpl binding hbi hfr
  · refine pairwise_append.mpr ⟨?_, pairwise_singleton _ _, ?_⟩
    · refine pairwise_map.mpr ((pairwise_map.mp hsep.apart).imp ?_)
      intro earlier later hap mount hmo _ hab
      rw [mem_singleton.mp hmo] at hab
      exact hap.1 (hab.trans (List.dropLast_prefix _))
    · intro earlier hea later hl mount hmo _ hab
      obtain ⟨binding, hbi, rfl⟩ := mem_map.mp hea
      rw [mem_singleton.mp hmo, mem_singleton.mp hl, base_roleRoot] at hab
      exact (hrt binding hbi).ne_nil (prefix_nil.mp hab)
  · intro earlier hea later hl mount hmo hleaf
    have hpl := leaf_ground hea hmo hleaf
    rcases mem_snoc.mp hl with hbi | rfl
    · obtain ⟨bound, hb, rfl⟩ := mem_map.mp hbi
      exact hbe hpl bound hb (List.dropLast_prefix _)
    · exact hsh hpl (by rw [base_roleRoot]; decide)

/-- Separate destinations show what was bound there. -/
theorem shown_binding (hso : Sound host profile) (hsep : Separate profile sockets)
    (binding : Mount PathName Content) (h : binding ∈ bindings profile.runtimeMounts sockets) :
    shown (leaf host) (table (operations profile program sockets environment)) binding.place =
      some (binding.content, []) := by
  obtain ⟨before, after, hs⟩ := append_of_mem h
  refine shown_eq_some.mpr ⟨?_, fun _ => rfl⟩
  rw [table_operations, hs, append_assoc, cons_append, ← append_assoc]
  refine Mount.seen_of_apart rfl fun later hl => ?_
  rcases mem_snoc.mp hl with haf | rfl
  · have hap := hsep.apart
    rw [hs, map_append, map_cons] at hap
    exact ((pairwise_cons.mp (pairwise_append.mp hap).2.1).1 later.place (mem_map_of_mem haf)).2
  · exact (binding_apart hso hsep h (mem_cons_self ..) (by decide)).1

/-! ## The law -/

/-- The command of a built profile is read as the operations it was put together from and the
launcher's own arguments, of the host it shows what was reviewed and the role root, and
destinations that are separate show their own sources. -/
theorem strict_command_law {raw : OsString} {args : List OsString}
    {environment : List (OsString × OsString)} {command : LinuxStrictCommand}
    (hbuilt : Built host profile) (hsockets : ∀ socket ∈ sockets, Admitted host socket)
    (h : profile.commandInner host raw args environment sockets = .ok command) :
    ∃ program ops rest, validateProgram host raw = .ok program ∧
      ops = operations profile program sockets environment ∧
      parse command.args = some (ops, rest) ∧
      parseLauncherArgs rest = .ok ⟨readonlyPaths profile.runtimeMounts sockets, readwritePaths,
        sandboxProgram.bytes, args⟩ ∧
      (∀ place source writable below,
        shown (leaf host) (table ops) place = some (.host source writable, below) →
          Reviewed profile program sockets place source writable below) ∧
      (∀ below, shown (leaf host) (table ops) (sandboxRoleRoot ++ below) =
        some (.host profile.roleRoot true, below)) ∧
      (profile.runtimeMounts.Pairwise fun one other =>
        namesOf one.destination ≠ namesOf other.destination) ∧
      (∀ mount ∈ profile.runtimeMounts, ∀ reserved ∈ reservedPaths,
        Apart (fixed reserved) (namesOf mount.destination)) ∧
      (Separate profile sockets →
        Mount.Op.runAll (leaf host) (effects ops) = some (table ops) ∧
        (∀ mount ∈ profile.runtimeMounts,
          shown (leaf host) (table ops) (namesOf mount.destination) =
            some (.host mount.source false, [])) ∧
        ∀ socket ∈ sockets, shown (leaf host) (table ops) socket.destination =
          some (.host socket.source false, [])) := by
  have hs := built_sound hbuilt
  obtain ⟨program, hpr, -, har⟩ := commandInner_ok h
  refine ⟨program, _, launcherArgs profile.runtimeMounts sockets args, hpr, rfl, ?_,
    parse_launcherArgs _ _ _, ?_, shown_roleRoot hs, hs.distinct,
    fun mount hmo => (hs.destination mount hmo).apart, fun hsep => ?_⟩
  · rw [har, parse_args]
  · intro place source writable below hsh
    exact shown_reviewed hs (validateProgram_ok hpr) hsockets hsh
  · refine ⟨Mount.Op.runAll_of_clear (clear_operations hs hsep), fun mount hmo => ?_,
      fun socket hso => ?_⟩
    · exact shown_binding hs hsep ⟨namesOf mount.destination, .host mount.source false⟩
        (runtime_binding hmo)
    · exact shown_binding hs hsep ⟨socket.destination, .host socket.source false⟩
        (socket_binding hso)

/-! ## A command -/

/-- A host with the files that a small profile names. -/
def smallHost : Host where
  currentEffectiveUid := .ok 1000
  symlinkMetadata raw := smallMetadata (namesOf raw)
  canonicalize raw := .ok (namesOf raw)
  metadata := smallMetadata
  rejectFileCapabilities _ _ := .ok ()
  validateTrustedAncestors _ _ _ := .ok ()
  seccompFiles := .ok ()
  readinessPipe := .ok ()
  canonical hpath hfound _ := by
    cases hpath
    exact hfound
where
  smallMetadata (path : AbsPath) : Except String Metadata :=
    if path = fixed "/home/role" then .ok ⟨.directory, 1000, 0o700⟩
    else if path = fixed "/tmp/link" then .ok ⟨.directory, 1000, 0o700⟩
    else if path = fixed "/tmp/link/app.sock" then .ok ⟨.socket, 1000, 0o600⟩
    else .ok ⟨.file, 0, 0o755⟩

def smallProfile : LinuxStrictProfile :=
  ⟨fixed "/bin/bwrap", fixed "/bin/launcher", fixed "/home/role",
    [⟨fixed "/lib/libc.so", utf8 "/lib/libc.so"⟩], []⟩

def smallSocket : LinuxSocketMount := ⟨fixed "/tmp/link/app.sock", fixed "/tmp/link/app.sock"⟩

theorem smallProfile_built : Built smallHost smallProfile := by
  have hn : LinuxStrictProfile.new smallHost (utf8 "/bin/bwrap") (utf8 "/bin/launcher")
      (utf8 "/home/role") = .ok { smallProfile with runtimeMounts := [] } := by
    rfl
  have hrt : LinuxStrictProfile.readonlyRuntime smallHost
      { smallProfile with runtimeMounts := [] } (utf8 "/lib/libc.so") (utf8 "/lib/libc.so") =
        .ok smallProfile := by
    rfl
  exact .runtime (.new hn) hrt

theorem smallSocket_admitted : Admitted smallHost smallSocket :=
  ⟨utf8 "/tmp/link/app.sock", "authenticated app-link", by rfl⟩

theorem smallProfile_accepts : ∃ command, smallProfile.commandInner smallHost (utf8 "/bin/app")
    [utf8 "--"] [(utf8 "LANG", utf8 "C")] [smallSocket] = .ok command :=
  ⟨_, rfl⟩

theorem smallProfile_separate : Separate smallProfile [smallSocket] := by
  refine ⟨?_, fun socket hso => ?_⟩
  · unfold Apart
    decide +kernel
  · rw [mem_singleton.mp hso]
    unfold Apart
    decide +kernel

theorem strict_command_law_small : ∃ command ops rest,
    smallProfile.commandInner smallHost (utf8 "/bin/app") [utf8 "--"]
      [(utf8 "LANG", utf8 "C")] [smallSocket] = .ok command ∧
    parse command.args = some (ops, rest) ∧
    shown (leaf smallHost) (table ops) smallSocket.destination =
      some (.host smallSocket.source false, []) := by
  obtain ⟨command, hco⟩ := smallProfile_accepts
  have hso : ∀ socket ∈ [smallSocket], Admitted smallHost socket := fun socket hsock => by
    rw [mem_singleton.mp hsock]
    exact smallSocket_admitted
  obtain ⟨-, ops, rest, -, -, hpa, -, -, -, -, -, hsh⟩ :=
    strict_command_law smallProfile_built hso hco
  exact ⟨command, ops, rest, hco, hpa,
    (hsh smallProfile_separate).2.2 smallSocket (mem_singleton_self _)⟩

/-- A socket that was admitted lies below the reserved `/tmp`. -/
theorem socket_below_reserved : Built smallHost smallProfile ∧ Admitted smallHost smallSocket ∧
    (∃ command, smallProfile.commandInner smallHost (utf8 "/bin/app") [utf8 "--"]
      [(utf8 "LANG", utf8 "C")] [smallSocket] = .ok command) ∧
    "/tmp" ∈ reservedPaths ∧ fixed "/tmp" <+: smallSocket.destination :=
  ⟨smallProfile_built, smallSocket_admitted, smallProfile_accepts, by decide, by decide +kernel⟩

end Keld.Strict
