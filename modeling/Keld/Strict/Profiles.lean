/-
# `Keld.Strict.Profiles` — what a profile that was built is known to hold

`Built` closes `LinuxStrictProfile::new` under adding a runtime file and, where
the build has it, a debug socket.  What every built profile keeps (`Sound`) is
the check each part passed when it came in: the launcher and the runtime files
are files, the role root is a directory, and the runtime destinations are
pairwise different names outside the reserved paths (`Outside`).

Sockets are admitted by `LinuxSocketMount::new` alone (`admitted_socket`): it
asks for a socket in a private directory and says nothing about where it lies.
-/
import Keld.Lib.Trace
import Keld.Strict.Sandbox

namespace Keld.Strict

open List LinuxStrictProfile Component

/-- The profiles that can be built. -/
inductive Built (host : Host) : LinuxStrictProfile → Prop
  | new {bubblewrap launcher roleRoot : OsString} {profile : LinuxStrictProfile}
      (h : new host bubblewrap launcher roleRoot = .ok profile) :
      Built host profile
  | runtime {profile next : LinuxStrictProfile} {source destination : OsString}
      (before : Built host profile)
      (h : profile.readonlyRuntime host source destination = .ok next) : Built host next
  | debugSocket {profile next : LinuxStrictProfile} {endpoint : OsString}
      (before : Built host profile)
      (h : profile.debugReadonlySocket host endpoint = .ok next) : Built host next

/-- An endpoint that was admitted. -/
def Admitted (host : Host) (socket : LinuxSocketMount) : Prop :=
  ∃ endpoint phase, LinuxSocketMount.new host endpoint phase = .ok socket

/-- Neither path is at or below the other. -/
def Apart (left right : AbsPath) : Prop := ¬ left <+: right ∧ ¬ right <+: left

/-- A normalized path below the root that no reserved path overlaps. -/
structure Outside (destination : OsString) : Prop where
  rooted : destination.head? = some slash
  normal : components destination = .rootDir :: (namesOf destination).map .normal
  apart : ∀ reserved ∈ reservedPaths, Apart (fixed reserved) (namesOf destination)

def KindAt (host : Host) (path : AbsPath) (kind : FileKind) : Prop :=
  ∃ found, host.metadata path = .ok found ∧ found.kind = kind

structure Sound (host : Host) (profile : LinuxStrictProfile) : Prop where
  launcher : KindAt host profile.launcher .file
  roleRoot : KindAt host profile.roleRoot .directory
  source : ∀ mount ∈ profile.runtimeMounts, KindAt host mount.source .file
  destination : ∀ mount ∈ profile.runtimeMounts, Outside mount.destination
  distinct : profile.runtimeMounts.Pairwise fun one other =>
    namesOf one.destination ≠ namesOf other.destination

variable {host : Host}

theorem inPhase_ok {α : Type} {phase : String} {r : Except String α} {a : α} :
    inPhase phase r = .ok a ↔ r = .ok a := mapError_ok

/-! ## What each part was checked for -/

variable {raw destination source : OsString} {path : AbsPath} {profile next : LinuxStrictProfile}

theorem validateLauncher_ok (h : validateLauncher host raw = .ok path) :
    KindAt host path .file := by
  obtain ⟨found, hf, h⟩ := bind_ok.mp h
  obtain ⟨uid, huid, h⟩ := bind_ok.mp h
  obtain ⟨hk, h⟩ := bind_unit_ok.mp h
  obtain ⟨-, h⟩ := bind_unit_ok.mp h
  obtain ⟨canonical, hcan, h⟩ := bind_ok.mp h
  obtain ⟨-, h⟩ := bind_unit_ok.mp h
  cases h
  have hfi : found.kind = .file := by
    simp only [require_ok, Bool.and_eq_true, beq_iff_eq] at hk
    exact hk.1.1.1
  refine ⟨found, host.canonical (inPhase_ok.mp hcan) (inPhase_ok.mp hf) ?_, hfi⟩
  rw [hfi]
  rintro ⟨⟩

theorem validateRoleRoot_ok (h : validateRoleRoot host raw = .ok path) :
    KindAt host path .directory := by
  obtain ⟨found, hf, h⟩ := bind_ok.mp h
  obtain ⟨uid, huid, h⟩ := bind_ok.mp h
  obtain ⟨hk, hcan⟩ := bind_unit_ok.mp h
  have hd : found.kind = .directory := by
    simp only [require_ok, Bool.and_eq_true, beq_iff_eq] at hk
    exact hk.1.1
  refine ⟨found, host.canonical (inPhase_ok.mp hcan) (inPhase_ok.mp hf) ?_, hd⟩
  rw [hd]
  rintro ⟨⟩

theorem validateProgram_ok (h : validateProgram host raw = .ok path) : KindAt host path .file := by
  obtain ⟨canonical, -, h⟩ := bind_ok.mp h
  obtain ⟨found, hf, h⟩ := bind_ok.mp h
  obtain ⟨hk, h⟩ := bind_unit_ok.mp h
  cases h
  simp only [require_ok, Bool.and_eq_true, beq_iff_eq] at hk
  exact ⟨found, inPhase_ok.mp hf, hk.1⟩

theorem admitted_socket {socket : LinuxSocketMount} (h : Admitted host socket) :
    KindAt host socket.source .socket ∧ socket.destination = socket.source := by
  obtain ⟨endpoint, phase, h⟩ := h
  obtain ⟨found, hf, h⟩ := bind_ok.mp h
  obtain ⟨uid, huid, h⟩ := bind_ok.mp h
  obtain ⟨hk, h⟩ := bind_unit_ok.mp h
  obtain ⟨source, hsrc, h⟩ := bind_ok.mp h
  obtain ⟨-, h⟩ := bind_unit_ok.mp h
  obtain ⟨parent, hpar, h⟩ := bind_ok.mp h
  obtain ⟨-, h⟩ := bind_unit_ok.mp h
  obtain ⟨-, h⟩ := bind_unit_ok.mp h
  cases h
  have hso : found.kind = .socket := by
    simp only [require_ok, Bool.and_eq_true, beq_iff_eq] at hk
    exact hk.1
  refine ⟨⟨found, host.canonical (inPhase_ok.mp hsrc) (inPhase_ok.mp hf) ?_, hso⟩, rfl⟩
  rw [hso]
  rintro ⟨⟩

/-! ## Destinations -/

theorem component_ne_rootDir {part : OsString} : component part ≠ some .rootDir := by
  unfold component
  split_ifs <;> exact nofun

theorem head_of_rootDir {path : OsString} (h : (components path).head? = some .rootDir) :
    path.head? = some slash := by
  by_contra hh
  unfold components at h
  rw [if_neg hh] at h
  split_ifs at h
  · cases h
  · obtain ⟨part, -, hp⟩ := mem_filterMap.mp (mem_of_mem_head? h)
    exact component_ne_rootDir hp

theorem names_of_normals : ∀ {rest : List Component}, rest.all isNormal = true →
    rest = (rest.filterMap name?).map .normal
  | [], _ => rfl
  | .normal name :: rest, h => by
    have hr : rest.all isNormal = true := by simpa [isNormal] using h
    exact congrArg (.normal name :: ·) (names_of_normals hr)
  | .rootDir :: _, h => by simp [isNormal] at h
  | .curDir :: _, h => by simp [isNormal] at h
  | .parentDir :: _, h => by simp [isNormal] at h

theorem rejectReserved_ok {paths : List String} :
    rejectReserved destination paths = .ok () ↔
      ∀ reserved ∈ paths, startsWith destination (utf8 reserved) = false := by
  induction paths with
  | nil => exact ⟨nofun, fun _ => rfl⟩
  | cons reserved paths ih =>
    unfold rejectReserved
    rw [bind_unit_ok, require_ok, ih, forall_mem_cons, Bool.not_eq_true']

/-- Every reserved path is one name. -/
theorem reserved_single {reserved : String} (h : reserved ∈ reservedPaths) :
    ∃ name, fixed reserved = [name] ∧ components (utf8 reserved) = [.rootDir, .normal name] := by
  have hn : ∀ text, isName (utf8 text) = true →
      (utf8 ("/" ++ text)) = slash :: utf8 text → ∃ name, fixed ("/" ++ text) = [name] ∧
        components (utf8 ("/" ++ text)) = [.rootDir, .normal name] := by
    intro text ht hby
    have hcm : components (utf8 ("/" ++ text)) = [.rootDir, .normal ⟨utf8 text, ht⟩] := by
      rw [hby]
      have hjo : slash :: utf8 text = joined [utf8 text] := by
        simp [joined]
      rw [hjo, components_joined, filterMap_cons_some (component_name ⟨utf8 text, ht⟩)]
      · rfl
      · intro part hp
        rw [mem_singleton.mp hp]
        exact slash_notMem_name ⟨utf8 text, ht⟩
    exact ⟨⟨utf8 text, ht⟩, by unfold fixed namesOf; rw [hcm]; rfl, hcm⟩
  unfold reservedPaths at h
  simp only [mem_cons, not_mem_nil, or_false] at h
  rcases h with rfl | rfl | rfl | rfl | rfl | rfl
  · exact hn "app" (by decide +kernel) (by decide +kernel)
  · exact hn "proc" (by decide +kernel) (by decide +kernel)
  · exact hn "dev" (by decide +kernel) (by decide +kernel)
  · exact hn "tmp" (by decide +kernel) (by decide +kernel)
  · exact hn "runtime" (by decide +kernel) (by decide +kernel)
  · exact hn "landlock-probe" (by decide +kernel) (by decide +kernel)

theorem apart_single {name : PathName} (hne : path ≠ []) (h : ¬ [name] <+: path) :
    Apart [name] path := by
  refine ⟨h, fun hab => ?_⟩
  rcases prefix_cons_iff.mp hab with rfl | ⟨rest, rfl, hr⟩
  · exact hne rfl
  · rw [prefix_nil.mp hr] at h
    exact h (prefix_refl _)

theorem validateRuntimeDestination_ok (h : validateRuntimeDestination destination = .ok ()) :
    Outside destination := by
  obtain ⟨hfo, h⟩ := bind_unit_ok.mp h
  simp only [require_ok, Bool.and_eq_true, beq_iff_eq, bne_iff_ne] at hfo
  obtain ⟨⟨hro, hno⟩, hbe⟩ := hfo
  obtain ⟨rest, hr⟩ : ∃ rest, components destination = .rootDir :: rest := head?_eq_some_iff.mp hro
  have hna : components destination = .rootDir :: (namesOf destination).map .normal := by
    unfold namesOf
    rw [hr, filterMap_cons_none rfl]
    rw [hr] at hno
    exact congrArg (_ :: ·) (names_of_normals hno)
  refine ⟨head_of_rootDir hro, hna, fun reserved hre => ?_⟩
  obtain ⟨name, hfi, hcm⟩ := reserved_single hre
  have hnot := rejectReserved_ok.mp h reserved hre
  rw [hfi]
  refine apart_single (fun he => hbe ?_) fun hpr => ?_
  · rw [hna, he]
    rfl
  · rw [startsWith, hcm, hna, Bool.eq_false_iff, Ne, isPrefixOf_iff_prefix] at hnot
    refine hnot ((prefix_cons_inj _).mpr ?_)
    exact hpr.map normal

theorem readonlyMount_ok {mount : LinuxReadonlyMount}
    (h : LinuxReadonlyMount.new host source destination = .ok mount) :
    KindAt host mount.source .file ∧ Outside mount.destination := by
  obtain ⟨path, -, h⟩ := bind_ok.mp h
  obtain ⟨found, hf, h⟩ := bind_ok.mp h
  obtain ⟨hk, h⟩ := bind_unit_ok.mp h
  obtain ⟨hde, h⟩ := bind_unit_ok.mp h
  cases h
  simp only [require_ok, beq_iff_eq] at hk
  exact ⟨⟨found, inPhase_ok.mp hf, hk⟩, validateRuntimeDestination_ok hde⟩

/-! ## Every built profile -/

theorem new_sound {bubblewrap launcher roleRoot : OsString}
    (h : new host bubblewrap launcher roleRoot = .ok profile) :
    Sound host profile := by
  obtain ⟨bubblewrap, -, h⟩ := bind_ok.mp h
  obtain ⟨launcher, hla, h⟩ := bind_ok.mp h
  obtain ⟨roleRoot, hroleRoot, h⟩ := bind_ok.mp h
  cases h
  exact ⟨validateLauncher_ok hla, validateRoleRoot_ok hroleRoot, nofun, nofun, .nil⟩

theorem readonlyRuntime_sound (hs : Sound host profile)
    (h : profile.readonlyRuntime host source destination = .ok next) : Sound host next := by
  obtain ⟨mount, hmo, h⟩ := bind_ok.mp h
  obtain ⟨hf, h⟩ := bind_unit_ok.mp h
  cases h
  obtain ⟨hk, hou⟩ := readonlyMount_ok hmo
  rw [require_ok, Bool.not_eq_true', any_eq_false] at hf
  refine ⟨hs.launcher, hs.roleRoot, ?_, ?_, ?_⟩
  · intro other ho
    rcases mem_snoc.mp ho with ho | rfl
    · exact hs.source other ho
    · exact hk
  · intro other ho
    rcases mem_snoc.mp ho with ho | rfl
    · exact hs.destination other ho
    · exact hou
  · refine pairwise_append.mpr ⟨hs.distinct, pairwise_singleton _ _, ?_⟩
    intro other ho last hl hsa
    rw [mem_singleton.mp hl] at hsa
    refine hf other ho (beq_iff_eq.mpr ?_)
    rw [(hs.destination other ho).normal, hou.normal, hsa]

theorem debugSocket_sound {endpoint : OsString} (hs : Sound host profile)
    (h : profile.debugReadonlySocket host endpoint = .ok next) :
    Sound host next := by
  obtain ⟨socket, -, h⟩ := bind_ok.mp h
  obtain ⟨-, h⟩ := bind_unit_ok.mp h
  cases h
  exact ⟨hs.launcher, hs.roleRoot, hs.source, hs.destination, hs.distinct⟩

theorem built_sound (h : Built host profile) : Sound host profile := by
  induction h with
  | new h => exact new_sound h
  | runtime _ h ih => exact readonlyRuntime_sound ih h
  | debugSocket _ h ih => exact debugSocket_sound ih h

end Keld.Strict
