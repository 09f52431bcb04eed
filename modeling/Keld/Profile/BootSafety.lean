/-
# `Keld.Profile.BootSafety` — histories of sessions over boots

A history is a sequence of boots with different identities, and in each any
sessions, each cut wherever its script ends.  Two things hold of every history:
`begin_lifecycle` ends (`Ends`), and the record on disk has an owner exactly
while it is not idle.

That a crashed session keeps the profile closed for the rest of its boot holds
of histories whose sessions never start on the idle record of an earlier boot
(`Fresh`): startup keeps the boot of the idle record, so a record that was left
idle in one boot and started in the next names the wrong one, and the session
after the crash takes it for a record of a boot that is over.
-/
import Keld.Lib.Trace
import Keld.Profile.BootRecovery
import Mathlib.Data.List.Induction

namespace Keld.Profile

open List ProfileLifecycleRecord ProfileDisk

/-! ## Histories -/

/-- A process that opens the profile, and how far it gets. -/
structure Session where
  boot : BootIdentity
  process : ProfileProcessIdentity
  script : List (Entry Empty Unit)

structure BootSpan where
  identity : BootIdentity
  sessions : List (ProfileProcessIdentity × List (Entry Empty Unit))

structure History where
  boots : List BootSpan
  distinct : (boots.map BootSpan.identity).Nodup

def BootSpan.all (span : BootSpan) : List Session :=
  span.sessions.map fun s => ⟨span.identity, s.1, s.2⟩

def History.sessions (h : History) : List Session := h.boots.flatMap BootSpan.all

/-- The disk after one more session. -/
def Session.run (fuel : ℕ) (disk : ProfileDisk) (s : Session) : ProfileDisk :=
  (session (fuel + 3) s.boot s.process ⟨disk, s.script⟩).2.state

def runSessions (fuel : ℕ) (sessions : List Session) : ProfileDisk :=
  sessions.foldl (Session.run fuel) {}

/-- What a session wrote. -/
def Session.wrote (fuel : ℕ) (disk : ProfileDisk) (s : Session) : List ProfileLifecycleRecord :=
  (s.run fuel disk).writes.drop disk.writes.length

/-- The session committed that it is starting. -/
def Session.Commits (fuel : ℕ) (disk : ProfileDisk) (s : Session) : Prop :=
  ∃ r ∈ s.wrote fuel disk, r.phase = .starting

instance (fuel : ℕ) (disk : ProfileDisk) (s : Session) : Decidable (s.Commits fuel disk) :=
  inferInstanceAs (Decidable (∃ r ∈ s.wrote fuel disk, r.phase = .starting))

/-- The profile was left open. -/
def LeftOpen (disk : ProfileDisk) : Prop := ∃ r, disk.record = some r ∧ r.phase ≠ .idle

/-- The session does not find the idle record of another boot. -/
def Session.Fresh (disk : ProfileDisk) (s : Session) : Prop :=
  ∀ r, disk.record = some r → r.phase = .idle → r.recovery = .bootScoped s.boot

/-- Every session of the history is fresh where it begins. -/
def History.Fresh (fuel : ℕ) (h : History) : Prop :=
  ∀ before s after, h.sessions = before ++ s :: after → s.Fresh (runSessions fuel before)

/-! ## One session -/

section Sessions

variable {fuel : ℕ} {disk : ProfileDisk} {s : Session}

theorem ProfileDisk.sound_empty : ({} : ProfileDisk).Sound := ⟨rfl, nofun⟩

theorem ProfileDisk.Sound.puts (h : disk.Sound) {records : List ProfileLifecycleRecord}
    (hre : ∀ r ∈ records, r.Sound) : (disk.puts records).Sound := by
  induction records generalizing disk with
  | nil => exact h
  | cons r records ih =>
    refine ih ⟨?_, ?_⟩ (fun r' hr' => hre r' (mem_cons_of_mem _ hr'))
    · show some r.toRecord = (disk.writes ++ [r]).getLast?.map _
      rw [getLast?_concat]
      rfl
    · intro r' hr'
      rcases mem_snoc.mp hr' with ho | he
      · exact h.sound r' ho
      · rw [he]
        exact hre r mem_cons_self

variable {r : ProfileLifecycleRecord}

theorem sound_cleanRun (hr : r.Sound) (process : ProfileProcessIdentity) :
    ∀ r' ∈ r.cleanRun process, r'.Sound := by
  intro r' hr'
  simp only [cleanRun, mem_cons, not_mem_nil, or_false] at hr'
  rcases hr' with rfl | rfl | rfl | rfl
  · exact ⟨hr.boot, iff_of_true rfl (by rintro ⟨⟩)⟩
  · exact ⟨hr.boot, iff_of_true rfl (by rintro ⟨⟩)⟩
  · exact ⟨hr.boot, iff_of_true rfl (by rintro ⟨⟩)⟩
  · exact ⟨hr.boot, iff_of_false (by rintro ⟨⟩) (fun h => h rfl)⟩

/-- What recovery writes is sound and starts nothing. -/
theorem recover_spec {stored : Option ProfileLifecycleRecord} (h : ∀ r, stored = some r → r.Sound)
    (boot : BootIdentity) :
    (∀ r ∈ (recover stored boot).1, r.Sound ∧ r.phase ≠ .starting) ∧
      ∀ r, (recover stored boot).2 = some r → r.Sound ∧ r.phase = .idle := by
  have hi : (idle boot).Sound := sound_idle boot
  have hclr : ∀ r : ProfileLifecycleRecord, r.phase = .quarantined →
      (∀ r' ∈ (recover (some r) boot).1, r'.Sound ∧ r'.phase ≠ .starting) ∧
        ∀ r', (recover (some r) boot).2 = some r' → r'.Sound ∧ r'.phase = .idle := by
    intro r hph
    rw [recover, hph]
    split_ifs
    · exact ⟨by rintro _ ⟨⟩, by rintro _ ⟨⟩⟩
    · refine ⟨fun r' hr' => ?_, fun r' hr' => ?_⟩
      · rw [mem_singleton.mp hr']
        exact ⟨hi, by rintro ⟨⟩⟩
      · cases hr'
        exact ⟨hi, rfl⟩
  cases stored with
  | none =>
    refine ⟨by rintro _ ⟨⟩, fun r hr => ?_⟩
    cases hr
    exact ⟨hi, rfl⟩
  | some r =>
    have hr := h r rfl
    by_cases hph : r.phase = .idle
    · rw [recover, hph]
      refine ⟨by rintro _ ⟨⟩, fun r' hr' => ?_⟩
      cases hr'
      exact ⟨hr, hph⟩
    by_cases hph' : r.phase = .quarantined
    · exact hclr r hph'
    · have hqu : r.quarantined.Sound := ⟨hr.boot, iff_of_true (hr.owner.mpr hph) (by rintro ⟨⟩)⟩
      rw [recover_live hph hph']
      refine ⟨fun r' hr' => ?_, (hclr r.quarantined rfl).2⟩
      rcases mem_cons.mp hr' with rfl | hr'
      · exact ⟨hqu, by rintro ⟨⟩⟩
      · exact (hclr r.quarantined rfl).1 r' hr'

section

variable (h : disk.Sound)
include h

theorem ProfileDisk.Sound.stored : ∀ r, disk.record = some r → r.Sound := by
  intro r hr
  rw [h.record] at hr
  exact h.sound r (mem_of_getLast? hr)

theorem sound_plan (boot : BootIdentity) (process : ProfileProcessIdentity) :
    ∀ r ∈ plan disk.record boot process, r.Sound := by
  obtain ⟨hfr, hba⟩ := recover_spec h.stored boot
  intro r hr
  rcases mem_append.mp hr with hr | hr
  · exact (hfr r hr).1
  · cases hre : (recover disk.record boot).2 with
    | none =>
      rw [hre] at hr
      cases hr
    | some r₀ =>
      rw [hre] at hr
      exact sound_cleanRun (hba r₀ hre).1 process r hr

theorem run_eq : s.run fuel disk =
    disk.puts ((plan disk.record s.boot s.process).take s.script.length) :=
  session_state h fuel s.script

theorem wrote_eq :
    s.wrote fuel disk = (plan disk.record s.boot s.process).take s.script.length := by
  rw [Session.wrote, run_eq h, puts_writes, drop_left]

theorem sound_run : (s.run fuel disk).Sound := by
  rw [run_eq h]
  exact h.puts (fun r hr => sound_plan h s.boot s.process r (mem_of_mem_take hr))

end

theorem sound_runSessions (fuel : ℕ) (sessions : List Session) :
    (runSessions fuel sessions).Sound := by
  induction sessions using reverseRecOn with
  | nil => exact sound_empty
  | append_singleton sessions s ih =>
    rw [runSessions, foldl_append]
    exact sound_run ih

theorem record_run (h : disk.Sound) :
    (s.run fuel disk).record = (s.wrote fuel disk).getLast?.or disk.record := by
  rw [(sound_run h).record, h.record, run_eq h, puts_writes, ← wrote_eq h]
  exact getLast?_append

/-! ## A closed boot -/

/-- The record is open and names this boot. -/
def Stuck (boot : BootIdentity) (disk : ProfileDisk) : Prop :=
  ∃ r, disk.record = some r ∧ r.phase ≠ .idle ∧ r.recovery = .bootScoped boot

/-- Nothing is started in the boot that the open record names, and the record keeps naming it. -/
theorem stuck_run (h : disk.Sound) (hsc : Stuck s.boot disk) :
    Stuck s.boot (s.run fuel disk) ∧ ¬ s.Commits fuel disk := by
  obtain ⟨r, hre, hph, hbo⟩ := hsc
  have hp : ∀ r' ∈ plan disk.record s.boot s.process, r' = r.quarantined := by
    rw [hre, plan]
    by_cases hph' : r.phase = .quarantined
    · rw [recover, hph', if_pos hbo]
      rintro _ ⟨⟩
    · have hqu : recover (some r.quarantined) s.boot = ([], none) := if_pos hbo
      rw [recover_live hph hph', hqu]
      exact fun r' hr' => mem_singleton.mp hr'
  have hwr : ∀ r' ∈ s.wrote fuel disk, r' = r.quarantined := by
    rw [wrote_eq h]
    exact fun r' hr' => hp r' (mem_of_mem_take hr')
  refine ⟨?_, ?_⟩
  · rw [Stuck, record_run h]
    cases hl : (s.wrote fuel disk).getLast? with
    | none => exact ⟨r, hre, hph, hbo⟩
    | some r' =>
      obtain rfl := hwr r' (mem_of_getLast? hl)
      exact ⟨r.quarantined, rfl, by rintro ⟨⟩, hbo⟩
  · rintro ⟨r', hr', hst⟩
    rw [hwr r' hr'] at hst
    cases hst

/-- The idle record that a fresh session starts on names its boot. -/
theorem fresh_recover (hf : s.Fresh disk) (hr : (recover disk.record s.boot).2 = some r) :
    r.recovery = .bootScoped s.boot := by
  cases hre : disk.record with
  | none =>
    rw [hre] at hr
    cases hr
    rfl
  | some stored =>
    rw [hre, recover] at hr
    cases hph : stored.phase with
    | idle =>
      rw [hph] at hr
      cases hr
      exact hf r hre hph
    | starting | running | stopping | quarantined =>
      rw [hph] at hr
      split_ifs at hr
      cases hr
      rfl

/-- A fresh session that started and did not come to its end closes its boot. -/
theorem stuck_of_commits (h : disk.Sound) (hf : s.Fresh disk) (hcm : s.Commits fuel disk)
    (ho : LeftOpen (s.run fuel disk)) : Stuck s.boot (s.run fuel disk) := by
  obtain ⟨hfr, hba⟩ := recover_spec h.stored s.boot
  obtain ⟨r', hr', hst⟩ := hcm
  have hle : (recover disk.record s.boot).1.length ≤ s.script.length := by
    by_contra hlt
    rw [wrote_eq h, plan, take_append_of_le_length (by omega)] at hr'
    exact (hfr r' (mem_of_mem_take hr')).2 hst
  cases hre : (recover disk.record s.boot).2 with
  | none =>
    rw [wrote_eq h, plan, hre, Option.elim_none, append_nil] at hr'
    exact absurd hst (hfr r' (mem_of_mem_take hr')).2
  | some r =>
    have hbo := fresh_recover hf hre
    have hwr : s.wrote fuel disk = (recover disk.record s.boot).1 ++ (r.cleanRun s.process).take
        (s.script.length - (recover disk.record s.boot).1.length) := by
      rw [wrote_eq h, plan, hre, Option.elim_some, take_append, take_of_length_le hle]
    obtain ⟨last, hl, hph⟩ := ho
    refine ⟨last, hl, hph, ?_⟩
    rw [record_run h, hwr, getLast?_append] at hl
    have hcl : ∀ r' ∈ r.cleanRun s.process, r'.recovery = .bootScoped s.boot := by
      intro r' hr'
      simp only [cleanRun, mem_cons, not_mem_nil, or_false] at hr'
      rcases hr' with rfl | rfl | rfl | rfl
      all_goals exact hbo
    cases hcut : ((r.cleanRun s.process).take
        (s.script.length - (recover disk.record s.boot).1.length)).getLast? with
    | some r'' =>
      rw [hcut, Option.some_or, Option.some_or] at hl
      cases hl
      exact hcl last (mem_of_mem_take (mem_of_getLast? hcut))
    | none =>
      -- nothing of the clean run was written, so nothing was started
      rw [hwr, getLast?_eq_none_iff.mp hcut, append_nil] at hr'
      exact absurd hst (hfr r' hr').2

end Sessions

/-! ## Records of sessions that did not start -/

section NotStarted

variable {fuel : ℕ} {disk : ProfileDisk} {s : Session}

variable {r : ProfileLifecycleRecord}

/-- Recovery only marks what it found, or clears it. -/
theorem mem_recover {stored : Option ProfileLifecycleRecord} {boot : BootIdentity}
    (h : r ∈ (recover stored boot).1) :
    r = .idle boot ∨ ∃ r₀, stored = some r₀ ∧ r₀.phase ≠ .idle ∧ r = r₀.quarantined := by
  have hclr : ∀ r₀ : ProfileLifecycleRecord, r₀.phase = .quarantined →
      r ∈ (recover (some r₀) boot).1 → r = .idle boot := by
    intro r₀ hph hr
    rw [recover, hph] at hr
    split_ifs at hr
    · cases hr
    · exact mem_singleton.mp hr
  cases stored with
  | none => cases h
  | some r₀ =>
    by_cases hph : r₀.phase = .idle
    · rw [recover, hph] at h
      cases h
    by_cases hph' : r₀.phase = .quarantined
    · exact .inl (hclr r₀ hph' h)
    · rw [recover_live hph hph'] at h
      rcases mem_cons.mp h with rfl | h
      · exact .inr ⟨r₀, rfl, hph, rfl⟩
      · exact .inl (hclr r₀.quarantined rfl h)

/-- A session that did not start wrote no more than the recovery. -/
theorem wrote_of_not_commits (h : disk.Sound) (hcm : ¬ s.Commits fuel disk) :
    ∀ r ∈ s.wrote fuel disk, r ∈ (recover disk.record s.boot).1 := by
  rw [Session.Commits, wrote_eq h, plan, take_append] at *
  intro r hr
  rcases mem_append.mp hr with hr | hr
  · exact mem_of_mem_take hr
  · refine absurd ?_ hcm
    cases hre : (recover disk.record s.boot).2 with
    | none =>
      rw [hre, Option.elim_none, take_nil] at hr
      cases hr
    | some r₀ =>
      rw [hre] at hr
      cases hl : s.script.length - (recover disk.record s.boot).1.length with
      | zero =>
        rw [hl] at hr
        cases hr
      | succ left =>
        exact ⟨r₀.started s.process, mem_append_right _ mem_cons_self, rfl⟩

/-- An open record that a session did not start was open before, in the same boot's name. -/
theorem open_before (h : disk.Sound) (hcm : ¬ s.Commits fuel disk)
    (hr : (s.run fuel disk).record = some r) (hph : r.phase ≠ .idle) :
    ∃ r₀, disk.record = some r₀ ∧ r₀.phase ≠ .idle ∧ r.recovery = r₀.recovery := by
  rw [record_run h] at hr
  cases hl : (s.wrote fuel disk).getLast? with
  | none =>
    rw [hl] at hr
    exact ⟨r, hr, hph, rfl⟩
  | some r' =>
    rw [hl] at hr
    cases hr
    rcases mem_recover (wrote_of_not_commits h hcm r (mem_of_getLast? hl)) with
      rfl | ⟨r₀, hre, hph₀, rfl⟩
    · exact absurd rfl hph
    · exact ⟨r₀, hre, hph₀, rfl⟩

end NotStarted

/-! ## The sessions of a boot come one after the other -/

variable {boots : List BootSpan}

theorem mem_sessions {s : Session} (h : s ∈ boots.flatMap BootSpan.all) :
    s.boot ∈ boots.map BootSpan.identity := by
  obtain ⟨span, hsp, hs⟩ := mem_flatMap.mp h
  obtain ⟨p, -, rfl⟩ := mem_map.mp hs
  exact mem_map_of_mem hsp

theorem grouped (hdi : (boots.map BootSpan.identity).Nodup)
    {before between after : List Session} {s₁ s₂ : Session}
    (he : boots.flatMap BootSpan.all = before ++ s₁ :: (between ++ s₂ :: after))
    (hbo : s₁.boot = s₂.boot) : ∀ s ∈ between, s.boot = s₁.boot := by
  induction boots generalizing before with
  | nil => cases before <;> cases he
  | cons span boots ih =>
    rw [map_cons, nodup_cons] at hdi
    have hsp : ∀ s ∈ span.all, s.boot = span.identity := by
      intro s hs
      obtain ⟨p, -, rfl⟩ := mem_map.mp hs
      rfl
    have hr : ∀ s ∈ boots.flatMap BootSpan.all, s.boot ≠ span.identity :=
      fun s hs hsa => hdi.1 (hsa ▸ mem_sessions hs)
    rw [flatMap_cons] at he
    rcases append_eq_append_iff.mp he with ⟨front, rfl, hta⟩ | ⟨back, hba, hta⟩
    · exact ih hdi.2 hta
    · -- the first of the two is in this boot, so the second is, and all between
      cases back with
      | nil => exact ih hdi.2 (show _ = [] ++ _ from hta.symm)
      | cons s back =>
        obtain ⟨rfl, hcut⟩ := List.cons.inj hta
        have hf : s₁.boot = span.identity := hsp s₁ (by rw [hba]; simp)
        rcases append_eq_append_iff.mp hcut with
          ⟨front, rfl, hr'⟩ | ⟨back', rfl, hr'⟩
        · cases front with
          | nil =>
            refine absurd (hbo.symm.trans hf) (hr s₂ ?_)
            rw [← show s₂ :: after = boots.flatMap BootSpan.all from hr']
            exact mem_cons_self
          | cons s front =>
            intro s hs
            rw [hf]
            exact hsp s (by rw [hba]; simp [hs])
        · refine absurd (hbo.symm.trans hf) (hr s₂ ?_)
          rw [hr']
          simp

/-! ## The law -/

/-- Where it is not cut, `begin_lifecycle` writes at most three records and has either started
for this process or failed on a quarantined record. -/
def Ends (fuel : ℕ) (disk : ProfileDisk) (boot : BootIdentity)
    (process : ProfileProcessIdentity) : Prop :=
  ∀ script, 3 ≤ script.length → ∃ written rest, written.length ≤ 3 ∧
    ((∃ l, beginLifecycle (fuel + 3) boot process ⟨disk, script⟩ =
        (.ok l, ⟨disk.puts written, rest⟩) ∧ (disk.puts written).record = some l ∧
        l.phase = .starting ∧ l.owner = some process) ∨
      ∃ kind r, beginLifecycle (fuel + 3) boot process ⟨disk, script⟩ =
        (.error (.failed kind), ⟨disk.puts written, rest⟩) ∧
        (disk.puts written).record = some r ∧ r.phase = .quarantined)

/-- The last session of these that started, and the boot it ran in. -/
def LastStarted (fuel : ℕ) (sessions : List Session) (boot : BootIdentity) : Prop :=
  ∃ before s after, sessions = before ++ s :: after ∧ s.boot = boot ∧
    s.Commits fuel (runSessions fuel before) ∧
    ∀ mid s' rest, after = mid ++ s' :: rest →
      ¬ s'.Commits fuel (runSessions fuel (before ++ s :: mid))

/-- What is true of a history. -/
structure LifecycleLaw (fuel : ℕ) (h : History) : Prop where
  ends : ∀ before after, h.sessions = before ++ after → ∀ boot process,
    Ends fuel (runSessions fuel before) boot process
  readable : ∀ before after, h.sessions = before ++ after →
    (runSessions fuel before).lifecycle.isSome = (runSessions fuel before).record.isSome
  owner : ∀ before after, h.sessions = before ++ after → ∀ r,
    (runSessions fuel before).record = some r → (r.owner.isSome = true ↔ r.phase ≠ .idle)
  /-- After a session that started and left the profile open, none starts in the same boot. -/
  closed : h.Fresh fuel → ∀ before s₁ between s₂ after,
    h.sessions = before ++ s₁ :: (between ++ s₂ :: after) → s₁.boot = s₂.boot →
    s₁.Commits fuel (runSessions fuel before) → LeftOpen (runSessions fuel (before ++ [s₁])) →
    ¬ s₂.Commits fuel (runSessions fuel (before ++ s₁ :: between))
  /-- An open record names the boot of the session that started it. -/
  names : h.Fresh fuel → ∀ before after, h.sessions = before ++ after → ∀ r,
    (runSessions fuel before).record = some r → r.phase ≠ .idle →
    ∃ boot, r.recovery = .bootScoped boot ∧ LastStarted fuel before boot

theorem runSessions_snoc (fuel : ℕ) (sessions : List Session) (s : Session) :
    runSessions fuel (sessions ++ [s]) = s.run fuel (runSessions fuel sessions) := by
  rw [runSessions, foldl_append]
  rfl

section Law

variable {fuel : ℕ}

variable {boot : BootIdentity} {before : List Session}

theorem recover_none {stored : Option ProfileLifecycleRecord} (h : (recover stored boot).2 = none) :
    ∃ r, (recover stored boot).1.getLast?.or stored = some r ∧ r.phase = .quarantined := by
  cases stored with
  | none => cases h
  | some r =>
    by_cases hph : r.phase = .idle
    · rw [recover, hph] at h
      cases h
    have hclr : ∀ r₀ : ProfileLifecycleRecord, r₀.phase = .quarantined →
        (recover (some r₀) boot).2 = none → recover (some r₀) boot = ([], none) := by
      intro r₀ hph₀ h₀
      rw [recover_quarantined hph₀] at h₀ ⊢
      split_ifs at h₀ ⊢
      rfl
    by_cases hph' : r.phase = .quarantined
    · rw [hclr r hph' h]
      exact ⟨r, rfl, hph'⟩
    · rw [recover_live hph hph'] at h ⊢
      rw [hclr r.quarantined rfl h]
      exact ⟨r.quarantined, rfl, rfl⟩

theorem begin_ends {disk : ProfileDisk} (h : disk.Sound) (boot : BootIdentity)
    (process : ProfileProcessIdentity) : Ends fuel disk boot process := by
  intro script hscr
  have hle := length_recover disk.record boot
  obtain ⟨hfr, hba⟩ := recover_spec h.stored boot
  have hru : writeAll (recover disk.record boot).1 ⟨disk, script⟩ =
      (.ok (), ⟨disk.puts (recover disk.record boot).1,
        script.drop (recover disk.record boot).1.length⟩) := by
    rw [writeAll_run, if_pos (by omega)]
  rw [beginLifecycle_run h, Proc.bind_run_ok hru]
  cases hre : (recover disk.record boot).2 with
  | none =>
    obtain ⟨r, hl, hph⟩ := recover_none hre
    refine ⟨_, _, Nat.le_succ_of_le hle, .inr ⟨.lifecycleUnproven, r, rfl, ?_, hph⟩⟩
    rw [(h.puts (fun r' hr' => (hfr r' hr').1)).record, puts_writes, ← hl,
      getLast?_append, h.record]
  | some r =>
    obtain ⟨hso, hi⟩ := hba r hre
    have hst : (r.started process).Sound := ⟨hso.boot, iff_of_true rfl nofun⟩
    have hpu : (disk.puts ((recover disk.record boot).1 ++ [r.started process])).Sound := by
      refine h.puts (fun r' hr' => ?_)
      rcases mem_snoc.mp hr' with hr' | rfl
      · exact (hfr r' hr').1
      · exact hst
    have hs := writeAll_run [r.started process] (disk.puts (recover disk.record boot).1)
      (script.drop (recover disk.record boot).1.length)
    rw [if_pos (by rw [length_drop, length_singleton]; omega)] at hs
    refine ⟨(recover disk.record boot).1 ++ [r.started process],
      (script.drop (recover disk.record boot).1.length).drop 1, ?_,
      .inl ⟨r.started process, ?_, ?_, rfl, rfl⟩⟩
    · rw [length_append, length_singleton]
      omega
    · rw [puts_append, startFrom_some]
      exact Proc.bind_run_ok hs
    · rw [hpu.record, puts_writes, ← append_assoc, getLast?_concat]

/-- Once stuck, a boot stays stuck through all of its sessions. -/
theorem stuck_sessions {between : List Session} (hst : Stuck boot (runSessions fuel before))
    (hbo : ∀ s ∈ between, s.boot = boot) :
    Stuck boot (runSessions fuel (before ++ between)) := by
  induction between using reverseRecOn with
  | nil => rwa [append_nil]
  | append_singleton between s ih =>
    have hs : s.boot = boot := hbo s (by simp)
    have hpr := ih (fun s' hs' => hbo s' (by simp [hs']))
    rw [← append_assoc, runSessions_snoc]
    subst hs
    exact (stuck_run (sound_runSessions fuel _) hpr).1

theorem names_boot {h : History} (hf : h.Fresh fuel) {after : List Session}
    (he : h.sessions = before ++ after) {r : ProfileLifecycleRecord}
    (hr : (runSessions fuel before).record = some r) (hph : r.phase ≠ .idle) :
    ∃ boot, r.recovery = .bootScoped boot ∧ LastStarted fuel before boot := by
  induction before using reverseRecOn generalizing after r with
  | nil => cases hr
  | append_singleton before s ih =>
    have he' : h.sessions = before ++ s :: after := by rw [he, append_assoc]; exact rfl
    have hso := sound_runSessions fuel before
    rw [runSessions_snoc] at hr
    by_cases hcm : s.Commits fuel (runSessions fuel before)
    · obtain ⟨r', hr', -, hbo⟩ := stuck_of_commits hso (hf _ _ _ he') hcm ⟨r, hr, hph⟩
      rw [hr] at hr'
      cases hr'
      refine ⟨s.boot, hbo, before, s, [], rfl, rfl, hcm, ?_⟩
      rintro mid s' rest hn
      cases mid <;> cases hn
    · obtain ⟨r₀, hr₀, hph₀, hsa⟩ := open_before hso hcm hr hph
      obtain ⟨boot, hbo, earlier, s₀, later, rfl, hs₀, hst, hl⟩ := ih he' hr₀ hph₀
      refine ⟨boot, hsa.trans hbo, earlier, s₀, later ++ [s], by simp, hs₀, hst, ?_⟩
      intro mid s' rest hmid
      rcases eq_nil_or_concat rest with rfl | ⟨rest, last, rfl⟩
      · obtain ⟨rfl, hsa'⟩ := append_inj' hmid rfl
        cases hsa'
        exact hcm
      · rw [concat_eq_append, ← cons_append, ← append_assoc] at hmid
        obtain ⟨hmid', -⟩ := append_inj' hmid rfl
        exact hl mid s' rest hmid'

/-- The lifecycle of a persistent profile over boots. -/
theorem lifecycle_law (fuel : ℕ) (h : History) : LifecycleLaw fuel h where
  ends := fun before _ _ boot process => begin_ends (sound_runSessions fuel before) boot process
  readable := by
    intro before _ _
    have hs := sound_runSessions fuel before
    rw [hs.record, hs.last, Option.isSome_map]
  owner := fun before _ _ r hr => ((sound_runSessions fuel before).stored r hr).owner
  closed := by
    intro hf before s₁ between s₂ after he hbo hcm ho
    have hbe := grouped h.distinct he hbo
    have hs := sound_runSessions fuel before
    rw [runSessions_snoc] at ho
    have hst := stuck_of_commits hs (hf _ _ _ he) hcm ho
    rw [← runSessions_snoc] at hst
    have hl := stuck_sessions hst hbe
    rw [append_assoc, singleton_append, hbo] at hl
    exact (stuck_run (sound_runSessions fuel _) hl).2
  names := fun hf _ _ he _ hr hph => names_boot hf he hr hph

end Law

/-! ## A boot that reopens -/

/-- A clean session in one boot; in the next one a crash, and then another session. -/
def reopenedHistory : History where
  boots :=
    [⟨⟨List.replicate 16 1, rfl, by decide⟩, [(⟨1, 1, by decide, by decide⟩,
        List.replicate 4 (.answer ()))]⟩,
      ⟨⟨List.replicate 16 2, rfl, by decide⟩, [(⟨2, 2, by decide, by decide⟩, [.answer ()]),
        (⟨3, 3, by decide, by decide⟩, List.replicate 3 (.answer ()))]⟩]
  distinct := by decide

theorem boot_reopens : ¬ ∀ before s₁ between s₂ after,
    reopenedHistory.sessions = before ++ s₁ :: (between ++ s₂ :: after) → s₁.boot = s₂.boot →
    s₁.Commits 0 (runSessions 0 before) → LeftOpen (runSessions 0 (before ++ [s₁])) →
    ¬ s₂.Commits 0 (runSessions 0 (before ++ s₁ :: between)) := by
  intro hcl
  refine hcl [_] _ [] _ [] rfl rfl ?_ ?_ ?_
  · decide +kernel
  · exact ⟨_, rfl, nofun⟩
  · decide +kernel

end Keld.Profile
