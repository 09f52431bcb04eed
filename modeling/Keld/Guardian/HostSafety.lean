/-
# `Keld.Guardian.HostSafety` — what the host guarantees to its own session

Whatever the guardian sends, and whenever the host's other threads arm, deny,
kill or shut down: every event of the session is as `HostSafe` says.  The facts
are read off the ordered log; `host_safe` says them of every run.
-/
import Keld.Guardian.HostTurn
import Keld.Guardian.HostProgress

namespace Keld.Guardian

open Keld.Runtime List GenerationControlRecord

/-! ## Reading an ordered log -/

section Reading

variable {before after log : List HostEvent} {m m' : Phase} {e : HostEvent}

/-- Nothing is granted, and no further record read or answered. -/
def Grantless (e : HostEvent) : Prop :=
  (∀ n, e ≠ .provisioned n) ∧ (∀ r, e ≠ .wrote r) ∧ ∀ r, e ≠ .got r

/-- The shutdown took the attempt's group. -/
def IsTaking (e : HostEvent) : Prop := ∃ n, e = .taken n

theorem wrote_clean {r : GenerationControlRecord} (h : m.step (.wrote r) = some m') :
    m.fault = .clean := by
  rw [Phase.step, Phase.wrote] at h
  split_ifs at h
  · exact (guarded_eq_some.mp h).1.2.1
  · exact (guarded_eq_some.mp h).1.2.1
  · exact (guarded_eq_some.mp h).1.2.1
  · exact (guarded_eq_some.mp h).1.2.1

/-- Out of a fault only a shutdown leads, and only where the fault is a claim. -/
theorem step_fault (h : m.step e = some m') (hfa : m.fault ≠ .clean)
    (ht : m.fault = .claim → ¬ IsTaking e) : m'.fault = m.fault ∧ Grantless e := by
  cases e with
  | got r => exact absurd (guarded_eq_some.mp h).1 hfa
  | provisioned n => exact absurd (guarded_eq_some.mp h).1.2.2.2.1 hfa
  | wrote r => exact absurd (wrote_clean h) hfa
  | retained | retired | terminated | released =>
    obtain ⟨-, rfl⟩ := guarded_eq_some.mp h
    exact ⟨rfl, by simp [Grantless]⟩
  | revoked n =>
    rw [Phase.step] at h
    split_ifs at h
    all_goals
      obtain ⟨-, rfl⟩ := guarded_eq_some.mp h
      exact ⟨rfl, by simp [Grantless]⟩
  | taken n =>
    obtain ⟨-, rfl⟩ := guarded_eq_some.mp h
    have hcl : m.fault ≠ .claim := fun hc => ht hc ⟨n, rfl⟩
    exact ⟨if_neg hcl, by simp [Grantless]⟩
  | closed | denied | acknowledged =>
    cases h
    exact ⟨rfl, by simp [Grantless]⟩
  | armed =>
    rw [Phase.step] at h
    split_ifs at h
    all_goals
      cases h
      exact ⟨rfl, by simp [Grantless]⟩

/-- A fault lasts to the end of the log. -/
theorem fault_lasts (h : phase before = some m) (h' : phase (before ++ after) = some m')
    (hfa : m.fault ≠ .clean) (ht : m.fault = .claim → ∀ e ∈ after, ¬ IsTaking e) :
    m'.fault = m.fault ∧ ∀ e ∈ after, Grantless e := by
  induction after using reverseRecOn generalizing m' with
  | nil =>
    rw [append_nil, h] at h'
    cases h'
    exact ⟨rfl, fun _ => nofun⟩
  | append_singleton after e ih =>
    rw [← append_assoc, phase_snoc] at h'
    obtain ⟨m₁, hm₁, hst⟩ := Option.bind_eq_some_iff.mp h'
    obtain ⟨hs, hgrs⟩ := ih hm₁ (fun hc e he => ht hc e (mem_append_left _ he))
    have hl : m'.fault = m₁.fault ∧ Grantless e := by
      refine step_fault hst (hs ▸ hfa) (fun hc => ?_)
      exact ht (hs ▸ hc) e (mem_append_right _ (mem_singleton_self e))
    refine ⟨hl.1.trans hs, fun e' he' => ?_⟩
    rcases mem_snoc.mp he' with hme | rfl
    · exact hgrs e' hme
    · exact hl.2

end Reading

/-! ## The guarantee -/

/-- The attempt's lease was revoked, its group, if there was one, proved gone, and CLEARED written,
in that order. -/
def Gone (n : ℕ) (log : List HostEvent) : Prop :=
  ∃ c, IsCleared n c ∧ [.revoked n, c].Sublist log ∧
    ((∀ pid, .retained n pid ∉ log) ∨ [.revoked n, .terminated n true, c].Sublist log)

/-- A session, as far as it has got. -/
structure HostSafe (log : List HostEvent) : Prop where
  consecutive : ∃ k, provisionsOf log = List.range' 1 k
  /-- At every moment at most one lease is minted and not revoked. -/
  one_lease : ∀ before after, log = before ++ after →
    (revocationsOf before).length ≤ (provisionsOf before).length ∧
      (provisionsOf before).length ≤ (revocationsOf before).length + 1
  registered_once : (registrationsOf log).Nodup
  /-- REGISTERED is for a group that is held, and recovery is not denied. -/
  registered : ∀ before after r, log = before ++ .wrote r :: after → r.kind = controlRegistered →
    Holding r.attempt r.pid before ∧ .denied ∉ before
  provisioned : ∀ before after n, log = before ++ .provisioned n :: after → .denied ∉ before
  /-- A successor waits for the end of its predecessor, and for an arm after its retirement. -/
  successor : ∀ before after n, log = before ++ .provisioned (n + 1) :: after → n ≠ 0 →
    Gone n before ∧ ArmedAfter n before
  /-- The worker gives a group up only when its signal has just proved it gone. -/
  released : ∀ before after n, log = before ++ .released n :: after →
    ∃ log', before = log' ++ [.terminated n true]
  /-- CLEARED says that the group is gone, whoever gave it up. -/
  cleared : ∀ before after r, log = before ++ .wrote r :: after → r.kind = controlCleared →
    Finished r.attempt (before ++ [.wrote r])
  /-- A record out of order is the last one, and nothing is granted after it; a CLEAR that is
  wrong about the group only stops being so when the shutdown takes the group. -/
  out_of_order : ∀ before after r m, log = before ++ .got r :: after → phase before = some m →
    ¬ m.Expects r → (m.Claims r → ∀ e ∈ after, ¬ IsTaking e) → ∀ e ∈ after, Grantless e

/-- A session that ended well. -/
structure Ended (s : HostState) : Prop where
  /-- The peer closed once, between two records. -/
  closed : closuresOf s.log = [0]
  lease : s.worker.lease = none
  leases : (provisionsOf s.log).length = (revocationsOf s.log).length
  group : s.current = none
  denied : .denied ∈ s.log
  acknowledged : .acknowledged ∈ s.log
  in_order : ∀ before after r m, s.log = before ++ .got r :: after → phase before = some m →
    m.Expects r ∨ m.Claims r ∧ ∃ e ∈ after, IsTaking e

variable {r : GenerationControlRecord}

section

variable {before after : List HostEvent} {m m' : Phase} (h : phase before = some m)
  (h' : phase (before ++ .got r :: after) = some m') (hexpects : ¬ m.Expects r)
include h h' hexpects

theorem phase_got :
    ∃ m₁, phase (before ++ [.got r]) = some m₁ ∧ phase (before ++ [.got r] ++ after) = some m' ∧
      m₁.fault = if m.Claims r then .claim else .order := by
  have hat : Ordered (before ++ .got r :: after) := ⟨m', h'⟩
  obtain ⟨m₀, m₁, hm₀, hs, hm₁⟩ := hat.at
  rw [h] at hm₀
  cases hm₀
  refine ⟨m₁, hm₁, by simpa using h', ?_⟩
  obtain ⟨-, rfl⟩ := guarded_eq_some.mp hs
  rw [if_neg hexpects]

/-- A record out of order leaves its fault at the end of the log. -/
theorem phase_fault (ht : m.Claims r → ∀ e ∈ after, ¬ IsTaking e) :
    m'.fault ≠ .clean ∧ ∀ e ∈ after, Grantless e := by
  obtain ⟨m₁, hm₁, he, hfa⟩ := phase_got h h' hexpects
  have hdi : m₁.fault ≠ .clean := by
    rw [hfa]
    split_ifs
    · exact nofun
    · exact nofun
  obtain ⟨hs, hgrs⟩ := fault_lasts hm₁ he hdi (fun hcl => ht (by
    by_contra hclms
    rw [hfa, if_neg hclms] at hcl
    cases hcl))
  exact ⟨hs ▸ hdi, hgrs⟩

end

theorem hostSafe_of_ordered {log : List HostEvent} (h : Ordered log) : HostSafe log := by
  obtain ⟨m, hm⟩ := h
  have hte := tells_of_phase hm
  refine ⟨⟨m.attempt, hte.provisions⟩, ?_, hte.registered_nodup, ?_, ?_, ?_, ?_, ?_, ?_⟩
  · rintro before after rfl
    obtain ⟨m₁, hm₁⟩ := Ordered.of_append ⟨m, hm⟩
    have h₁ := tells_of_phase hm₁
    have hl : (provisionsOf before).length = m₁.attempt := by
      rw [h₁.provisions, length_range']
    have hle := h₁.leases
    split_ifs at hle
    · omega
    · omega
  · rintro before after r rfl hk
    obtain ⟨m₀, m₁, hm₀, hs, -⟩ := Ordered.at ⟨m, hm⟩
    have h₀ := tells_of_phase hm₀
    rw [Phase.step, Phase.wrote, hk, if_neg (by decide), if_pos rfl] at hs
    obtain ⟨⟨-, -, hden, hatt, hg⟩, -⟩ := guarded_eq_some.mp hs
    refine ⟨?_, fun hme => ?_⟩
    · rw [hatt]
      exact h₀.group r.pid hg
    · have hd : m₀.denied = true := h₀.denied.mpr hme
      have hd' : m₀.denied = false := hden
      rw [hd] at hd'
      cases hd'
  · rintro before after n rfl hme
    obtain ⟨m₀, m₁, hm₀, hs, -⟩ := Ordered.at ⟨m, hm⟩
    obtain ⟨⟨-, -, hden, -⟩, -⟩ := guarded_eq_some.mp hs
    rw [(tells_of_phase hm₀).denied.mpr hme] at hden
    cases hden
  · rintro before after n rfl hn
    obtain ⟨m₀, m₁, hm₀, hs, -⟩ := Ordered.at ⟨m, hm⟩
    have h₀ := tells_of_phase hm₀
    obtain ⟨⟨hak, hatt, hden, -, hfr⟩, -⟩ := guarded_eq_some.mp hs
    have hn₀ : n = m₀.attempt := Nat.succ.inj hatt
    rcases hfr with hf | ⟨-, hrel⟩
    · exact absurd (Nat.succ.inj hf) hn
    have hre : HostEvent.retired m₀.attempt ∈ before :=
      h₀.retired (Or.inr (Or.inr (Or.inr ⟨Or.inr hak, hn₀ ▸ hn⟩)))
    rw [hn₀]
    refine ⟨?_, (h₀.release hrel).2 hre⟩
    rcases h₀.finished (Or.inr hak) with hz | ⟨c, hc, hsu, hd | hgo⟩
    · exact absurd hz (hn₀ ▸ hn)
    · rw [h₀.denied.mpr hd] at hden
      cases hden
    · exact ⟨c, hc, hsu, hgo⟩
  · rintro before after n rfl
    obtain ⟨m₀, m₁, hm₀, hs, -⟩ := Ordered.at ⟨m, hm⟩
    obtain ⟨⟨hatt, -, hgo, -⟩, -⟩ := guarded_eq_some.mp hs
    rw [hatt]
    exact (tells_of_phase hm₀).gone hgo
  · rintro before after r rfl hk
    obtain ⟨m₀, m₁, hm₀, hs, -⟩ := Ordered.at ⟨m, hm⟩
    rw [Phase.step, Phase.wrote, hk, if_neg (by decide), if_neg (by decide),
      if_neg (by decide), if_pos rfl] at hs
    obtain ⟨⟨hac, -, hatt, hg⟩, -⟩ := guarded_eq_some.mp hs
    rw [hatt]
    exact (tells_of_phase hm₀).finish hac hg hk hatt
  · rintro before after r m₀ rfl hm₀ hexpects ht
    exact (phase_fault hm₀ hm hexpects ht).2

theorem Closed.ended {m : Phase} {s : HostState} (h : Closed m s) : Ended s where
  closed := h.closures
  lease := h.lease
  leases := by
    have hte := tells_of_phase h.shared.log
    have hle := hte.leases
    rw [if_neg h.leased] at hle
    rw [hte.provisions, length_range']
    exact hle.symm
  group := h.shared.group_none.mp h.group
  denied := (tells_of_phase h.shared.log).denied.mp h.denied
  acknowledged := (tells_of_phase h.shared.log).acknowledged h.acknowledged
  in_order := by
    intro before after r m₀ hl hm₀
    by_contra hnot
    push Not at hnot
    have he := h.shared.log
    rw [hl] at he
    exact (phase_fault hm₀ he hnot.1 hnot.2).1 h.clean

/-- A run of the worker: whatever the script, the session is safe, it ends well only where
everything was given up, and it is cut only where the script is used up. -/
structure HostContract (appLink : ℕ → List UInt8) (fuel : ℕ)
    (script : List (Entry HostAct Answer)) : Prop where
  safe : HostSafe (runGenerationHost appLink fuel ⟨{}, script⟩).2.state.log
  ended : ∀ w, runGenerationHost appLink fuel ⟨{}, script⟩ = (.ok (), w) → Ended w.state
  cut : script.length < fuel → ∀ w, runGenerationHost appLink fuel ⟨{}, script⟩ =
    (.error .cut, w) → w.script = []

theorem host_safe (appLink : ℕ → List UInt8) (fuel : ℕ) (script : List (Entry HostAct Answer)) :
    HostContract appLink fuel script := by
  have hru := runGenerationHost_runs appLink fuel script
  have hta : script.length < fuel → _ :=
    takes_runGenerationHost (Nat.le_refl fuel) appLink ⟨{}, script⟩
  rcases ho : runGenerationHost appLink fuel ⟨{}, script⟩ with ⟨(- | e) | u, w⟩
  all_goals rw [ho] at hru hta
  · -- the script ran out
    obtain ⟨m, hm⟩ : Lawful w.state := hru
    refine ⟨?_, ?_, ?_⟩
    all_goals rw [ho]
    · exact hostSafe_of_ordered ⟨m, hm.log⟩
    · exact fun _ => nofun
    · intro hlt w' hw'
      cases hw'
      exact hta hlt
  · -- it failed
    obtain ⟨m, hm⟩ : Lawful w.state := hru
    refine ⟨?_, ?_, ?_⟩
    all_goals rw [ho]
    · exact hostSafe_of_ordered ⟨m, hm.log⟩
    · exact fun _ => nofun
    · exact fun _ _ => nofun
  · -- it returned
    obtain ⟨m, hm⟩ : Closes w.state := hru
    refine ⟨?_, ?_, ?_⟩
    all_goals rw [ho]
    · exact hostSafe_of_ordered ⟨m, hm.shared.log⟩
    · intro w' hw'
      cases hw'
      exact hm.ended
    · exact fun _ _ => nofun

/-- An honest start: PREPARE and SPAWNED of attempt 1 are answered by PREPARED and REGISTERED. -/
example :
    let prepare : GenerationControlRecord := .new controlPrepare 1
    let spawned := (new controlSpawned 1).withPid 7
    let script := List.replicate 2 (.answer {}) ++ [.answer { read := .record prepare }] ++
      List.replicate 10 (.answer {}) ++ [.answer { read := .record spawned }] ++
      List.replicate 10 (.answer {})
    (runGenerationHost (fun _ => [1]) 50 ⟨{}, script⟩).2.state.log =
      [.got prepare, .provisioned 1,
        .wrote ((new controlPrepared 1).withPayload [1]),
        .got spawned, .retained 1 7,
        .wrote ((new controlRegistered 1).withPid 7)] := by
  decide +kernel

end Keld.Guardian
