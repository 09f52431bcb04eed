/-
# `Keld.Guardian.Tells` — what an ordered log says

`Tells m log` is everything that the phase `m` remembers about the log that led
to it: how many leases were minted and revoked, which attempts were permitted,
and for the last attempt how it was retired.  It holds of every ordered log
(`tells_of_phase`), one event at a time.
-/
import Keld.Lib.Trace
import Keld.Guardian.Order
import Mathlib.Data.List.Induction

namespace Keld.Guardian

open Keld.Runtime List

/-! ## Histories -/

def provisionOf : HostEvent → Option ℕ
  | .provisioned n => some n
  | _ => none

def revocationOf : HostEvent → Option ℕ
  | .revoked n => some n
  | _ => none

/-- How many bytes of a record there were when the peer closed. -/
def closureOf : HostEvent → Option ℕ
  | .closed n => some n
  | _ => none

/-- The attempt of a written REGISTERED. -/
def registrationOf : HostEvent → Option ℕ
  | .wrote r => if r.kind = controlRegistered then some r.attempt else none
  | _ => none

/-- The attempts that were provisioned, in order. -/
def provisionsOf (log : List HostEvent) : List ℕ := log.filterMap provisionOf

def revocationsOf (log : List HostEvent) : List ℕ := log.filterMap revocationOf

def registrationsOf (log : List HostEvent) : List ℕ := log.filterMap registrationOf

def closuresOf (log : List HostEvent) : List ℕ := log.filterMap closureOf

/-- The written CLEARED of an attempt. -/
def IsCleared (n : ℕ) (e : HostEvent) : Prop :=
  ∃ r, e = .wrote r ∧ r.kind = controlCleared ∧ r.attempt = n

/-- The attempt's lease was revoked, its group proved gone if there was one, and CLEARED written,
in that order.  Only a shutdown takes a group away from this. -/
def Finished (n : ℕ) (log : List HostEvent) : Prop :=
  ∃ c, IsCleared n c ∧ [.revoked n, c].Sublist log ∧
    (.denied ∈ log ∨ (∀ pid, .retained n pid ∉ log) ∨
      [.revoked n, .terminated n true, c].Sublist log)

/-- An arm after the attempt was retired, when initial Ready had been armed before. -/
def ArmedAfter (n : ℕ) (log : List HostEvent) : Prop :=
  ∃ before after, log = before ++ .armed :: after ∧ .armed ∈ before ∧ .retired n ∈ before

/-- The group was retained, and nobody has given it up since. -/
def Holding (n pid : ℕ) (log : List HostEvent) : Prop :=
  ∃ before after, log = before ++ .retained n pid :: after ∧
    ∀ k, .released k ∉ after ∧ .taken k ∉ after

/-- What the phase remembers about the log. -/
structure Tells (m : Phase) (log : List HostEvent) : Prop where
  provisions : provisionsOf log = List.range' 1 m.attempt
  leases : (revocationsOf log).length + (if m.stage.leased then 1 else 0) = m.attempt
  denied : m.denied = true ↔ .denied ∈ log
  ready : m.ready = true → .armed ∈ log
  registered_nodup : (registrationsOf log).Nodup
  registered_le : ∀ n ∈ registrationsOf log, n ≤ m.attempt
  registered_fresh : m.stage = .minted ∨ m.stage = .held → m.attempt ∉ registrationsOf log
  acknowledged : m.acknowledged = true → .acknowledged ∈ log
  group : ∀ pid, m.group = some pid → Holding m.attempt pid log
  retained_le : ∀ n pid, .retained n pid ∈ log → n ≤ m.attempt
  empty : m.stage = .idle ∨ m.stage = .asked → m.group = none
  minted_fresh : m.stage = .minted → ∀ pid, .retained m.attempt pid ∉ log
  retired : m.stage = .retired ∨ m.stage = .revoked ∨ m.stage = .acked ∨
    (m.stage = .idle ∨ m.stage = .asked) ∧ m.attempt ≠ 0 → .retired m.attempt ∈ log
  revoked : m.stage = .revoked ∨ m.stage = .acked → .revoked m.attempt ∈ log
  gone : m.gone = true → ∃ log', log = log' ++ [.terminated m.attempt true]
  groupless : m.group = none → m.denied = true ∨ (∀ pid, .retained m.attempt pid ∉ log) ∨
    [.revoked m.attempt, .terminated m.attempt true].Sublist log
  finished : m.stage = .idle ∨ m.stage = .asked → m.attempt = 0 ∨ Finished m.attempt log
  release : m.release = true → .armed ∈ log ∧
    (.retired m.attempt ∈ log → ArmedAfter m.attempt log)

theorem tells_nil : Tells {} [] := by
  constructor <;> simp [provisionsOf, revocationsOf, registrationsOf, Stage.leased]

variable {n pid : ℕ} {e : HostEvent}

theorem Finished.snoc {log : List HostEvent} (h : Finished n log) (he : ∀ pid, e ≠ .retained n pid)
    : Finished n (log ++ [e]) := by
  obtain ⟨c, hc, hs, hg⟩ := h
  have happ : log.Sublist (log ++ [e]) := sublist_append_left _ _
  refine ⟨c, hc, hs.trans happ, ?_⟩
  rcases hg with h | h | h
  · exact .inl (mem_append_left _ h)
  · refine .inr (.inl (fun pid hm => ?_))
    rcases mem_snoc.mp hm with hm | hm
    · exact h pid hm
    · exact he pid hm.symm
  · exact .inr (.inr (h.trans happ))

theorem ArmedAfter.snoc {log : List HostEvent} (h : ArmedAfter n log) :
    ArmedAfter n (log ++ [e]) := by
  obtain ⟨before, after, rfl, har, hre⟩ := h
  exact ⟨before, after ++ [e], by simp, har, hre⟩

theorem Holding.mem {log : List HostEvent} (h : Holding n pid log) : .retained n pid ∈ log := by
  obtain ⟨before, after, rfl, -⟩ := h
  simp

theorem Holding.snoc {log : List HostEvent} (h : Holding n pid log)
    (hre : ∀ k, e ≠ .released k) (ht : ∀ k, e ≠ .taken k) :
    Holding n pid (log ++ [e]) := by
  obtain ⟨before, after, rfl, hk⟩ := h
  refine ⟨before, after ++ [e], by simp, fun k => ⟨fun hm => ?_, fun hm => ?_⟩⟩
  · rcases mem_snoc.mp hm with hm | hm
    · exact (hk k).1 hm
    · exact hre k hm.symm
  · rcases mem_snoc.mp hm with hm | hm
    · exact (hk k).2 hm
    · exact ht k hm.symm

theorem holding_retained (n pid : ℕ) (log : List HostEvent) :
    Holding n pid (log ++ [.retained n pid]) :=
  ⟨log, [], rfl, fun _ => ⟨not_mem_nil, not_mem_nil⟩⟩

theorem sublist_snoc {l log : List HostEvent} (e : HostEvent) (h : l.Sublist log) :
    l.Sublist (log ++ [e]) :=
  h.trans (sublist_append_left _ _)

@[simp, grind =] theorem provisionsOf_snoc (log : List HostEvent) (e : HostEvent) :
    provisionsOf (log ++ [e]) = provisionsOf log ++ (provisionOf e).toList := by
  unfold provisionsOf
  rw [filterMap_append]
  cases h : provisionOf e <;> simp [h]

@[simp, grind =] theorem revocationsOf_snoc (log : List HostEvent) (e : HostEvent) :
    revocationsOf (log ++ [e]) = revocationsOf log ++ (revocationOf e).toList := by
  unfold revocationsOf
  rw [filterMap_append]
  cases h : revocationOf e <;> simp [h]

@[simp, grind =] theorem registrationsOf_snoc (log : List HostEvent) (e : HostEvent) :
    registrationsOf (log ++ [e]) = registrationsOf log ++ (registrationOf e).toList := by
  unfold registrationsOf
  rw [filterMap_append]
  cases h : registrationOf e <;> simp [h]

@[simp] theorem closuresOf_snoc (log : List HostEvent) (e : HostEvent) :
    closuresOf (log ++ [e]) = closuresOf log ++ (closureOf e).toList := by
  unfold closuresOf
  rw [filterMap_append]
  cases h : closureOf e <;> simp [h]

/-! ## One event more -/

section Snoc

variable {m m' : Phase} {log : List HostEvent}

variable {e : HostEvent} {r : GenerationControlRecord} {n : ℕ}

/-- An event that no history mentions, after which the phase has the same attempt in the same
stage, with its group or without. -/
theorem Tells.quiet (h : Tells m log) (hpr : provisionOf e = none)
    (hrv : revocationOf e = none) (hrg : registrationOf e = none)
    (hret : ∀ n pid, e ≠ .retained n pid) (hrt : ∀ n, e ≠ .retired n)
    (hs : m'.stage = m.stage) (hatt : m'.attempt = m.attempt)
    (hgr : (m'.group = m.group ∧ ∀ k, e ≠ .released k ∧ e ≠ .taken k) ∨ m'.group = none)
    (hack : m'.acknowledged = true → .acknowledged ∈ log ++ [e])
    (hden : m'.denied = true ↔ .denied ∈ log ++ [e])
    (hre : m'.ready = true → .armed ∈ log ++ [e])
    (hgo : m'.gone = true → e = .terminated m.attempt true)
    (hgp : m'.group = none → m'.denied = true ∨ (∀ pid, .retained m.attempt pid ∉ log) ∨
      [.revoked m.attempt, .terminated m.attempt true].Sublist log)
    (hrel : m'.release = true → m.release = true ∨ e = .armed ∧ .armed ∈ log) :
    Tells m' (log ++ [e]) where
  provisions := by
    rw [provisionsOf_snoc, hpr, hatt]
    exact (append_nil _).trans h.provisions
  leases := by
    rw [revocationsOf_snoc, hrv, hs, hatt]
    simpa using h.leases
  denied := hden
  ready := hre
  registered_nodup := by
    rw [registrationsOf_snoc, hrg]
    simpa using h.registered_nodup
  registered_le := by
    rw [registrationsOf_snoc, hrg, hatt]
    simpa using h.registered_le
  registered_fresh := by
    rw [registrationsOf_snoc, hrg, hs, hatt]
    simpa using h.registered_fresh
  group := by
    intro pid hpid
    rw [hatt]
    rcases hgr with ⟨hsa, hk⟩ | hn
    · rw [hsa] at hpid
      exact (h.group pid hpid).snoc (fun k => (hk k).1) (fun k => (hk k).2)
    · rw [hn] at hpid
      cases hpid
  acknowledged := hack
  retained_le := by
    intro n pid hm
    rw [hatt]
    exact h.retained_le n pid (mem_of_snoc hm ((hret n pid).symm))
  empty := by
    intro hi
    rw [hs] at hi
    rcases hgr with ⟨hsa, -⟩ | hn
    · rw [hsa]
      exact h.empty hi
    · exact hn
  minted_fresh := by
    intro hmi pid hm
    rw [hs] at hmi
    rw [hatt] at hm
    rcases mem_snoc.mp hm with hm | hm
    · exact h.minted_fresh hmi pid hm
    · exact hret _ pid hm.symm
  retired := by
    rw [hs, hatt]
    exact fun hst => mem_append_left _ (h.retired hst)
  revoked := by
    rw [hs, hatt]
    exact fun hst => mem_append_left _ (h.revoked hst)
  gone := by
    intro hg
    rw [hgo hg, hatt]
    exact ⟨log, rfl⟩
  groupless := by
    intro hn
    rw [hatt]
    rcases hgp hn with hd | hfr | hsu
    · exact .inl hd
    · refine .inr (.inl (fun pid hm => ?_))
      rcases mem_snoc.mp hm with hm | hm
      · exact hfr pid hm
      · exact hret _ pid hm.symm
    · exact .inr (.inr (sublist_snoc e hsu))
  finished := by
    intro hi
    rw [hs] at hi
    rw [hatt]
    exact (h.finished hi).imp_right fun hf => hf.snoc (hret _)
  release := by
    intro hr
    rw [hatt]
    rcases hrel hr with ho | ⟨rfl, har⟩
    · obtain ⟨har, haf⟩ := h.release ho
      refine ⟨mem_append_left _ har, fun hm => ?_⟩
      exact (haf (mem_of_snoc hm ((hrt _).symm))).snoc
    · refine ⟨mem_append_left _ har, fun hm => ?_⟩
      exact ⟨log, [], rfl, har, (mem_of_snoc hm nofun)⟩

theorem Tells.denied_snoc (h : Tells m log) (he : e ≠ .denied) :
    m.denied = true ↔ .denied ∈ log ++ [e] := by
  rw [h.denied, mem_append, mem_singleton, or_iff_left (Ne.symm he)]

theorem Tells.acknowledged_snoc (h : Tells m log) (ha : m.acknowledged = true) :
    .acknowledged ∈ log ++ [e] :=
  mem_append_left _ (h.acknowledged ha)

theorem Tells.ready_snoc (h : Tells m log) (hr : m.ready = true) : .armed ∈ log ++ [e] :=
  mem_append_left _ (h.ready hr)

theorem Tells.judge (h : Tells m log) (fault : Fault) :
    Tells { m with gone := false, fault := fault } (log ++ [.got r]) := by
  refine h.quiet rfl rfl rfl nofun nofun rfl rfl
    (.inl ⟨rfl, fun _ => ⟨nofun, nofun⟩⟩) h.acknowledged_snoc
    (h.denied_snoc nofun) h.ready_snoc (fun hg => ?_) h.groupless .inl
  cases hg

theorem Tells.got (h : Tells m log) (hs : m.step (.got r) = some m') :
    Tells m' (log ++ [.got r]) := by
  obtain ⟨hcl, rfl⟩ := guarded_eq_some.mp hs
  split_ifs with hex hki hclms
  · -- PREPARE in order: the stage before was idle
    rcases hex with ⟨hi, -⟩ | ⟨-, hk, -⟩ | ⟨-, hk, -⟩ | ⟨-, hk, -⟩
    · have hq : Tells { m with gone := false } (log ++ [.got r]) := h.judge m.fault
      exact
        { hq with
          leases := by
            have := hq.leases
            simp only [hi, Stage.leased, reduceCtorEq, or_self, if_false] at this ⊢
            exact this
          registered_fresh := fun hst => by simp only [reduceCtorEq, or_self] at hst
          empty := fun _ => hq.empty (.inl hi)
          minted_fresh := nofun
          retired := fun hst => hq.retired (by simp_all)
          revoked := fun hst => by simp only [reduceCtorEq, or_self] at hst
          finished := fun _ => hq.finished (.inl hi)
          release := hq.release }
    all_goals
      rw [hki] at hk
      cases hk
  · exact h.judge m.fault
  · exact h.judge .claim
  · exact h.judge .order

/-- The group was given up: it was just proved gone, after the revocation or a denial. -/
theorem Tells.give (h : Tells m log) (hs : m.step (.released n) = some m') :
    Tells m' (log ++ [.released n]) := by
  obtain ⟨⟨-, -, hg, hwh⟩, rfl⟩ := guarded_eq_some.mp hs
  refine h.quiet rfl rfl rfl nofun nofun rfl rfl
    (.inr rfl) h.acknowledged_snoc (h.denied_snoc nofun) h.ready_snoc nofun (fun _ => ?_) .inl
  rcases hwh with hac | hden
  · obtain ⟨log', rfl⟩ := h.gone hg
    have hre := h.revoked (.inr hac)
    simp only [mem_append, mem_singleton, reduceCtorEq, or_false] at hre
    exact .inr (.inr ((singleton_sublist.mpr hre).append (List.Sublist.refl _)))
  · exact .inl hden

/-- CLEARED, with no group left, finishes the attempt. -/
theorem Tells.finish (h : Tells m log) (hac : m.stage = .acked) (hg : m.group = none)
    (hk : r.kind = controlCleared) (hatt : r.attempt = m.attempt) :
    Finished m.attempt (log ++ [.wrote r]) := by
  have hre : HostEvent.revoked m.attempt ∈ log := h.revoked (.inr hac)
  refine ⟨.wrote r, ⟨r, rfl, hk, hatt⟩,
    (singleton_sublist.mpr hre).append (List.Sublist.refl _), ?_⟩
  rcases h.groupless hg with hden | hf | hs
  · exact .inl (mem_append_left _ (h.denied.mp hden))
  · refine .inr (.inl (fun pid hm => ?_))
    exact hf pid (mem_of_snoc hm nofun)
  · exact .inr (.inr (hs.append (List.Sublist.refl _)))

/-- Only the second arm, and later ones, release. -/
theorem Tells.arm (h : Tells m log) (hs : m.step .armed = some m') :
    Tells m' (log ++ [.armed]) := by
  rw [Phase.step] at hs
  have har : HostEvent.armed ∈ log ++ [.armed] := by simp
  split_ifs at hs with hden hr
  all_goals cases hs
  · exact h.quiet rfl rfl rfl nofun nofun rfl rfl
      (.inl ⟨rfl, fun _ => ⟨nofun, nofun⟩⟩) h.acknowledged_snoc
      (h.denied_snoc nofun) h.ready_snoc nofun h.groupless .inl
  · exact h.quiet rfl rfl rfl nofun nofun rfl rfl
      (.inl ⟨rfl, fun _ => ⟨nofun, nofun⟩⟩) h.acknowledged_snoc
      (h.denied_snoc nofun) (fun _ => har) nofun h.groupless .inl
  · have hr : m.ready = true := by simpa using hr
    exact h.quiet rfl rfl rfl nofun nofun rfl rfl
      (.inl ⟨rfl, fun _ => ⟨nofun, nofun⟩⟩) h.acknowledged_snoc
      (h.denied_snoc nofun) h.ready_snoc nofun h.groupless
      (fun _ => .inr ⟨rfl, h.ready hr⟩)

/-- A lease more, and everything about its attempt is still to come. -/
theorem Tells.provisioned (h : Tells m log) (hs : m.step (.provisioned n) = some m') :
    Tells m' (log ++ [.provisioned n]) := by
  obtain ⟨⟨hak, rfl, hden, -, -⟩, rfl⟩ := guarded_eq_some.mp hs
  constructor
  case provisions =>
    simp only [provisionsOf_snoc, provisionOf, Option.toList_some, h.provisions, range'_concat]
    simp [Nat.add_comm]
  all_goals
    cases h
    grind -ring -linarith -ac -order [provisionOf, revocationOf, registrationOf, Stage.leased]

theorem Tells.retain {pid : ℕ} (h : Tells m log) (hs : m.step (.retained n pid) = some m') :
    Tells m' (log ++ [.retained n pid]) := by
  obtain ⟨⟨ho, rfl, hg⟩, rfl⟩ := guarded_eq_some.mp hs
  constructor
  case group =>
    intro p hp
    cases hp
    exact holding_retained m.attempt pid log
  all_goals
    cases h
    grind -ring -linarith -ac -order [provisionOf, revocationOf, registrationOf, Holding.mem,
      ArmedAfter.snoc, sublist_snoc, Stage.leased, Stage.open]

theorem Tells.retire (h : Tells m log) (hs : m.step (.retired n) = some m') :
    Tells m' (log ++ [.retired n]) := by
  obtain ⟨⟨ho, rfl⟩, rfl⟩ := guarded_eq_some.mp hs
  constructor
  case group => exact fun p hp => (h.group p hp).snoc nofun nofun
  all_goals
    cases h
    grind -ring -linarith -ac -order [provisionOf, revocationOf, registrationOf, sublist_snoc,
      Stage.leased, Stage.open]

/-- A lease fewer: the retired one, or the one of a refused spawn. -/
theorem Tells.revoke (h : Tells m log) (hs : m.step (.revoked n) = some m') :
    Tells m' (log ++ [.revoked n]) := by
  rw [Phase.step] at hs
  split_ifs at hs with hre
  all_goals
    obtain ⟨hgu, rfl⟩ := guarded_eq_some.mp hs
    constructor
  case pos.group => exact fun p hp => (h.group p hp).snoc nofun nofun
  case neg.group => exact fun p hp => (h.group p hp).snoc nofun nofun
  all_goals
    cases h
    grind -ring -linarith -ac -order [provisionOf, revocationOf, registrationOf, ArmedAfter.snoc,
      sublist_snoc, Stage.leased, Stage.open]

section Written

variable (h : Tells m log)
include h

theorem Tells.registered (hk : r.kind = controlRegistered) (hh : m.stage = .held)
    (hatt : r.attempt = m.attempt) (hg : m.group = some r.pid) :
    Tells { m with gone := false, stage := .running } (log ++ [.wrote r]) := by
  constructor
  case group => exact fun p hp => (h.group p hp).snoc nofun nofun
  all_goals
    cases h
    grind -ring -linarith -ac -order [provisionOf, revocationOf, registrationOf, ArmedAfter.snoc,
      sublist_snoc, Stage.leased]

theorem Tells.acked (hk : r.kind ≠ controlRegistered) (hs : m.stage = .revoked) :
    Tells { m with gone := false, stage := .acked } (log ++ [.wrote r]) := by
  constructor
  case group => exact fun p hp => (h.group p hp).snoc nofun nofun
  all_goals
    cases h
    grind -ring -linarith -ac -order [provisionOf, revocationOf, registrationOf, ArmedAfter.snoc,
      sublist_snoc, Stage.leased]

theorem Tells.cleared (hk : r.kind = controlCleared) (hs : m.stage = .acked)
    (hatt : r.attempt = m.attempt) (hg : m.group = none) :
    Tells { m with gone := false, stage := .idle } (log ++ [.wrote r]) := by
  have hreg : registrationOf (.wrote r) = none := by
    rw [registrationOf, hk]
    exact if_neg (by decide)
  have hfi : Finished m.attempt (log ++ [.wrote r]) := h.finish hs hg hk hatt
  constructor
  case group => exact fun p hp => (h.group p hp).snoc nofun nofun
  all_goals
    cases h
    grind -ring -linarith -ac -order [provisionOf, revocationOf, registrationOf, ArmedAfter.snoc,
      sublist_snoc, Stage.leased]

theorem Tells.wrote (hs : m.step (.wrote r) = some m') : Tells m' (log ++ [.wrote r]) := by
  rw [Phase.step, Phase.wrote] at hs
  split_ifs at hs with hpr hre hrevk hclr
  · -- PREPARED
    obtain ⟨-, rfl⟩ := guarded_eq_some.mp hs
    have hreg : registrationOf (.wrote r) = none := by
      rw [registrationOf, hpr]
      exact if_neg (by decide)
    exact h.quiet rfl rfl hreg nofun nofun rfl rfl
      (.inl ⟨rfl, fun _ => ⟨nofun, nofun⟩⟩) h.acknowledged_snoc
      (h.denied_snoc nofun) h.ready_snoc nofun h.groupless .inl
  · obtain ⟨⟨hh, -, -, hatt, hg⟩, rfl⟩ := guarded_eq_some.mp hs
    exact h.registered hre hh hatt hg
  · obtain ⟨⟨hst, -⟩, rfl⟩ := guarded_eq_some.mp hs
    exact h.acked hre hst
  · obtain ⟨⟨hst, -, hatt, hg⟩, rfl⟩ := guarded_eq_some.mp hs
    exact h.cleared hclr hst hatt hg

end Written

/-- An ordered event more. -/
theorem Tells.snoc (h : Tells m log) (hs : m.step e = some m') : Tells m' (log ++ [e]) := by
  cases e with
  | got r => exact h.got hs
  | provisioned n => exact h.provisioned hs
  | retained n pid => exact h.retain hs
  | wrote r => exact h.wrote hs
  | retired n => exact h.retire hs
  | revoked n => exact h.revoke hs
  | terminated n ok =>
    obtain ⟨rfl, rfl⟩ := guarded_eq_some.mp hs
    refine h.quiet rfl rfl rfl nofun nofun rfl rfl
      (.inl ⟨rfl, fun _ => ⟨nofun, nofun⟩⟩) h.acknowledged_snoc
      (h.denied_snoc nofun) h.ready_snoc (fun hok => ?_) h.groupless .inl
    have hok : ok = true := hok
    rw [hok]
  | released n => exact h.give hs
  | taken n =>
    obtain ⟨⟨-, -, hden⟩, rfl⟩ := guarded_eq_some.mp hs
    exact h.quiet rfl rfl rfl nofun nofun rfl rfl (.inr rfl) h.acknowledged_snoc
      (h.denied_snoc nofun) h.ready_snoc nofun (fun _ => .inl hden) .inl
  | closed n =>
    cases hs
    exact h.quiet rfl rfl rfl nofun nofun rfl rfl
      (.inl ⟨rfl, fun _ => ⟨nofun, nofun⟩⟩) h.acknowledged_snoc
      (h.denied_snoc nofun) h.ready_snoc nofun h.groupless .inl
  | armed => exact h.arm hs
  | denied =>
    cases hs
    exact h.quiet rfl rfl rfl nofun nofun rfl rfl
      (.inl ⟨rfl, fun _ => ⟨nofun, nofun⟩⟩) h.acknowledged_snoc
      (by simp) h.ready_snoc nofun (fun _ => .inl rfl) .inl
  | acknowledged =>
    cases hs
    exact h.quiet rfl rfl rfl nofun nofun rfl rfl (.inl ⟨rfl, fun _ => ⟨nofun, nofun⟩⟩) (by simp)
      (h.denied_snoc nofun) h.ready_snoc nofun h.groupless .inl

end Snoc

theorem tells_of_phase {log : List HostEvent} {m : Phase} (h : phase log = some m) :
    Tells m log := by
  induction log using reverseRecOn generalizing m with
  | nil =>
    cases h
    exact tells_nil
  | append_singleton log e ih =>
    rw [phase_snoc] at h
    obtain ⟨m', hm', hs⟩ := Option.bind_eq_some_iff.mp h
    exact (ih hm').snoc hs

end Keld.Guardian
