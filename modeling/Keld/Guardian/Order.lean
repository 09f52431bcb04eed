/-
# `Keld.Guardian.Order` — the order that generation control keeps

The order is a small automaton over what happens: `Phase` is what it remembers
and `Phase.step` what may come next.  It knows nothing of the worker's
variables.  A log is `Ordered` when the automaton accepts it, and everything
that the order is for can be read off an accepted log: leases and attempts one
at a time (`Tells`), no permit and no lease after a denial, a successor only
after its predecessor was revoked, terminated and cleared, and after an arm.

A record out of this order puts the automaton into a phase from which it
accepts no grant and no further record.
-/
import Keld.Guardian.Host

namespace Keld.Guardian

open Keld.Runtime

/-! ## The automaton -/

/-- How far the current attempt has got. -/
inductive Stage where
  /-- No generation: the next attempt may be asked for. -/
  | idle
  /-- The next attempt was asked for. -/
  | asked
  /-- The attempt's lease is there, and no group. -/
  | minted
  /-- The attested group is retained, not yet permitted to run. -/
  | held
  | running
  /-- Recovery was told; the lease is about to be revoked. -/
  | retired
  | revoked
  /-- The revocation was acknowledged. -/
  | acked
  /-- A spawn was refused: nothing follows. -/
  | refused
deriving DecidableEq, Repr

/-- What is wrong with the records. -/
inductive Fault where
  | clean
  /-- A CLEAR claims no group where there is one; the shutdown may still take it. -/
  | claim
  | order
deriving DecidableEq, Repr

structure Phase where
  stage : Stage := .idle
  /-- Attempts provisioned so far. -/
  attempt : ℕ := 0
  group : Option ℕ := none
  ready : Bool := false
  /-- Armed since the last retirement. -/
  release : Bool := false
  denied : Bool := false
  acknowledged : Bool := false
  fault : Fault := .clean
  /-- The last event proved the group gone. -/
  gone : Bool := false
deriving DecidableEq, Repr

/-- The records that are in order. -/
def Phase.Expects (m : Phase) (r : GenerationControlRecord) : Prop :=
  (m.stage = .idle ∧ r.kind = controlPrepare ∧ r.attempt = m.attempt + 1 ∧ r.pid = 0 ∧
      r.cause = 0 ∧ r.payload = []) ∨
    (m.stage = .minted ∧ r.kind = controlSpawned ∧ r.attempt = m.attempt ∧ r.pid ≠ 0 ∧
      r.cause = 0 ∧ r.payload = []) ∨
    ((m.stage = .minted ∨ m.stage = .running) ∧ r.kind = controlRevoke ∧ r.attempt = m.attempt ∧
      r.pid = 0 ∧ r.payload = [] ∧ 1 ≤ r.cause ∧ r.cause ≤ 6) ∨
    (m.stage = .acked ∧ r.kind = controlClear ∧ r.attempt = m.attempt ∧ r.cause = 0 ∧
      r.payload = [] ∧ r.pid = m.group.getD 0)

instance (m : Phase) (r : GenerationControlRecord) : Decidable (m.Expects r) := by
  unfold Phase.Expects
  infer_instance

/-- A CLEAR that is in order but for the group, which it claims not to be there. -/
def Phase.Claims (m : Phase) (r : GenerationControlRecord) : Prop :=
  m.stage = .acked ∧ r.kind = controlClear ∧ r.attempt = m.attempt ∧ r.cause = 0 ∧
    r.payload = [] ∧ r.pid = 0

instance (m : Phase) (r : GenerationControlRecord) : Decidable (m.Claims r) := by
  unfold Phase.Claims
  infer_instance

/-- The stages in which the attempt's lease is live. -/
def Stage.leased (s : Stage) : Prop := s = .minted ∨ s = .held ∨ s = .running ∨ s = .retired

instance (s : Stage) : Decidable s.leased := by
  unfold Stage.leased
  infer_instance

/-- The stages of a lease that nobody has begun to revoke. -/
def Stage.open (s : Stage) : Prop := s = .minted ∨ s = .held ∨ s = .running

instance (s : Stage) : Decidable s.open := by
  unfold Stage.open
  infer_instance

/-- The phase after `m` if the guard holds. -/
def guarded (guard : Prop) [Decidable guard] (m : Phase) : Option Phase :=
  if guard then some m else none

theorem guarded_eq_some {guard : Prop} [Decidable guard] {m m' : Phase} :
    guarded guard m = some m' ↔ guard ∧ m' = m := by
  unfold guarded
  split_ifs with h
  · simp [h, eq_comm]
  · simp [h]

/-- A whole record written by the host. -/
def Phase.wrote (m : Phase) (r : GenerationControlRecord) : Option Phase :=
  if r.kind = controlPrepared then
    guarded (m.stage = .minted ∧ m.fault = .clean ∧ r.attempt = m.attempt) m
  else if r.kind = controlRegistered then
    guarded (m.stage = .held ∧ m.fault = .clean ∧ m.denied = false ∧ r.attempt = m.attempt ∧
      m.group = some r.pid) { m with stage := .running }
  else if r.kind = controlRevoked then
    guarded (m.stage = .revoked ∧ m.fault = .clean ∧ r.attempt = m.attempt) { m with stage := .acked }
  else if r.kind = controlCleared then
    guarded (m.stage = .acked ∧ m.fault = .clean ∧ r.attempt = m.attempt ∧ m.group = none)
      { m with stage := .idle }
  else none

/-- What may come next. -/
def Phase.step (m : Phase) (e : HostEvent) : Option Phase :=
  let m' := { m with gone := false }
  match e with
  | .got r =>
    guarded (m.fault = .clean)
      (if m.Expects r then
        (if r.kind = controlPrepare then { m' with stage := .asked } else m')
      else { m' with fault := if m.Claims r then .claim else .order })
  | .provisioned n =>
    guarded (m.stage = .asked ∧ n = m.attempt + 1 ∧ m.denied = false ∧ m.fault = .clean ∧
        (n = 1 ∨ m.ready = true ∧ m.release = true))
      { m' with stage := .minted, attempt := n, release := false }
  | .retained n pid =>
    guarded (m.stage.open ∧ n = m.attempt ∧ m.group = none)
      { m' with stage := if m.stage = .minted then .held else m.stage, group := some pid }
  | .wrote r => m'.wrote r
  | .retired n =>
    guarded (m.stage.open ∧ n = m.attempt) { m' with stage := .retired, release := false }
  | .revoked n =>
    if m.stage = .retired then guarded (n = m.attempt) { m' with stage := .revoked }
    else guarded (m.stage.open ∧ n = m.attempt ∧ m.denied = true) { m' with stage := .refused }
  | .terminated n ok => guarded (n = m.attempt) { m' with gone := ok }
  | .released n =>
    guarded (n = m.attempt ∧ m.group.isSome ∧ m.gone = true ∧
      (m.stage = .acked ∨ m.denied = true)) { m' with group := none }
  | .taken n =>
    guarded (n = m.attempt ∧ m.group.isSome ∧ m.denied = true)
      { m' with group := none, fault := if m.fault = .claim then .clean else m.fault }
  | .closed _ => some m'
  | .armed =>
    if m.denied then some m' else if m.ready = false then some { m' with ready := true }
    else some { m' with release := true }
  | .denied => some { m' with denied := true }
  | .acknowledged => some { m' with acknowledged := true }

/-- The phase after a log, if every event was in order. -/
def phase (log : List HostEvent) : Option Phase :=
  log.foldl (fun m e => m.bind (·.step e)) (some {})

theorem phase_append (log log' : List HostEvent) :
    phase (log ++ log') = log'.foldl (fun m e => m.bind (·.step e)) (phase log) :=
  List.foldl_append

variable {e : HostEvent}

theorem phase_snoc {log : List HostEvent} : phase (log ++ [e]) = (phase log).bind (·.step e) := by
  rw [phase_append]
  rfl

theorem foldl_none (log : List HostEvent) :
    log.foldl (fun m e => m.bind (·.step e)) (none : Option Phase) = none := by
  induction log with
  | nil => rfl
  | cons e log ih => exact ih

/-- The events were in order. -/
def Ordered (log : List HostEvent) : Prop := ∃ m, phase log = some m

theorem Ordered.of_append {log log' : List HostEvent} (h : Ordered (log ++ log')) :
    Ordered log := by
  obtain ⟨m, hm⟩ := h
  rw [phase_append] at hm
  cases hl : phase log with
  | none =>
    rw [hl, foldl_none] at hm
    cases hm
  | some m' => exact ⟨m', hl⟩

/-- The step at one event of an ordered log. -/
theorem Ordered.at {before after : List HostEvent} (h : Ordered (before ++ e :: after)) :
    ∃ m m', phase before = some m ∧ m.step e = some m' ∧ phase (before ++ [e]) = some m' := by
  have hs : before ++ e :: after = (before ++ [e]) ++ after := by simp
  rw [hs] at h
  have hup : Ordered (before ++ [e]) := h.of_append
  obtain ⟨m', hm'⟩ := hup
  obtain ⟨m, hm⟩ := Ordered.of_append (Exists.intro m' hm')
  refine ⟨m, m', hm, ?_, hm'⟩
  rw [phase_snoc, hm] at hm'
  exact hm'

end Keld.Guardian
