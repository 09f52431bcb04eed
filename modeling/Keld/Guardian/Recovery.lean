/-
# `Keld.Guardian.Recovery` — the host's recovery decision

Whether a successor may be provisioned is decided by two parties under one lock:
the generation worker says which attempt was retired and cleared, the host arms
or denies.  The first `arm` is initial Ready; each later one releases the
successor of the attempt retired by then.  A denial is permanent.
-/
import Mathlib.Tactic.Common
import Mathlib.Data.Nat.Notation
import Mathlib.Data.Nat.Basic
import Mathlib.Algebra.Group.Nat.Defs

namespace Keld.Guardian

/-- `u32::checked_add(1)`. -/
def checkedSucc (n : ℕ) : Option ℕ := if n + 1 < 2 ^ 32 then some (n + 1) else none

theorem checkedSucc_eq_some {n m : ℕ} (h : checkedSucc n = some m) : m = n + 1 := by
  unfold checkedSucc at h
  split_ifs at h
  cases h
  rfl

structure RecoveryState where
  initialReady : Bool := false
  denied : Bool := false
  retiredAttempt : Option ℕ := none
  clearedAttempt : Option ℕ := none
  releaseAttempt : Option ℕ := none
  expectedAttempt : ℕ := 1
  shutdownAcknowledged : Bool := false
deriving DecidableEq, Repr

namespace RecoveryState

def arm (r : RecoveryState) : RecoveryState :=
  if r.denied then r
  else if !r.initialReady then { r with initialReady := true }
  else { r with releaseAttempt := r.retiredAttempt.bind checkedSucc }

def deny (r : RecoveryState) : RecoveryState := { r with denied := true, releaseAttempt := none }

def retire (r : RecoveryState) (attempt : ℕ) : RecoveryState :=
  { r with retiredAttempt := some attempt, clearedAttempt := none, releaseAttempt := none }

/-- The attempt after `attempt` is next, unless the counter is exhausted. -/
def cleared (r : RecoveryState) (attempt : ℕ) : Option RecoveryState :=
  (checkedSucc attempt).map fun next =>
    { r with expectedAttempt := next, clearedAttempt := some attempt }

def permits (r : RecoveryState) (attempt : ℕ) : Bool :=
  !r.denied && r.expectedAttempt == attempt &&
    (attempt == 1 ||
      (r.initialReady && r.releaseAttempt == some attempt &&
        r.clearedAttempt == r.retiredAttempt &&
        r.retiredAttempt.bind checkedSucc == some attempt))

end RecoveryState

end Keld.Guardian
