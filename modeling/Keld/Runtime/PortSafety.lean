/-
# `Keld.Runtime.PortSafety` — the port registry over every run

`PortsSafe` is the registry's contract, one field for each promise, stated of
one run; `ports_safe` proves it of all runs, by any principals in any order.

One promise is narrower than it could be.  An end whose owner keeps polling
after a close or a revocation sees exactly one disconnect provided that the
owner itself is not revoked: `pollDisconnect` turns a revoked principal away
before it looks at the pair, so such an owner never sees any
(`revoked_owner_sees_no_disconnect`).
-/
import Keld.Runtime.PortLaw

namespace Keld.Runtime

open VirtualPortRegistry List

variable {queueCapacity : ℕ}

/-! ## The principals -/

theorem mem_revoked_iff (queueCapacity : ℕ) (ops : List PortOp) (p : RolePrincipal) :
    p ∈ ((ports queueCapacity).run ops).revokedGenerations ↔ PortOp.revokeGeneration p ∈ ops := by
  induction ops using reverseRecOn with
  | nil => simp [ports, withQueueCapacity]
  | append_singleton ops op ih =>
    rw [(run_sound queueCapacity ops op).frame.2 p, ih, mem_append, mem_singleton]
    exact or_congr_right eq_comm

theorem queueCapacity_run (ops : List PortOp) :
    ((ports queueCapacity).run ops).queueCapacity = queueCapacity := by
  induction ops using reverseRecOn with
  | nil => rfl
  | append_singleton ops op ih => rw [(run_sound queueCapacity ops op).frame.1, ih]

/-! ## The pair generations -/

variable {r r' : VirtualPortRegistry} {cap : PortCapability} {who : RolePrincipal} {out : PortReply}
  {pair : PairState} {ops : List PortOp}

theorem Step.minted {op : PortOp} {out : PortOutcome} (h : Step r op r' out) :
    mintedBy out = [] ∧ r'.nextGeneration = r.nextGeneration ∨
      mintedBy out = [r.nextGeneration] ∧ r'.nextGeneration = r.nextGeneration + 1 := by
  cases h with
  | refused _ | ignored _ | registered _ | revoked => exact .inl ⟨rfl, rfl⟩
  | created _ _ _ _ => exact .inr ⟨rfl, rfl⟩
  | touched _ ht =>
    refine .inl ⟨?_, rfl⟩
    cases ht <;> rfl

theorem minted_run (ops : List PortOp) :
    (minted queueCapacity ops).Pairwise (· < ·) ∧
      ∀ g ∈ minted queueCapacity ops, g < ((ports queueCapacity).run ops).nextGeneration := by
  induction ops using reverseRecOn with
  | nil => exact ⟨List.Pairwise.nil, by simp [minted]⟩
  | append_singleton ops op ih =>
    obtain ⟨hso, hlt⟩ := ih
    have hsn : minted queueCapacity (ops ++ [op]) =
        minted queueCapacity ops ++ mintedBy ((ports queueCapacity).outcome ops op) := by
      simp [minted]
    rw [hsn]
    rcases (run_sound queueCapacity ops op).minted with ⟨hm, hn⟩ | ⟨hm, hn⟩
    · rw [hm, hn, append_nil]
      exact ⟨hso, hlt⟩
    · rw [hm, hn]
      constructor
      · refine pairwise_append.mpr ⟨hso, pairwise_singleton _ _, ?_⟩
        intro g hg g' hg'
        cases mem_singleton.mp hg'
        exact hlt g hg
      · intro g hg
        rcases mem_snoc.mp hg with hg | he
        · exact Nat.lt_succ_of_lt (hlt g hg)
        · cases he
          exact Nat.lt_succ_self _

/-! ## Accepted calls -/

theorem send_accepted {payload : PortMessage} (h : Step r (.send cap who payload) r' (.ok out)) :
    ∃ pair, r.pairs.get? cap.generation = some pair ∧ pair.revoked = false ∧
      (pair.endRef cap.side).owner = who := by
  cases h with
  | touched get ht =>
    cases ht with
    | sent _ _ live owner _ _ _ => exact ⟨_, get, live, owner⟩

theorem recv_accepted (h : Step r (.recv cap who) r' (.ok out)) :
    ∃ pair, r.pairs.get? cap.generation = some pair ∧ pair.revoked = false ∧
      (pair.endRef cap.side).owner = who := by
  cases h with
  | touched get ht =>
    cases ht with
    | received _ live owner => exact ⟨_, get, live, owner⟩

/-- Somebody closed an end of the pair, or it was revoked. -/
def PairState.Ended (pair : PairState) : Prop :=
  pair.revoked = true ∨ ∃ side, (pair.endRef side).closed = true

/-- On an ended pair a poll reports a disconnect unless one was reported before. -/
theorem observe_ended {revoked : List RolePrincipal} (inv : PairInv revoked queueCapacity pair)
    (he : pair.Ended) (side : PortEnd) :
    ((pair.endRef side).observe pair.revoked).1.disconnectObserved = true := by
  unfold EndState.observe
  by_cases hobs : (pair.endRef side).disconnectObserved = true
  · rw [if_pos hobs]
    exact hobs
  rw [if_neg hobs]
  by_cases hr : pair.revoked = true
  · rw [if_pos hr]
  rw [if_neg hr]
  have hcl : (pair.endRef side).closed = true ∨ (pair.endRef side).disconnectPending = true := by
    rcases he with h | ⟨s, hs⟩
    · exact absurd h hr
    · by_cases heq : s = side
      · rw [← heq]
        exact .inl hs
      · rw [PortEnd.eq_peer_of_ne heq] at hs
        rcases inv.told (eq_false_of_ne_true hr) side hs with h | h | h
        · exact .inl h
        · exact .inr h
        · exact absurd h hobs
  by_cases hp : (pair.endRef side).disconnectPending = true
  · rw [if_pos hp]
  · rw [if_neg hp, if_pos (hcl.resolve_right hp)]

theorem poll_owner {g : ℕ} {side : PortEnd} (hg : r.pairs.get? g = some pair)
    (hr : (pair.endRef side).owner ∉ r.revokedGenerations) :
    (r.step (.pollDisconnect ⟨g, side⟩ (pair.endRef side).owner)).1 =
      r.setPair g (pair.setEnd side ((pair.endRef side).observe pair.revoked).1) := by
  simp only [VirtualPortRegistry.step, reply, pollDisconnect, isGenerationRevoked, hr, hg,
    checkEndOwner_eq, decide_false, Bool.false_eq_true, if_false, if_true]

/-! ## The contract -/

/-- What the registry promises of one run, up to the operations `ops`. -/
structure PortsSafe (queueCapacity : ℕ) (ops : List PortOp) : Prop where
  /-- An unrevoked pair has no revoked principal as initial or current owner of either end. -/
  owners_unrevoked : ∀ g pair, ((ports queueCapacity).run ops).pairs.get? g = some pair →
    pair.revoked = false → ∀ side,
      (pair.endRef side).initialOwner ∉ ((ports queueCapacity).run ops).revokedGenerations ∧
      (pair.endRef side).owner ∉ ((ports queueCapacity).run ops).revokedGenerations
  live_not_revoked : ∀ p ∈ ((ports queueCapacity).run ops).liveGenerations,
    p ∉ ((ports queueCapacity).run ops).revokedGenerations
  /-- A revoked principal is revoked, and not live, in every continuation of the run. -/
  revoked_for_good : ∀ p ∈ ((ports queueCapacity).run ops).revokedGenerations, ∀ more,
    p ∈ ((ports queueCapacity).run (ops ++ more)).revokedGenerations ∧
      p ∉ ((ports queueCapacity).run (ops ++ more)).liveGenerations
  generations_fresh : (minted queueCapacity ops).Nodup
  queues_bounded : ∀ g pair, ((ports queueCapacity).run ops).pairs.get? g = some pair → ∀ side,
    (pair.endRef side).queue.length ≤ queueCapacity ∧
      ∀ m ∈ (pair.endRef side).queue, m.length ≤ maxPortMessageLen
  /-- What was received on an end is a prefix of what was sent from the other one. -/
  fifo : ∀ g side, receivedOn side (log queueCapacity ops g) <+:
    sentFrom side.peer (log queueCapacity ops g)
  sent_by_owner : ∀ cap who payload out,
    (ports queueCapacity).outcome ops (.send cap who payload) = .ok out →
      ∃ pair, ((ports queueCapacity).run ops).pairs.get? cap.generation = some pair ∧
        (pair.endRef cap.side).owner = who
  /-- A message goes to the owner of the end, and to nobody after a revocation of anyone who ever
  owned an end of the pair. -/
  received_by_owner : ∀ cap who m,
    (ports queueCapacity).outcome ops (.recv cap who) = .ok (.message (some m)) →
      (∃ pair, ((ports queueCapacity).run ops).pairs.get? cap.generation = some pair ∧
        (pair.endRef cap.side).owner = who) ∧
      ∀ side, ∀ p ∈ ownersOf side (log queueCapacity ops cap.generation),
        PortOp.revokeGeneration p ∉ ops
  /-- The owners an end has had: at most two, the last of them its current owner. -/
  owner_changes_once : ∀ g pair, ((ports queueCapacity).run ops).pairs.get? g = some pair →
    ∀ side, (ownersOf side (log queueCapacity ops g)).length ≤ 2 ∧
      (ownersOf side (log queueCapacity ops g)).getLast? = some (pair.endRef side).owner
  disconnect_at_most_once : ∀ g side,
    (disconnectsOn side (log queueCapacity ops g)).length ≤ 1
  /-- After a close or a revocation, one poll by the owner is enough to have seen exactly one
  disconnect, provided that the owner is not revoked. -/
  disconnect_exactly_once : ∀ g pair,
    ((ports queueCapacity).run ops).pairs.get? g = some pair → pair.Ended → ∀ side,
      (pair.endRef side).owner ∉ ((ports queueCapacity).run ops).revokedGenerations →
      (disconnectsOn side (log queueCapacity
        (ops ++ [.pollDisconnect ⟨g, side⟩ (pair.endRef side).owner]) g)).length = 1
  errors_change_nothing : ∀ op e, (ports queueCapacity).outcome ops op = .error e →
    (ports queueCapacity).run (ops ++ [op]) = (ports queueCapacity).run ops

theorem revoked_for_good_run {p : RolePrincipal}
    (hp : p ∈ ((ports queueCapacity).run ops).revokedGenerations) (more : List PortOp) :
    p ∈ ((ports queueCapacity).run (ops ++ more)).revokedGenerations ∧
      p ∉ ((ports queueCapacity).run (ops ++ more)).liveGenerations := by
  have hr : p ∈ ((ports queueCapacity).run (ops ++ more)).revokedGenerations := by
    rw [mem_revoked_iff] at hp ⊢
    exact mem_append_left _ hp
  refine ⟨hr, ?_⟩
  intro hl
  exact (registryInv_run queueCapacity (ops ++ more)).apart p hl hr

/-- What the log says of an end holds of pairs that were never minted, too. -/
theorem log_run (ops : List PortOp) (g : ℕ) (side : PortEnd) :
    receivedOn side (log queueCapacity ops g) <+: sentFrom side.peer (log queueCapacity ops g) ∧
      (disconnectsOn side (log queueCapacity ops g)).length ≤ 1 := by
  obtain ⟨hs, hn⟩ := endInv_run queueCapacity ops g
  cases hg : ((ports queueCapacity).run ops).pairs.get? g with
  | none =>
    rw [hn hg]
    exact ⟨prefix_refl _, Nat.zero_le _⟩
  | some pair =>
    have inv := hs pair hg side
    refine ⟨inv.prefixed, ?_⟩
    rw [inv.disconnects]
    split_ifs <;> decide

/-- **Virtual ports over every run.**  Whatever calls are made, by whichever principals and in
whichever order, the registry keeps `PortsSafe`. -/
theorem ports_safe (queueCapacity : ℕ) (ops : List PortOp) : PortsSafe queueCapacity ops := by
  have inv := registryInv_run queueCapacity ops
  refine ⟨?_, inv.apart, fun p hp more => revoked_for_good_run hp more, ?_, ?_,
    fun g side => (log_run ops g side).1, ?_, ?_, ?_, fun g side => (log_run ops g side).2, ?_, ?_⟩
  · intro g pair hg live
    exact (inv.pairs g pair hg).owners live
  · exact (minted_run ops).1.imp (fun h => Nat.ne_of_lt h)
  · intro g pair hg side
    have hb := (inv.pairs g pair hg).bounded side
    rw [queueCapacity_run] at hb
    exact hb
  · intro cap who payload out hou
    have hs := run_sound queueCapacity ops (.send cap who payload)
    rw [hou] at hs
    obtain ⟨pair, hg, -, how⟩ := send_accepted hs
    exact ⟨pair, hg, how⟩
  · intro cap who m hou
    have hs := run_sound queueCapacity ops (.recv cap who)
    rw [hou] at hs
    obtain ⟨pair, hg, live, how⟩ := recv_accepted hs
    refine ⟨⟨pair, hg, how⟩, ?_⟩
    intro side p hp
    rw [← mem_revoked_iff queueCapacity]
    obtain ⟨hi, ho⟩ := (inv.pairs _ pair hg).owners live side
    rw [((endInv_run queueCapacity ops _).1 pair hg side).owners] at hp
    split_ifs at hp with ht
    · rcases mem_pair.mp hp with rfl | rfl
      · exact hi
      · exact ho
    · cases mem_singleton.mp hp
      exact ho
  · intro g pair hg side
    rw [((endInv_run queueCapacity ops g).1 pair hg side).owners]
    split_ifs
    · exact ⟨le_rfl, rfl⟩
    · exact ⟨Nat.le_succ _, rfl⟩
  · intro g pair hg he side hre
    have hr : (ports queueCapacity).run
        (ops ++ [.pollDisconnect ⟨g, side⟩ (pair.endRef side).owner]) =
        ((ports queueCapacity).run ops).setPair g
          (pair.setEnd side ((pair.endRef side).observe pair.revoked).1) := by
      rw [Machine.run_snoc]
      exact poll_owner hg hre
    have hge : ((ports queueCapacity).run
        (ops ++ [.pollDisconnect ⟨g, side⟩ (pair.endRef side).owner])).pairs.get? g =
        some (pair.setEnd side ((pair.endRef side).observe pair.revoked).1) := by
      rw [hr, get?_setPair hg, if_pos rfl]
    rw [((endInv_run queueCapacity _ g).1 _ hge side).disconnects, PairState.endRef_setEnd_same,
      observe_ended (inv.pairs g pair hg) he side]
    rfl
  · intro op e hou
    have hs := run_sound queueCapacity ops op
    rw [hou] at hs
    generalize (ports queueCapacity).run (ops ++ [op]) = r' at hs ⊢
    cases hs with
    | refused _ => rfl

/-- A revoked principal can poll as often as it likes: the run stays where it is, and nothing is
noted. -/
theorem revoked_polls (hre : who ∈ ((ports queueCapacity).run ops).revokedGenerations) (g : ℕ)
    (n : ℕ) :
    (ports queueCapacity).run (ops ++ List.replicate n (.pollDisconnect cap who)) =
        (ports queueCapacity).run ops ∧
      log queueCapacity (ops ++ List.replicate n (.pollDisconnect cap who)) g =
        log queueCapacity ops g := by
  induction n with
  | zero => simp
  | succ n ih =>
    obtain ⟨hr, hl⟩ := ih
    have hs : ((ports queueCapacity).run ops).step (.pollDisconnect cap who) =
        ((ports queueCapacity).run ops, .error (.staleGeneration cap who)) := by
      simp only [VirtualPortRegistry.step, reply, pollDisconnect, isGenerationRevoked, hre,
        decide_true, if_true, Except.map]
    have ho : (ports queueCapacity).step
        ((ports queueCapacity).run (ops ++ List.replicate n (.pollDisconnect cap who)))
        (.pollDisconnect cap who) =
        ((ports queueCapacity).run ops, .error (.staleGeneration cap who)) := by
      rw [hr]
      exact hs
    rw [replicate_succ', ← append_assoc]
    constructor
    · rw [Machine.run_snoc, ho]
    · rw [log_snoc, Machine.outcome, ho, hl]
      exact append_nil _

/-- A primary and an app-bound role share a pair, and the primary is revoked. -/
def revokedOwnerRun : List PortOp :=
  [.registerGeneration ⟨.primary, 1⟩, .registerGeneration ⟨.appBound, 1⟩,
    .createPair ⟨.primary, 1⟩ ⟨.appBound, 1⟩, .revokeGeneration ⟨.primary, 1⟩]

/-- The pair that `revokedOwnerRun` leaves: its first end belongs to the revoked primary. -/
def revokedOwnerPair : PairState :=
  { endA :=
      { EndState.new ⟨.primary, 1⟩ with closed := true, disconnectPending := true }
    endB := EndState.new ⟨.appBound, 1⟩
    revoked := true }

/-- An owner that keeps polling after its own revocation never sees a disconnect. -/
theorem revoked_owner_sees_no_disconnect :
    ¬ ∀ ops g pair side, ((ports 64).run ops).pairs.get? g = some pair → pair.Ended →
      ∃ n, (disconnectsOn side (log 64
        (ops ++ List.replicate n (.pollDisconnect ⟨g, side⟩ (pair.endRef side).owner)) g)).length =
          1 := by
  intro h
  have hg : ((ports 64).run revokedOwnerRun).pairs.get? 1 = some revokedOwnerPair := by
    decide +kernel
  have hr : (revokedOwnerPair.endRef .a).owner ∈
      ((ports 64).run revokedOwnerRun).revokedGenerations := by
    decide +kernel
  obtain ⟨n, hn⟩ := h revokedOwnerRun 1 revokedOwnerPair .a hg (.inl rfl)
  rw [(revoked_polls hr 1 n).2] at hn
  exact absurd hn (by decide +kernel)

end Keld.Runtime
