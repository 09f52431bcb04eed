/-
# `Keld.Runtime.PortSteps` — what one call of the port registry can do

`Step r op r' out` lists everything one call of the registry can do, guards
included: it is refused and leaves the registry as it was, it registers or
revokes a principal, it mints a pair, or it touches exactly one pair
(`Touch`).  `step_sound` says that the registry's own step is one of these, and
no later proof opens an operation of the registry again.

`PairStep` is the same seen from one pair, with the notes the call leaves in
the log of that pair; `step_pair` and `step_new` are the two ways a pair is in
the registry after a step.
-/
import Keld.Runtime.VirtualPort

namespace Keld.Runtime

open VirtualPortRegistry

/-! ## Ends -/

@[simp] theorem PortEnd.peer_peer (side : PortEnd) : side.peer.peer = side := by
  cases side <;> rfl

@[simp] theorem PortEnd.ne_peer (side : PortEnd) : side ≠ side.peer := by
  cases side <;> decide

theorem PortEnd.eq_peer_of_ne {side other : PortEnd} (h : other ≠ side) : other = side.peer := by
  cases side <;> cases other <;> first | rfl | exact absurd rfl h

namespace PairState

section

variable (pair : PairState) (side : PortEnd) (e : EndState)
include pair side e

@[simp] theorem endRef_setEnd_same : (pair.setEnd side e).endRef side = e := by
  cases side <;> rfl

@[simp] theorem endRef_setEnd_peer :
    (pair.setEnd side e).endRef side.peer = pair.endRef side.peer := by
  cases side <;> rfl

@[simp] theorem endRef_setEnd_of_peer :
    (pair.setEnd side.peer e).endRef side = pair.endRef side := by
  cases side <;> rfl

@[simp] theorem revoked_setEnd : (pair.setEnd side e).revoked = pair.revoked := by
  cases side <;> rfl

end

@[simp] theorem endRef_new (ownerA ownerB : RolePrincipal) (side : PortEnd) :
    (PairState.new ownerA ownerB).endRef side =
      EndState.new (match side with | .a => ownerA | .b => ownerB) := by
  cases side <;> rfl

end PairState

/-- The end that a close leaves on the other side. -/
def EndState.told (e : EndState) : EndState :=
  if !e.closed && !e.disconnectObserved then { e with disconnectPending := true } else e

/-! ## Steps -/

/-- An accepted call that touches one pair: the pair before and after, and the reply. -/
inductive Touch (r : VirtualPortRegistry) :
    PortOp → PortCapability → PairState → PairState → PortReply → Prop
  | sent {cap : PortCapability} {who : RolePrincipal} {payload : PortMessage} {pair : PairState}
      (unrevoked : who ∉ r.revokedGenerations)
      (len : payload.length ≤ maxPortMessageLen)
      (live : pair.revoked = false)
      (owner : (pair.endRef cap.side).owner = who)
      (isOpen : (pair.endRef cap.side).closed = false)
      (peerOpen : (pair.endRef cap.side.peer).closed = false)
      (room : (pair.endRef cap.side.peer).queue.length < r.queueCapacity) :
      Touch r (.send cap who payload) cap pair
        (pair.setEnd cap.side.peer
          { pair.endRef cap.side.peer with
            queue := (pair.endRef cap.side.peer).queue ++ [payload] }) .unit
  | transferred {cap : PortCapability} {who target : RolePrincipal} {pair : PairState}
      (unrevoked : who ∉ r.revokedGenerations)
      (targetUnrevoked : target ∉ r.revokedGenerations)
      (targetLive : target ∈ r.liveGenerations)
      (live : pair.revoked = false)
      (isOpen : (pair.endRef cap.side).closed = false)
      (peerOpen : (pair.endRef cap.side.peer).closed = false)
      (owner : (pair.endRef cap.side).owner = who)
      (other : target ≠ (pair.endRef cap.side).owner)
      (once : (pair.endRef cap.side).transferred = false) :
      Touch r (.transfer cap who target) cap pair
        (pair.setEnd cap.side
          { pair.endRef cap.side with owner := target, transferred := true }) (.capability cap)
  | closed {cap : PortCapability} {who : RolePrincipal} {pair : PairState}
      (live : pair.revoked = false)
      (owner : (pair.endRef cap.side).owner = who)
      (isOpen : (pair.endRef cap.side).closed = false) :
      Touch r (.close cap who) cap pair
        ((pair.setEnd cap.side { pair.endRef cap.side with closed := true }).setEnd
          cap.side.peer (pair.endRef cap.side.peer).told) .unit
  | received {cap : PortCapability} {who : RolePrincipal} {pair : PairState}
      (unrevoked : who ∉ r.revokedGenerations)
      (live : pair.revoked = false)
      (owner : (pair.endRef cap.side).owner = who) :
      Touch r (.recv cap who) cap pair
        (pair.setEnd cap.side
          { pair.endRef cap.side with queue := (pair.endRef cap.side).queue.tail })
        (.message (pair.endRef cap.side).queue.head?)
  | polled {cap : PortCapability} {who : RolePrincipal} {pair : PairState}
      (unrevoked : who ∉ r.revokedGenerations)
      (owner : (pair.endRef cap.side).owner = who) :
      Touch r (.pollDisconnect cap who) cap pair
        (pair.setEnd cap.side ((pair.endRef cap.side).observe pair.revoked).1)
        (.disconnect ((pair.endRef cap.side).observe pair.revoked).2)

/-- Everything one call of the registry can do. -/
inductive Step (r : VirtualPortRegistry) :
    PortOp → VirtualPortRegistry → PortOutcome → Prop
  | refused {op : PortOp} {e : VirtualPortError} (fallible : ∀ p, op ≠ .revokeGeneration p) :
      Step r op r (.error e)
  | ignored {p : RolePrincipal} (h : p ∈ r.revokedGenerations) :
      Step r (.registerGeneration p) r (.ok .unit)
  | registered {p : RolePrincipal} (h : p ∉ r.revokedGenerations) :
      Step r (.registerGeneration p)
        { r with liveGenerations := r.liveGenerations.insert p } (.ok .unit)
  | created {a b : RolePrincipal}
      (unrevokedA : a ∉ r.revokedGenerations) (unrevokedB : b ∉ r.revokedGenerations)
      (liveA : a ∈ r.liveGenerations) (liveB : b ∈ r.liveGenerations) :
      Step r (.createPair a b)
        { r with
          nextGeneration := r.nextGeneration + 1
          pairs := r.pairs.insert r.nextGeneration (PairState.new a b) }
        (.ok (.pair ⟨r.nextGeneration, .a⟩ ⟨r.nextGeneration, .b⟩))
  | touched {op : PortOp} {cap : PortCapability} {pair pair' : PairState} {out : PortReply}
      (get : r.pairs.get? cap.generation = some pair) (h : Touch r op cap pair pair' out) :
      Step r op (r.setPair cap.generation pair') (.ok out)
  | revoked {p : RolePrincipal} :
      Step r (.revokeGeneration p) (r.revokeGeneration p) (.ok .unit)

section Sound

variable (r : VirtualPortRegistry)

theorem checkEndOwner_eq (cap : PortCapability) (who : RolePrincipal) (e : EndState) :
    checkEndOwner cap who e =
      if e.owner = who then .ok () else .error (.foreignDelivery cap who) := by
  unfold checkEndOwner
  by_cases h : e.owner = who
  · rw [if_neg (not_not.mpr h), if_pos h]
  · rw [if_pos h, if_neg h]

/-- A call that can fail and leaves this is one of the steps listed. -/
def Leaves {α : Type} (op : PortOp) (f : α → PortReply)
    (result : VirtualPortRegistry × Except VirtualPortError α) : Prop :=
  (∀ p, op ≠ .revokeGeneration p) → Step r op (reply f result).1 (reply f result).2

section

variable {r} {α : Type} {op : PortOp} {f : α → PortReply}
  {result : VirtualPortRegistry × Except VirtualPortError α} {err : VirtualPortError}

theorem Leaves.refused : Leaves r op f (r, .error err) := Step.refused

theorem Leaves.unless {c : Prop} [Decidable c] (h : ¬ c → Leaves r op f result) :
    Leaves r op f (if c then (r, .error err) else result) := by
  split_ifs with hc
  · exact .refused
  · exact h hc

theorem Leaves.ofPair {generation : ℕ}
    {result : PairState → VirtualPortRegistry × Except VirtualPortError α}
    (h : ∀ pair, r.pairs.get? generation = some pair → Leaves r op f (result pair)) :
    Leaves r op f (match r.pairs.get? generation with
      | none => (r, .error err)
      | some pair => result pair) := by
  cases hg : r.pairs.get? generation with
  | none => exact .refused
  | some pair => exact h pair hg

theorem Leaves.ofOwner {cap : PortCapability} {who : RolePrincipal} {e : EndState}
    (h : e.owner = who → Leaves r op f result) :
    Leaves r op f (match checkEndOwner cap who e with
      | .error err => (r, .error err)
      | .ok () => result) := by
  rw [checkEndOwner_eq]
  by_cases ho : e.owner = who
  · rw [if_pos ho]
    exact h ho
  · rw [if_neg ho]
    exact .refused

end

theorem unrevoked {p : RolePrincipal} (h : ¬ r.isGenerationRevoked p = true) :
    p ∉ r.revokedGenerations := fun hm => h (decide_eq_true hm)

theorem live_of_not {p : RolePrincipal} (h : ¬ (!r.isGenerationLive p) = true) :
    p ∈ r.liveGenerations := by
  simpa [isGenerationLive] using h

theorem createPair_leaves (a b : RolePrincipal) :
    Leaves r (.createPair a b) (fun caps => .pair caps.1 caps.2) (r.createPair a b) := by
  unfold createPair stalePrincipal
  by_cases ha : r.isGenerationRevoked a = true
  · rw [if_pos ha]
    exact .refused
  by_cases hb : r.isGenerationRevoked b = true
  · rw [if_neg ha, if_pos hb]
    exact .refused
  rw [if_neg ha, if_neg hb]
  refine .unless fun hla => .unless fun hlb => ?_
  unfold mintGeneration
  split_ifs
  · exact fun _ => Step.created (unrevoked r ha) (unrevoked r hb) (live_of_not r hla)
      (live_of_not r hlb)
  · exact .refused

section

variable (cap : PortCapability)
include cap

theorem send_leaves (who : RolePrincipal) (payload : PortMessage) :
    Leaves r (.send cap who payload) (fun _ => .unit) (r.send cap who payload) := by
  refine .unless fun hr => .unless fun hle => .ofPair fun pair hg =>
    .unless fun hl => .ofOwner fun ho => .unless fun hcl =>
      .unless fun hro => ?_
  obtain ⟨hop, hpe⟩ := Bool.or_eq_false_iff.mp (eq_false_of_ne_true hcl)
  exact fun _ => Step.touched hg (.sent (unrevoked r hr) (not_lt.mp hle)
    (eq_false_of_ne_true hl) ho hop hpe (not_le.mp hro))

theorem transfer_leaves (who target : RolePrincipal) :
    Leaves r (.transfer cap who target) .capability (r.transfer cap who target) := by
  refine .unless fun hr => .unless fun htr => .unless fun htl =>
    .ofPair fun pair hg => .unless fun hl => .unless fun hcl => ?_
  obtain ⟨hop, hpe⟩ := Bool.or_eq_false_iff.mp (eq_false_of_ne_true hcl)
  split_ifs with ho hin hot hon
  · exact .refused
  · exact .refused
  · exact .refused
  · exact .refused
  · exact fun _ => Step.touched hg (.transferred (unrevoked r hr) (unrevoked r htr)
      (live_of_not r htl) (eq_false_of_ne_true hl) hop hpe (not_not.mp ho) hot
      (eq_false_of_ne_true hon))

theorem close_leaves (who : RolePrincipal) :
    Leaves r (.close cap who) (fun _ => .unit) (r.close cap who) := by
  refine .ofPair fun _ hg => .unless fun hl => .ofOwner fun ho =>
    .unless fun hcl => ?_
  exact fun _ => Step.touched hg (.closed (eq_false_of_ne_true hl) ho (eq_false_of_ne_true hcl))

theorem recv_leaves (who : RolePrincipal) : Leaves r (.recv cap who) .message (r.recv cap who) := by
  refine .unless fun hr => .ofPair fun _ hg => .unless fun hl =>
    .ofOwner fun ho => ?_
  exact fun _ => Step.touched hg (.received (unrevoked r hr) (eq_false_of_ne_true hl) ho)

theorem pollDisconnect_leaves (who : RolePrincipal) :
    Leaves r (.pollDisconnect cap who) .disconnect (r.pollDisconnect cap who) := by
  refine .unless fun hr => .ofPair fun _ hg => .ofOwner fun ho => ?_
  exact fun _ => Step.touched hg (.polled (unrevoked r hr) ho)

end

/-- The registry's step is one of the steps listed. -/
theorem step_sound (op : PortOp) : Step r op (r.step op).1 (r.step op).2 := by
  cases op with
  | registerGeneration p =>
    simp only [step, registerGeneration, isGenerationRevoked]
    by_cases h : p ∈ r.revokedGenerations
    · simp only [h, decide_true, if_true]
      exact .ignored h
    · simp only [h, decide_false, Bool.false_eq_true, if_false]
      exact .registered h
  | createPair a b => exact createPair_leaves r a b nofun
  | send cap who payload => exact send_leaves r cap who payload nofun
  | transfer cap who target => exact transfer_leaves r cap who target nofun
  | close cap who => exact close_leaves r cap who nofun
  | recv cap who => exact recv_leaves r cap who nofun
  | pollDisconnect cap who => exact pollDisconnect_leaves r cap who nofun
  | revokeGeneration p => exact .revoked

end Sound

end Keld.Runtime
