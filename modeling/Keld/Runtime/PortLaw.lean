/-
# `Keld.Runtime.PortLaw` — what holds of port pairs over whole runs

Two invariants carry everything.  `RegistryInv` is about the registry alone:
live and revoked principals are apart, an unrevoked pair has no revoked owner,
queues are bounded, and an end whose peer is closed has been told.  `EndInv`
ties one end to the log of its pair: who owned it, what was sent to it and what
was received from it, which disconnects were seen on it.

Both are kept by one step (`RegistryInv.step`, `EndInv.step`) and hold in every
run.  `close` makes no revocation check of its own; that a revoked principal
closes nothing is a consequence of the first invariant.
-/
import Keld.Lib.Trace
import Keld.Runtime.PortSteps

namespace Keld.Runtime

open VirtualPortRegistry List OrdMap

/-! ## The log of one pair -/

/-- One line in the log of a pair. -/
inductive PortNote where
  | owned (side : PortEnd) (owner : RolePrincipal)
  | sent (side : PortEnd) (message : PortMessage)
  | received (side : PortEnd) (message : PortMessage)
  | disconnected (side : PortEnd) (reason : PortDisconnectReason)
deriving DecidableEq, Repr

/-- A note about the end `cap` in the log of the pair `g`. -/
def under (g : ℕ) (cap : PortCapability) (note : PortEnd → PortNote) : List PortNote :=
  if cap.generation = g then [note cap.side] else []

/-- What an accepted call says about the pair `g`. -/
def noted (g : ℕ) : PortOp → PortOutcome → List PortNote
  | .createPair a b, .ok (.pair capA capB) =>
    under g capA (.owned · a) ++ under g capB (.owned · b)
  | .send cap _ payload, .ok _ => under g cap (.sent · payload)
  | .transfer cap _ target, .ok _ => under g cap (.owned · target)
  | .recv cap _, .ok (.message (some m)) => under g cap (.received · m)
  | .pollDisconnect cap _, .ok (.disconnect (some reason)) => under g cap (.disconnected · reason)
  | _, _ => []

/-- The pair generations that a call returns. -/
def mintedBy : PortOutcome → List ℕ
  | .ok (.pair capA _) => [capA.generation]
  | _ => []

variable {queueCapacity : ℕ}

/-- The log of the pair `g` after a run of a registry with the given bound. -/
def log (queueCapacity : ℕ) (ops : List PortOp) (g : ℕ) : List PortNote :=
  (ports queueCapacity).collect (fun _ op out => noted g op out) ops

/-- The pair generations minted in a run, in order. -/
def minted (queueCapacity : ℕ) (ops : List PortOp) : List ℕ :=
  (ports queueCapacity).collect (fun _ _ out => mintedBy out) ops

/-- Everyone who has owned an end, first owner first. -/
def ownersOf (side : PortEnd) (notes : List PortNote) : List RolePrincipal :=
  notes.filterMap (fun | .owned s p => if s = side then some p else none | _ => none)

/-- What was sent from an end. -/
def sentFrom (side : PortEnd) (notes : List PortNote) : List PortMessage :=
  notes.filterMap (fun | .sent s m => if s = side then some m else none | _ => none)

/-- What was received on an end. -/
def receivedOn (side : PortEnd) (notes : List PortNote) : List PortMessage :=
  notes.filterMap (fun | .received s m => if s = side then some m else none | _ => none)

/-- The disconnects seen on an end. -/
def disconnectsOn (side : PortEnd) (notes : List PortNote) : List PortDisconnectReason :=
  notes.filterMap (fun | .disconnected s x => if s = side then some x else none | _ => none)

section Append

variable (side : PortEnd) (l l' : List PortNote)

@[simp] theorem ownersOf_append : ownersOf side (l ++ l') = ownersOf side l ++ ownersOf side l' :=
  filterMap_append

@[simp] theorem sentFrom_append : sentFrom side (l ++ l') = sentFrom side l ++ sentFrom side l' :=
  filterMap_append

@[simp] theorem receivedOn_append :
    receivedOn side (l ++ l') = receivedOn side l ++ receivedOn side l' :=
  filterMap_append

@[simp] theorem disconnectsOn_append :
    disconnectsOn side (l ++ l') = disconnectsOn side l ++ disconnectsOn side l' :=
  filterMap_append

end Append

theorem log_snoc (ops : List PortOp) (op : PortOp) (g : ℕ) :
    log queueCapacity (ops ++ [op]) g =
      log queueCapacity ops g ++ noted g op ((ports queueCapacity).outcome ops op) := by
  simp [log]

/-! ## What a step does to one pair -/

/-- How one pair moves in a step, and the notes that the step leaves about it. -/
inductive PairStep (r : VirtualPortRegistry) (g : ℕ) (op : PortOp) :
    PairState → PairState → List PortNote → Prop
  | keep {pair : PairState} : PairStep r g op pair pair []
  | touched {cap : PortCapability} {pair pair' : PairState} {out : PortReply}
      (gen : cap.generation = g) (h : Touch r op cap pair pair' out) :
      PairStep r g op pair pair' (noted g op (.ok out))
  | revoked {p : RolePrincipal} {pair : PairState} (h : op = .revokeGeneration p) :
      PairStep r g op pair (revokePair p pair) []

theorem noted_error (g : ℕ) (op : PortOp) (e : VirtualPortError) : noted g op (.error e) = [] := by
  cases op <;> rfl

variable {g : ℕ} {cap : PortCapability} {r r' : VirtualPortRegistry} {op : PortOp}
  {pair pair' : PairState} {out : PortOutcome} {revoked : List RolePrincipal} {p : RolePrincipal}
  {notes : List PortNote}

theorem under_ne (h : cap.generation ≠ g) (note : PortEnd → PortNote) : under g cap note = [] :=
  if_neg h

theorem under_self (cap : PortCapability) (note : PortEnd → PortNote) :
    under cap.generation cap note = [note cap.side] :=
  if_pos rfl

theorem Touch.noted_ne {out : PortReply} (h : Touch r op cap pair pair' out)
    (hg : cap.generation ≠ g) : noted g op (.ok out) = [] := by
  cases h with
  | sent | transferred => simp only [noted, under_ne hg]
  | closed => rfl
  | received =>
    cases (pair.endRef cap.side).queue with
    | nil => rfl
    | cons m _ => simp only [noted, head?_cons, under_ne hg]
  | polled =>
    cases ((pair.endRef cap.side).observe pair.revoked).2 with
    | none => rfl
    | some _ => simp only [noted, under_ne hg]

theorem get?_setPair (h : r.pairs.get? g = some pair) (pair' : PairState) (k : ℕ) :
    (r.setPair g pair').pairs.get? k = if k = g then some pair' else r.pairs.get? k :=
  get?_set h pair' k

/-- A pair of the registry is still there after a step, and has moved by a `PairStep`. -/
theorem step_pair (h : Step r op r' out) (fresh : r.pairs.get? r.nextGeneration = none)
    (hg : r.pairs.get? g = some pair) :
    ∃ pair', r'.pairs.get? g = some pair' ∧ PairStep r g op pair pair' (noted g op out) := by
  cases h with
  | refused _ =>
    rw [noted_error]
    exact ⟨pair, hg, .keep⟩
  | ignored _ | registered _ => exact ⟨pair, hg, .keep⟩
  | created _ _ _ _ =>
    have hne : g ≠ r.nextGeneration := by
      rintro rfl
      rw [fresh] at hg
      cases hg
    refine ⟨pair, ?_, ?_⟩
    · rw [get?_insert, if_neg hne]
      exact hg
    · rw [noted, under_ne (Ne.symm hne), under_ne (Ne.symm hne)]
      exact .keep
  | @touched _ cap before after reply get ht =>
    by_cases hk : g = cap.generation
    · subst hk
      cases get.symm.trans hg
      refine ⟨after, ?_, .touched rfl ht⟩
      rw [get?_setPair get, if_pos rfl]
    · refine ⟨pair, ?_, ?_⟩
      · rw [get?_setPair get, if_neg hk]
        exact hg
      · rw [ht.noted_ne (Ne.symm hk)]
        exact .keep
  | @revoked p =>
    refine ⟨revokePair p pair, ?_, .revoked rfl⟩
    rw [revokeGeneration, get?_map, hg]
    rfl

/-- A pair that a step adds is a fresh mint between two live principals. -/
theorem step_new (h : Step r op r' out) (hg : r.pairs.get? g = none)
    (hg' : r'.pairs.get? g = some pair) :
    ∃ a b, a ∉ r.revokedGenerations ∧ b ∉ r.revokedGenerations ∧ pair = PairState.new a b ∧
      op = .createPair a b ∧ g = r.nextGeneration ∧
      noted g op out = [.owned .a a, .owned .b b] := by
  cases h with
  | refused _ | ignored _ | registered _ =>
    rw [hg] at hg'
    cases hg'
  | @created a b ha hb _ _ =>
    rw [get?_insert] at hg'
    split_ifs at hg' with hk
    · subst hk
      refine ⟨a, b, ha, hb, (Option.some.inj hg').symm, rfl, rfl, ?_⟩
      simp [noted, under]
    · rw [hg] at hg'
      cases hg'
  | @touched _ cap _ _ _ get _ =>
    rw [get?_setPair get] at hg'
    split_ifs at hg' with hk
    · subst hk
      rw [get] at hg
      cases hg
    · rw [hg] at hg'
      cases hg'
  | revoked =>
    rw [revokeGeneration, get?_map, hg] at hg'
    cases hg'

/-- A pair that is not in the registry after a step was not there before, and nothing is noted
about it. -/
theorem step_absent (h : Step r op r' out) (fresh : r.pairs.get? r.nextGeneration = none)
    (hg' : r'.pairs.get? g = none) : r.pairs.get? g = none ∧ noted g op out = [] := by
  have hn : r.pairs.get? g = none := by
    cases hg : r.pairs.get? g with
    | none => rfl
    | some pair =>
      obtain ⟨pair', hp, -⟩ := step_pair h fresh hg
      rw [hg'] at hp
      cases hp
  refine ⟨hn, ?_⟩
  cases h with
  | refused _ => exact noted_error _ _ _
  | ignored _ | registered _ | revoked => rfl
  | created _ _ _ _ =>
    have hne : r.nextGeneration ≠ g := by
      rintro rfl
      rw [get?_insert, if_pos rfl] at hg'
      cases hg'
    rw [noted, under_ne hne, under_ne hne]
    rfl
  | @touched _ cap _ _ _ get ht =>
    refine ht.noted_ne ?_
    rintro rfl
    rw [get] at hn
    cases hn

/-! ## The registry's invariant -/

/-- What holds of one pair, given who is revoked. -/
structure PairInv (revoked : List RolePrincipal) (queueCapacity : ℕ) (pair : PairState) :
    Prop where
  owners : pair.revoked = false → ∀ side,
    (pair.endRef side).initialOwner ∉ revoked ∧ (pair.endRef side).owner ∉ revoked
  bounded : ∀ side, (pair.endRef side).queue.length ≤ queueCapacity ∧
    ∀ m ∈ (pair.endRef side).queue, m.length ≤ maxPortMessageLen
  /-- An end whose peer is closed has been told, or is closed itself. -/
  told : pair.revoked = false → ∀ side, (pair.endRef side.peer).closed = true →
    (pair.endRef side).closed = true ∨ (pair.endRef side).disconnectPending = true ∨
      (pair.endRef side).disconnectObserved = true

/-- What holds of the registry. -/
structure RegistryInv (r : VirtualPortRegistry) : Prop where
  apart : ∀ p ∈ r.liveGenerations, p ∉ r.revokedGenerations
  fresh : ∀ g, r.nextGeneration ≤ g → r.pairs.get? g = none
  pairs : ∀ g pair, r.pairs.get? g = some pair →
    PairInv r.revokedGenerations r.queueCapacity pair

theorem PortEnd.forall_of_sides {P : PortEnd → Prop} (side : PortEnd) (h : P side)
    (hp : P side.peer) (other : PortEnd) : P other := by
  by_cases he : other = side
  · rw [he]
    exact h
  · rw [PortEnd.eq_peer_of_ne he]
    exact hp

theorem observe_owner (e : EndState) (revoked : Bool) :
    (e.observe revoked).1.owner = e.owner ∧ (e.observe revoked).1.initialOwner = e.initialOwner ∧
      (e.observe revoked).1.queue = e.queue ∧ (e.observe revoked).1.closed = e.closed ∧
      (e.observe revoked).1.transferred = e.transferred := by
  unfold EndState.observe
  split_ifs <;> exact ⟨rfl, rfl, rfl, rfl, rfl⟩

/-- A poll that finds something latches it, and one that finds nothing changes nothing. -/
theorem observe_latch (e : EndState) (revoked : Bool) :
    ((e.observe revoked).2 = none ∧ (e.observe revoked).1 = e) ∨
      (∃ reason, (e.observe revoked).2 = some reason) ∧ e.disconnectObserved = false ∧
        (e.observe revoked).1.disconnectObserved = true := by
  unfold EndState.observe
  by_cases h : e.disconnectObserved = true
  · rw [if_pos h]
    exact .inl ⟨rfl, rfl⟩
  · rw [if_neg h]
    have h' := eq_false_of_ne_true h
    split_ifs
    · exact .inr ⟨⟨_, rfl⟩, h', rfl⟩
    · exact .inr ⟨⟨_, rfl⟩, h', rfl⟩
    · exact .inr ⟨⟨_, rfl⟩, h', rfl⟩
    · exact .inl ⟨rfl, rfl⟩

theorem told_fields (e : EndState) :
    e.told.owner = e.owner ∧ e.told.initialOwner = e.initialOwner ∧ e.told.queue = e.queue ∧
      e.told.closed = e.closed ∧ e.told.transferred = e.transferred ∧
      e.told.disconnectObserved = e.disconnectObserved := by
  unfold EndState.told
  split_ifs <;> exact ⟨rfl, rfl, rfl, rfl, rfl, rfl⟩

theorem told_told (e : EndState) :
    e.told.closed = true ∨ e.told.disconnectPending = true ∨ e.told.disconnectObserved = true := by
  unfold EndState.told
  by_cases hc : e.closed = true
  · simp [hc]
  · by_cases ho : e.disconnectObserved = true
    · simp [hc, ho]
    · simp [hc, ho]

theorem PairInv.new {a b : RolePrincipal} (ha : a ∉ revoked) (hb : b ∉ revoked) (queueCapacity : ℕ)
    :
    PairInv revoked queueCapacity (PairState.new a b) := by
  refine ⟨?_, ?_, ?_⟩
  · intro _ side
    cases side with
    | a => exact ⟨ha, ha⟩
    | b => exact ⟨hb, hb⟩
  · intro side
    cases side <;> exact ⟨Nat.zero_le _, by simp [PairState.new, PairState.endRef, EndState.new]⟩
  · intro _ side hc
    cases side <;> cases hc

/-- One end changes, and has been told all that it was told before. -/
theorem PairInv.setEnd {capacity : ℕ} (inv : PairInv revoked capacity pair) (side : PortEnd)
    {e : EndState}
    (howns : pair.revoked = false → e.initialOwner ∉ revoked ∧ e.owner ∉ revoked)
    (hbd : e.queue.length ≤ capacity ∧ ∀ m ∈ e.queue, m.length ≤ maxPortMessageLen)
    (hcl : e.closed = (pair.endRef side).closed)
    (hto : (pair.endRef side).disconnectPending = true ∨
        (pair.endRef side).disconnectObserved = true →
      e.disconnectPending = true ∨ e.disconnectObserved = true) :
    PairInv revoked capacity (pair.setEnd side e) := by
  refine ⟨fun live => ?_, ?_, fun live => ?_⟩
  · rw [PairState.revoked_setEnd] at live
    refine PortEnd.forall_of_sides side ?_ ?_
    · simpa using howns live
    · simpa using inv.owners live side.peer
  · refine PortEnd.forall_of_sides side ?_ ?_
    · simpa using hbd
    · simpa using inv.bounded side.peer
  · rw [PairState.revoked_setEnd] at live
    refine PortEnd.forall_of_sides side ?_ ?_
    · rw [PairState.endRef_setEnd_peer, PairState.endRef_setEnd_same, hcl]
      exact fun hpe => (inv.told live side hpe).imp_right hto
    · simpa [hcl] using inv.told live side.peer

theorem PairInv.touch {out : PortReply} (inv : PairInv r.revokedGenerations r.queueCapacity pair)
    (h : Touch r op cap pair pair' out) :
    PairInv r.revokedGenerations r.queueCapacity pair' := by
  cases h with
  | sent unrevoked len live owner isOpen peerOpen room =>
    refine inv.setEnd cap.side.peer (fun live => inv.owners live _) ⟨?_, fun m hm => ?_⟩ rfl id
    · simpa using Nat.succ_le_of_lt room
    · rcases mem_snoc.mp hm with hm | rfl
      · exact (inv.bounded cap.side.peer).2 m hm
      · exact len
  | transferred unrevoked targetUnrevoked targetLive live isOpen peerOpen owner other once =>
    exact inv.setEnd cap.side (fun live => ⟨(inv.owners live _).1, targetUnrevoked⟩)
      (inv.bounded _) rfl id
  | closed live owner isOpen =>
    obtain ⟨h1, h2, h3, h4, -, -⟩ := told_fields (pair.endRef cap.side.peer)
    refine ⟨fun _ => ?_, ?_, fun _ => ?_⟩
    · refine PortEnd.forall_of_sides cap.side ?_ ?_
      · simpa using inv.owners live cap.side
      · simpa [h1, h2] using inv.owners live cap.side.peer
    · refine PortEnd.forall_of_sides cap.side ?_ ?_
      · simpa using inv.bounded cap.side
      · simpa [h3] using inv.bounded cap.side.peer
    · refine PortEnd.forall_of_sides cap.side ?_ ?_
      · intro _
        simp
      · intro _
        simpa using told_told (pair.endRef cap.side.peer)
  | received unrevoked live owner =>
    obtain ⟨hl, ha⟩ := inv.bounded cap.side
    refine inv.setEnd cap.side (fun live => inv.owners live _) ⟨?_, fun m hm => ?_⟩ rfl id
    · rw [length_tail]
      omega
    · exact ha m (mem_of_mem_tail hm)
  | polled unrevoked owner =>
    obtain ⟨h1, h2, h3, h4, -⟩ := observe_owner (pair.endRef cap.side) pair.revoked
    refine inv.setEnd cap.side (fun live => ?_) ?_ h4 fun hto => ?_
    · rw [h1, h2]
      exact inv.owners live _
    · rw [h3]
      exact inv.bounded _
    · rcases observe_latch (pair.endRef cap.side) pair.revoked with ⟨-, he⟩ | ⟨-, -, ho⟩
      · rw [he]
        exact hto
      · exact .inr ho

/-! ## Revocation -/

theorem revokeEnd_fields (p : RolePrincipal) (e : EndState) :
    (revokeEnd p e).owner = e.owner ∧ (revokeEnd p e).initialOwner = e.initialOwner ∧
      (revokeEnd p e).queue = e.queue ∧ (revokeEnd p e).transferred = e.transferred ∧
      (revokeEnd p e).disconnectObserved = e.disconnectObserved := by
  unfold revokeEnd
  dsimp only
  split_ifs <;> exact ⟨rfl, rfl, rfl, rfl, rfl⟩

theorem revokeEnd_other {e : EndState} (ho : e.owner ≠ p) (hi : e.initialOwner ≠ p) :
    revokeEnd p e = e := by
  simp only [revokeEnd, ho, hi, or_self, false_and, if_false]

/-- The principal owns, or first owned, an end of the pair. -/
def PairState.Names (pair : PairState) (p : RolePrincipal) : Prop :=
  ∃ side, (pair.endRef side).initialOwner = p ∨ (pair.endRef side).owner = p

theorem revokePair_of_revoked (h : pair.revoked = true) (p : RolePrincipal) :
    revokePair p pair = pair :=
  if_pos h

/-- A revocation leaves every other pair exactly as it was. -/
theorem revokePair_of_not_names (h : ¬ pair.Names p) : revokePair p pair = pair := by
  have hown : ∀ side, (pair.endRef side).initialOwner ≠ p ∧ (pair.endRef side).owner ≠ p := by
    intro side
    exact ⟨fun hi => h ⟨side, .inl hi⟩, fun ho => h ⟨side, .inr ho⟩⟩
  have hA : revokeEnd p pair.endA = pair.endA := revokeEnd_other (hown .a).2 (hown .a).1
  have hB : revokeEnd p pair.endB = pair.endB := revokeEnd_other (hown .b).2 (hown .b).1
  unfold revokePair
  dsimp only
  rw [hA, hB]
  split_ifs with hr hn
  · rfl
  · rcases hn with hn | hn | hn | hn
    · exact absurd hn (hown .a).1
    · exact absurd hn (hown .b).1
    · exact absurd hn (hown .a).2
    · exact absurd hn (hown .b).2
  · rfl

/-- A revocation that names a live pair ends it with empty queues. -/
theorem revokePair_of_names (hr : pair.revoked = false) (h : pair.Names p) :
    (revokePair p pair).revoked = true ∧ ∀ side,
      (revokePair p pair).endRef side = { revokeEnd p (pair.endRef side) with queue := [] } := by
  have hco : (revokeEnd p pair.endA).initialOwner = p ∨ (revokeEnd p pair.endB).initialOwner = p ∨
      (revokeEnd p pair.endA).owner = p ∨ (revokeEnd p pair.endB).owner = p := by
    obtain ⟨hAo, hAi, -⟩ := revokeEnd_fields p pair.endA
    obtain ⟨hBo, hBi, -⟩ := revokeEnd_fields p pair.endB
    rw [hAo, hAi, hBo, hBi]
    obtain ⟨side, hs⟩ := h
    cases side with
    | a =>
      rcases hs with hs | hs
      · exact .inl hs
      · exact .inr (.inr (.inl hs))
    | b =>
      rcases hs with hs | hs
      · exact .inr (.inl hs)
      · exact .inr (.inr (.inr hs))
  have he : revokePair p pair =
      { endA := { revokeEnd p pair.endA with queue := [] },
        endB := { revokeEnd p pair.endB with queue := [] }, revoked := true } := by
    unfold revokePair
    rw [if_neg (by simp [hr])]
    exact if_pos hco
  rw [he]
  refine ⟨rfl, ?_⟩
  intro side
  cases side <;> rfl

theorem PairInv.revoke {capacity : ℕ} (inv : PairInv revoked capacity pair) (p : RolePrincipal) :
    PairInv (revoked.insert p) capacity (revokePair p pair) := by
  by_cases hr : pair.revoked = true
  · rw [revokePair_of_revoked hr]
    refine ⟨?_, inv.bounded, ?_⟩
    · intro h
      exact absurd (hr.symm.trans h) (by decide)
    · intro h
      exact absurd (hr.symm.trans h) (by decide)
  have hr' := eq_false_of_ne_true hr
  by_cases hn : pair.Names p
  · obtain ⟨hre, he⟩ := revokePair_of_names hr' hn
    refine ⟨?_, ?_, ?_⟩
    · intro h
      exact absurd (hre.symm.trans h) (by decide)
    · intro side
      rw [he side]
      exact ⟨Nat.zero_le _, by simp⟩
    · intro h
      exact absurd (hre.symm.trans h) (by decide)
  · rw [revokePair_of_not_names hn]
    refine ⟨?_, inv.bounded, inv.told⟩
    intro _ side
    obtain ⟨hi, ho⟩ := inv.owners hr' side
    simp only [mem_insert_iff, not_or]
    exact ⟨⟨fun h => hn ⟨side, .inl h⟩, hi⟩, ⟨fun h => hn ⟨side, .inr h⟩, ho⟩⟩

/-! ## One step, every run -/

theorem RegistryInv.init (queueCapacity : ℕ) :
    RegistryInv (VirtualPortRegistry.withQueueCapacity queueCapacity) := by
  refine ⟨?_, ?_, ?_⟩
  · intro p hp
    cases hp
  · intro g _
    rfl
  · intro g pair hg
    cases hg

/-- What a step does to the revoked principals and to the bound. -/
theorem Step.frame (h : Step r op r' out) :
    r'.queueCapacity = r.queueCapacity ∧
      ∀ p, p ∈ r'.revokedGenerations ↔ p ∈ r.revokedGenerations ∨ op = .revokeGeneration p := by
  cases h with
  | refused hop => exact ⟨rfl, fun p => ⟨.inl, fun h => h.resolve_right (hop p)⟩⟩
  | ignored _ | registered _ | created _ _ _ _ =>
    exact ⟨rfl, fun p => ⟨.inl, fun h => h.resolve_right nofun⟩⟩
  | touched _ ht => exact ⟨rfl, fun p => ⟨.inl, fun h => h.resolve_right (by cases ht <;> nofun)⟩⟩
  | @revoked q =>
    refine ⟨rfl, ?_⟩
    intro p
    simp only [revokeGeneration, mem_insert_iff, PortOp.revokeGeneration.injEq]
    constructor
    · rintro (rfl | h)
      · exact .inr rfl
      · exact .inl h
    · rintro (h | rfl)
      · exact .inr h
      · exact .inl rfl

theorem RegistryInv.step (inv : RegistryInv r) (h : Step r op r' out) : RegistryInv r' := by
  cases h with
  | refused _ | ignored _ => exact inv
  | registered hp =>
    refine ⟨?_, inv.fresh, inv.pairs⟩
    intro p hp'
    rcases mem_insert_iff.mp hp' with rfl | hp'
    · exact hp
    · exact inv.apart p hp'
  | created ha hb _ _ =>
    refine ⟨inv.apart, ?_, ?_⟩
    · intro g hg
      rw [get?_insert, if_neg (show g ≠ r.nextGeneration from Nat.ne_of_gt hg)]
      exact inv.fresh g (Nat.le_of_succ_le hg)
    · intro g pair hg
      rw [get?_insert] at hg
      split_ifs at hg with hk
      · cases hg
        exact PairInv.new ha hb _
      · exact inv.pairs g pair hg
  | @touched _ cap before after _ get ht =>
    refine ⟨inv.apart, ?_, ?_⟩
    · intro g hg
      have hn := inv.fresh g hg
      rw [get?_setPair get, if_neg ?_]
      · exact hn
      · rintro rfl
        rw [get] at hn
        cases hn
    · intro g pair hg
      rw [get?_setPair get] at hg
      split_ifs at hg with hk
      · cases hg
        exact (inv.pairs _ _ get).touch ht
      · exact inv.pairs g pair hg
  | @revoked q =>
    refine ⟨?_, ?_, ?_⟩
    · intro p hp
      obtain ⟨hl, hne⟩ := mem_filter.mp hp
      simp only [revokeGeneration, mem_insert_iff, not_or]
      exact ⟨of_decide_eq_true hne, inv.apart p hl⟩
    · intro g hg
      rw [revokeGeneration, get?_map, inv.fresh g hg]
      rfl
    · intro g pair hg
      rw [revokeGeneration, get?_map] at hg
      obtain ⟨before, hbe, rfl⟩ := Option.map_eq_some_iff.mp hg
      exact (inv.pairs g before hbe).revoke q

theorem run_sound (queueCapacity : ℕ) (ops : List PortOp) (op : PortOp) :
    Step ((ports queueCapacity).run ops) op ((ports queueCapacity).run (ops ++ [op]))
      ((ports queueCapacity).outcome ops op) := by
  rw [Machine.run_snoc]
  exact step_sound _ op

theorem registryInv_run (queueCapacity : ℕ) (ops : List PortOp) :
    RegistryInv ((ports queueCapacity).run ops) := by
  refine Machine.run_induction (P := fun _ r => RegistryInv r) _
    (RegistryInv.init queueCapacity) ?_ (Machine.guarded_trivial ops)
  intro ops op _ _ inv
  exact inv.step (run_sound queueCapacity ops op)

/-! ## One end and the log of its pair -/

/-- One end of a pair against the pair's log. -/
structure EndInv (pair : PairState) (notes : List PortNote) (side : PortEnd) : Prop where
  owners : ownersOf side notes =
    if (pair.endRef side).transferred then
      [(pair.endRef side).initialOwner, (pair.endRef side).owner]
    else [(pair.endRef side).owner]
  first : (pair.endRef side).transferred = false →
    (pair.endRef side).owner = (pair.endRef side).initialOwner
  disconnects : (disconnectsOn side notes).length =
    if (pair.endRef side).disconnectObserved then 1 else 0
  flow : pair.revoked = false →
    sentFrom side.peer notes = receivedOn side notes ++ (pair.endRef side).queue
  prefixed : receivedOn side notes <+: sentFrom side.peer notes

theorem EndInv.new (a b : RolePrincipal) (side : PortEnd) :
    EndInv (PairState.new a b) [.owned .a a, .owned .b b] side := by
  cases side <;>
    exact ⟨by simp [ownersOf, EndState.new], fun _ => rfl, by simp [disconnectsOn, EndState.new],
      fun _ => by simp [sentFrom, receivedOn, EndState.new],
      by simp [receivedOn]⟩

/-- Nothing in these notes is about what `EndInv` reads at this end. -/
def Silent (side : PortEnd) (notes : List PortNote) : Prop :=
  ownersOf side notes = [] ∧ disconnectsOn side notes = [] ∧
    sentFrom side.peer notes = [] ∧ receivedOn side notes = []

/-- The data of an end that its log is about. -/
def EndState.SameData (e e' : EndState) : Prop :=
  e'.owner = e.owner ∧ e'.initialOwner = e.initialOwner ∧ e'.transferred = e.transferred ∧
    e'.disconnectObserved = e.disconnectObserved ∧ e'.queue = e.queue

theorem EndState.SameData.refl (e : EndState) : e.SameData e := ⟨rfl, rfl, rfl, rfl, rfl⟩

/-- An end that a step says nothing about keeps its place in the log. -/
theorem EndInv.silent {new : List PortNote} {side : PortEnd} (inv : EndInv pair notes side)
    (hs : Silent side new) (he : (pair.endRef side).SameData (pair'.endRef side))
    (hr : pair'.revoked = pair.revoked) :
    EndInv pair' (notes ++ new) side := by
  obtain ⟨h1, h2, h3, h4⟩ := hs
  obtain ⟨ho, hi, ht, hd, hq⟩ := he
  refine ⟨?_, ?_, ?_, ?_, ?_⟩
  · rw [ownersOf_append, h1, append_nil, ho, hi, ht]
    exact inv.owners
  · rw [ho, hi, ht]
    exact inv.first
  · rw [disconnectsOn_append, h2, append_nil, hd]
    exact inv.disconnects
  · rw [hr, sentFrom_append, receivedOn_append, h3, h4, append_nil, append_nil, hq]
    exact inv.flow
  · rw [sentFrom_append, receivedOn_append, h3, h4, append_nil, append_nil]
    exact inv.prefixed

theorem Silent.nil (side : PortEnd) : Silent side [] := ⟨rfl, rfl, rfl, rfl⟩

theorem EndInv.touch {out : PortReply} (inv : ∀ side, EndInv pair notes side)
    (h : Touch r op cap pair pair' out) :
    ∀ side, EndInv pair' (notes ++ noted cap.generation op (.ok out)) side := by
  cases h with
  | @sent _ who payload _ unrevoked len live owner isOpen peerOpen room =>
    have hne : noted cap.generation (.send cap who payload) (.ok .unit) =
        [.sent cap.side payload] := by simp only [noted, under_self]
    rw [hne]
    refine PortEnd.forall_of_sides cap.side ?_ ?_
    · refine (inv cap.side).silent ?_ ?_ (by simp)
      · simp [Silent, ownersOf, disconnectsOn, sentFrom, receivedOn]
      · rw [PairState.endRef_setEnd_of_peer]
        exact .refl _
    · -- the message is at the end of the peer's queue and of what was sent to it
      have ih := inv cap.side.peer
      have hfl := ih.flow live
      refine ⟨?_, ?_, ?_, ?_, ?_⟩
      · simpa [ownersOf] using ih.owners
      · simpa using ih.first
      · simpa [disconnectsOn] using ih.disconnects
      · intro _
        rw [sentFrom_append, receivedOn_append, hfl]
        simp [sentFrom, receivedOn]
      · rw [sentFrom_append, receivedOn_append]
        have hno : receivedOn cap.side.peer [.sent cap.side payload] = [] := rfl
        rw [hno, append_nil]
        exact ih.prefixed.trans (prefix_append _ _)
  | @transferred _ who target _ unrevoked targetUnrevoked targetLive live isOpen peerOpen
      owner other once =>
    have hne : noted cap.generation (.transfer cap who target) (.ok (.capability cap)) =
        [.owned cap.side target] := by simp only [noted, under_self]
    rw [hne]
    refine PortEnd.forall_of_sides cap.side ?_ ?_
    · have ih := inv cap.side
      have howns := ih.owners
      have hf := ih.first once
      rw [if_neg (by simp [once])] at howns
      refine ⟨?_, ?_, ?_, ?_, ?_⟩
      · rw [ownersOf_append, howns, hf]
        simp [ownersOf]
      · intro h
        simp at h
      · simpa [disconnectsOn] using ih.disconnects
      · intro _
        simpa [sentFrom, receivedOn] using ih.flow live
      · simpa [sentFrom, receivedOn] using ih.prefixed
    · refine (inv cap.side.peer).silent ?_ ?_ (by simp)
      · simp [Silent, ownersOf, disconnectsOn, sentFrom, receivedOn]
      · rw [PairState.endRef_setEnd_peer]
        exact .refl _
  | closed live owner isOpen =>
    obtain ⟨h1, h2, h3, -, h5, h6⟩ := told_fields (pair.endRef cap.side.peer)
    refine PortEnd.forall_of_sides cap.side ?_ ?_
    · refine (inv cap.side).silent (Silent.nil _) ?_ (by simp)
      rw [PairState.endRef_setEnd_of_peer, PairState.endRef_setEnd_same]
      exact .refl _
    · refine (inv cap.side.peer).silent (Silent.nil _) ?_ (by simp)
      rw [PairState.endRef_setEnd_same]
      exact ⟨h1, h2, h5, h6, h3⟩
  | @received _ who _ unrevoked live owner =>
    have ih := inv cap.side
    have hfl := ih.flow live
    refine PortEnd.forall_of_sides cap.side ?_ ?_
    · cases hq : (pair.endRef cap.side).queue with
      | nil =>
        refine ih.silent (Silent.nil _) ?_ (by simp)
        rw [PairState.endRef_setEnd_same]
        exact ⟨rfl, rfl, rfl, rfl, hq.symm⟩
      | cons m rest =>
        have hne : noted cap.generation (.recv cap who)
            (.ok (.message (m :: rest).head?)) = [.received cap.side m] := by
          simp only [noted, head?_cons, under_self]
        rw [hq] at hfl
        rw [hne]
        refine ⟨?_, ?_, ?_, ?_, ?_⟩
        · simpa [ownersOf] using ih.owners
        · simpa using ih.first
        · simpa [disconnectsOn] using ih.disconnects
        · intro _
          rw [sentFrom_append, receivedOn_append, hfl]
          simp [sentFrom, receivedOn]
        · rw [sentFrom_append, receivedOn_append, hfl]
          simp [sentFrom, receivedOn]
    · refine (inv cap.side.peer).silent ?_ ?_ (by simp)
      · cases (pair.endRef cap.side).queue with
        | nil => exact Silent.nil _
        | cons m rest =>
          simp [noted, under, Silent, ownersOf, disconnectsOn, sentFrom, receivedOn]
      · rw [PairState.endRef_setEnd_peer]
        exact .refl _
  | @polled _ who _ unrevoked owner =>
    obtain ⟨h1, h2, h3, -, h5⟩ := observe_owner (pair.endRef cap.side) pair.revoked
    have ih := inv cap.side
    refine PortEnd.forall_of_sides cap.side ?_ ?_
    · rcases observe_latch (pair.endRef cap.side) pair.revoked with ⟨hn, he⟩ | ⟨⟨x, hx⟩, hd, hd'⟩
      · rw [hn]
        refine ih.silent (Silent.nil _) ?_ (by simp)
        rw [PairState.endRef_setEnd_same, he]
        exact .refl _
      · have hne : noted cap.generation (.pollDisconnect cap who)
            (.ok (.disconnect (some x))) = [.disconnected cap.side x] := by
          simp only [noted, under_self]
        have hc := ih.disconnects
        rw [if_neg (by simp [hd])] at hc
        rw [hx, hne]
        refine ⟨?_, ?_, ?_, ?_, ?_⟩
        · simpa [ownersOf, h1, h2, h5] using ih.owners
        · simpa [h1, h2, h5] using ih.first
        · rw [disconnectsOn_append, length_append, hc, PairState.endRef_setEnd_same, hd']
          simp [disconnectsOn]
        · intro hr
          rw [PairState.revoked_setEnd] at hr
          simpa [sentFrom, receivedOn, h3] using ih.flow hr
        · simpa [sentFrom, receivedOn] using ih.prefixed
    · refine (inv cap.side.peer).silent ?_ ?_ (by simp)
      · cases ((pair.endRef cap.side).observe pair.revoked).2 with
        | none => exact Silent.nil _
        | some x => simp [noted, under, Silent, ownersOf, disconnectsOn, sentFrom, receivedOn]
      · rw [PairState.endRef_setEnd_peer]
        exact .refl _

theorem EndInv.revoke (p : RolePrincipal) {side : PortEnd} (inv : EndInv pair notes side) :
    EndInv (revokePair p pair) notes side := by
  by_cases hr : pair.revoked = true
  · rw [revokePair_of_revoked hr]
    exact inv
  by_cases hn : pair.Names p
  · obtain ⟨hre, he⟩ := revokePair_of_names (eq_false_of_ne_true hr) hn
    obtain ⟨ho, hi, -, ht, hd⟩ := revokeEnd_fields p (pair.endRef side)
    refine ⟨?_, ?_, ?_, ?_, inv.prefixed⟩
    · rw [he side]
      simpa only [ho, hi, ht] using inv.owners
    · rw [he side]
      simpa only [ho, hi, ht] using inv.first
    · rw [he side]
      simpa only [hd] using inv.disconnects
    · intro h
      exact absurd (hre.symm.trans h) (by decide)
  · rw [revokePair_of_not_names hn]
    exact inv

theorem EndInv.step {new : List PortNote} (inv : ∀ side, EndInv pair notes side)
    (h : PairStep r g op pair pair' new) : ∀ side, EndInv pair' (notes ++ new) side := by
  cases h with
  | keep =>
    rw [append_nil]
    exact inv
  | touched gen ht =>
    subst gen
    exact EndInv.touch inv ht
  | revoked _ =>
    rw [append_nil]
    exact fun side => (inv side).revoke _

/-- Every pair of every run agrees with its log, and a pair that was never minted has none. -/
theorem endInv_run (queueCapacity : ℕ) (ops : List PortOp) (g : ℕ) :
    (∀ pair, ((ports queueCapacity).run ops).pairs.get? g = some pair →
      ∀ side, EndInv pair (log queueCapacity ops g) side) ∧
    (((ports queueCapacity).run ops).pairs.get? g = none → log queueCapacity ops g = []) := by
  induction ops using reverseRecOn with
  | nil =>
    refine ⟨?_, fun _ => rfl⟩
    intro pair hg
    cases hg
  | append_singleton ops op ih =>
    have hs := run_sound queueCapacity ops op
    have hf := (registryInv_run queueCapacity ops).fresh _ le_rfl
    rw [log_snoc]
    constructor
    · intro pair' hg'
      cases hg : ((ports queueCapacity).run ops).pairs.get? g with
      | none =>
        obtain ⟨a, b, -, -, rfl, -, -, hn⟩ := step_new hs hg hg'
        rw [ih.2 hg, hn]
        exact EndInv.new a b
      | some pair =>
        obtain ⟨pair'', hp, hmo⟩ := step_pair hs hf hg
        cases hp.symm.trans hg'
        exact EndInv.step (ih.1 pair hg) hmo
    · intro hg'
      obtain ⟨hg, hn⟩ := step_absent hs hf hg'
      rw [ih.2 hg, hn]
      rfl

end Keld.Runtime
