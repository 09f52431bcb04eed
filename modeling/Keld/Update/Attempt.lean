/-
# `Keld.Update.Attempt` — what an activation attempt is, apart from who carries it out

The abstract side.  An attempt goes through *positions*: looking for a copy of the
candidate that verifies, the floor advanced, the candidate selected, its health
awaited, then one of two tails.  `attemptPlan c` says which durable fact comes next at
each.  How health turns out and which complete stages the first owner had built are
decided from outside, and bind nothing after them (`attemptPlan_settled`).

A *fact* is a durable write without the identity of the owner that made it; a journal
that only records a new owner is no fact at all.

`At c p s` reads a position off a store: the slots, the journal, the published trees.
-/
import Keld.Lib.Resume
import Keld.Update.Transaction

namespace Keld.Update

/-! ## Facts -/

/-- A durable step, without its owner. -/
inductive Fact where
  | floor (version : String)
  | pointer (kind : PointerKind) (artifact : ArtifactIdentity)
  | awaitingHealth
  | healthAccepted
  | rollbackPending (failure : ActivationFailureClass)
  | publish (version : String)
  | retire (version : String)
  | removeJournal
deriving DecidableEq, Repr

/-- The fact that a journal write records: its phase, if the attempt has left the first one. -/
def ActivationPhase.fact : ActivationPhase → Option Fact
  | .publishPending => none
  | .awaitingHealth => some .awaitingHealth
  | .healthAccepted _ => some .healthAccepted
  | .rollbackPending failure => some (.rollbackPending failure)

def Write.fact : Write → Option Fact
  | .floor version => some (.floor version)
  | .pointer kind artifact => some (.pointer kind artifact)
  | .journal record => record.phase.fact
  | .removeJournal => some .removeJournal
  | .publish _ version => some (.publish version)
  | .retire version => some (.retire version)
  | .removeStage _ => none

/-! ## Positions and the plan -/

/-- Where an attempt stands.  A list of Booleans says, for each complete stage of the candidate in
the order of their names, whether its contents verify. -/
inductive Position where
  /-- Nothing is published yet. -/
  | begun (staged : List Bool)
  /-- A copy is published, or was just retired because it did not verify. -/
  | publishing (published : Option Bool) (staged : List Bool)
  /-- Another version's directory answers to the candidate's name. -/
  | blocked
  | floored
  | selected
  | awaiting
  | accepted
  | preserved
  | committed (retireeLeft : Bool)
  | failing
  | restored (candidateLeft : Bool)
  | resolved (outcome : WindowsActivationOutcome)
deriving DecidableEq, Repr

/-- What is decided from outside: the health of the candidate, and the first stage tried. -/
structure Choice where
  verdict : Verdict
  first : ℕ
deriving DecidableEq, Repr

/-- The `i`-th of `n` copies, or the first one if there are not so many. -/
def pickIndex (i n : ℕ) : ℕ := if i < n then i else 0

def pick (i : ℕ) (copies : List Bool) : Option (Bool × List Bool) :=
  (copies[pickIndex i copies.length]?).map fun copy =>
    (copy, copies.eraseIdx (pickIndex i copies.length))

/-- The phase the verdict moves an attempt to. -/
def Verdict.resolve : Verdict → Fact × Position
  | .accept => (.healthAccepted, .accepted)
  | .rollBack failure => (.rollbackPending failure, .failing)

section Plan

variable (c : ActivationJournal)

/-- Publishing the next copy, or giving the attempt up when there is none. -/
def publishNext : Option (Bool × List Bool) → Fact × Position
  | some (copy, rest) => (.publish c.candidate.version, .publishing (some copy) rest)
  | none => (.removeJournal, .resolved .abandoned)

def attemptStep (d : Choice) : Position → Option (Fact × Position)
  | .begun staged => some (publishNext c (pick d.first staged))
  | .publishing none staged => some (publishNext c (pick 0 staged))
  | .publishing (some true) _ => some (.floor c.candidate.version, .floored)
  | .publishing (some false) staged =>
    some (.retire c.candidate.version, .publishing none staged)
  | .floored => some (.pointer .current c.candidate, .selected)
  | .selected => some (.awaitingHealth, .awaiting)
  | .awaiting => some d.verdict.resolve
  | .accepted => some (.pointer .previousKnownGood c.priorLastKnownGood, .preserved)
  | .preserved =>
    some (.pointer .lastKnownGood c.candidate, .committed c.priorPreviousKnownGood.isSome)
  | .committed true =>
    c.priorPreviousKnownGood.map fun previous => (.retire previous.version, .committed false)
  | .committed false => some (.removeJournal, .resolved .committed)
  | .failing => some (.pointer .current c.rollbackTarget, .restored true)
  | .restored true => some (.retire c.candidate.version, .restored false)
  | .restored false => some (.removeJournal, .resolved .rolledBack)
  | .blocked | .resolved _ => none

end Plan

/-- How far a position is from being resolved. -/
def Position.rank : Position → ℕ
  | .begun staged => 2 * staged.length + 12
  | .publishing none staged => 2 * staged.length + 11
  | .publishing (some _) staged => 2 * staged.length + 12
  | .floored => 10
  | .selected => 9
  | .awaiting => 8
  | .accepted | .failing => 7
  | .preserved | .restored true => 6
  | .committed true | .restored false => 5
  | .committed false => 4
  | .blocked | .resolved _ => 0

theorem length_of_pick {i : ℕ} {copies rest : List Bool} {copy : Bool}
    (h : pick i copies = some (copy, rest)) : copies.length = rest.length + 1 := by
  obtain ⟨copy', hg, he⟩ := Option.map_eq_some_iff.mp h
  cases he
  obtain ⟨hlt, -⟩ := List.getElem?_eq_some_iff.mp hg
  have := List.length_eraseIdx_of_lt hlt
  omega

theorem publishNext_rank (c : ActivationJournal) (i : ℕ) (staged : List Bool) :
    (publishNext c (pick i staged)).2.rank < 2 * staged.length + 11 := by
  cases h : pick i staged with
  | none => exact Nat.succ_pos _
  | some copy =>
    have := length_of_pick h
    simp only [publishNext, Position.rank]
    omega

variable {d d' : Choice} {p p' : Position} {l : Fact}

theorem attemptStep_rank {c : ActivationJournal} (h : attemptStep c d p = some (l, p')) :
    p'.rank < p.rank := by
  cases p with
  | begun staged =>
    have hra := publishNext_rank c d.first staged
    rw [Option.some.inj h] at hra
    exact hra.trans (Nat.lt_succ_self _)
  | publishing published staged =>
    cases published with
    | none =>
      have hra := publishNext_rank c 0 staged
      rw [Option.some.inj h] at hra
      exact hra
    | some copy =>
      cases copy with
      | true | false =>
        cases h
        simp only [Position.rank]
        omega
  | awaiting =>
    cases d with
    | mk verdict first =>
      cases verdict <;> cases h <;> decide
  | preserved =>
    cases h
    cases c.priorPreviousKnownGood.isSome <;> decide
  | committed left =>
    cases left with
    | true =>
      obtain ⟨previous, -, he⟩ := Option.map_eq_some_iff.mp h
      cases he
      decide
    | false =>
      cases h
      decide
  | restored left => cases left <;> cases h <;> decide
  | floored | selected | accepted | failing => cases h; decide
  | blocked | resolved _ => cases h

/-- The plan of the attempt with context `c`. -/
def attemptPlan (c : ActivationJournal) : Plan Position Fact Choice where
  step := attemptStep c
  rank := Position.rank
  rank_lt := attemptStep_rank

/-- Whether a first stage can still be chosen. -/
def Position.isBegun : Position → Bool
  | .begun _ => true
  | _ => false

theorem publishNext_not_begun (c : ActivationJournal) (next : Option (Bool × List Bool)) :
    (publishNext c next).2.isBegun = false := by
  cases next <;> rfl

theorem attemptStep_not_begun {c : ActivationJournal} (h : attemptStep c d p = some (l, p')) :
    p'.isBegun = false := by
  cases p with
  | begun staged =>
    have hn := publishNext_not_begun c (pick d.first staged)
    rwa [Option.some.inj h] at hn
  | publishing published staged =>
    cases published with
    | none =>
      have hn := publishNext_not_begun c (pick 0 staged)
      rwa [Option.some.inj h] at hn
    | some copy => cases copy <;> cases h <;> rfl
  | awaiting =>
    cases d with
    | mk verdict first => cases verdict <;> cases h <;> rfl
  | committed left =>
    cases left with
    | true =>
      obtain ⟨previous, -, he⟩ := Option.map_eq_some_iff.mp h
      cases he
      rfl
    | false =>
      cases h
      rfl
  | restored left => cases left <;> cases h <;> rfl
  | floored | selected | accepted | preserved | failing => cases h; rfl
  | blocked | resolved _ => cases h

/-- After the first step, the first stage plays no part any more. -/
theorem remaining_of_not_begun {c : ActivationJournal} (hv : d.verdict = d'.verdict)
    (hp : p.isBegun = false) :
    (attemptPlan c).remaining d p = (attemptPlan c).remaining d' p := by
  refine (attemptPlan c).remaining_congr (fun p => p.isBegun = false) ?_ ?_ hp
  · intro p hp
    cases p with
    | begun staged => cases hp
    | publishing published staged => rcases published with _ | _ | _ <;> rfl
    | awaiting => exact congrArg (fun v => some (Verdict.resolve v)) hv
    | committed left | restored left => cases left <;> rfl
    | _ => rfl
  · intro p l p' _ hs
    exact attemptStep_not_begun hs

/-- After the verdict nothing is decided any more. -/
theorem remaining_of_decided {c : ActivationJournal} (hp : p.rank ≤ 7) :
    (attemptPlan c).remaining d p = (attemptPlan c).remaining d' p := by
  refine (attemptPlan c).remaining_congr (fun p => p.rank ≤ 7) ?_ ?_ hp
  · intro p hp
    cases p with
    | begun staged | floored | selected | awaiting =>
      simp only [Position.rank] at hp
      omega
    | publishing published staged =>
      rcases published with _ | _ <;> simp only [Position.rank] at hp <;> omega
    | committed left | restored left => cases left <;> rfl
    | _ => rfl
  · intro p l p' hp hs
    exact le_of_lt (((attemptPlan c).rank_lt hs).trans_le hp)

theorem attemptPlan_settled (c : ActivationJournal) : (attemptPlan c).Settled := by
  intro d p l p' hs d'
  cases p with
  | begun staged =>
    have hs' : attemptStep c d (.begun staged) = some (l, p') := hs
    exact ⟨⟨d'.verdict, d.first⟩, hs, remaining_of_not_begun rfl (attemptStep_not_begun hs')⟩
  | awaiting =>
    refine ⟨d, hs, remaining_of_decided ?_⟩
    have := (attemptPlan c).rank_lt hs
    exact Nat.lt_succ_iff.mp this
  | publishing published staged =>
    refine ⟨d', ?_, rfl⟩
    rcases published with _ | _ | _ <;> exact hs
  | committed left | restored left =>
    refine ⟨d', ?_, rfl⟩
    cases left <;> exact hs
  | _ => exact ⟨d', hs, rfl⟩

/-! ## Reading a position off a store -/

/-- The facts of a journal that no owner changes. -/
def ActivationJournal.context (j : ActivationJournal) : ActivationJournal :=
  { j with healthChannelId := 0, lifecycleChannelId := 0, ownership := none, phase := .publishPending }

/-- The slots before the attempt. -/
def priorSlots (c : ActivationJournal) : ProtectedSlots where
  versionFloor := c.priorFloor
  current := c.rollbackTarget
  lastKnownGood := c.priorLastKnownGood
  previousKnownGood := c.priorPreviousKnownGood

/-- The slots while the candidate is selected. -/
def candidateSlots (c : ActivationJournal) : ProtectedSlots :=
  { priorSlots c with versionFloor := c.candidate.version, current := c.candidate }

/-- The slots after a commit. -/
def committedSlots (c : ActivationJournal) : ProtectedSlots :=
  { candidateSlots c with
      lastKnownGood := c.candidate
      previousKnownGood := some c.priorLastKnownGood }

def slotsAt (c : ActivationJournal) : Position → ProtectedSlots
  | .begun _ | .publishing _ _ | .blocked | .resolved .abandoned => priorSlots c
  | .floored | .restored _ | .resolved .rolledBack =>
    { priorSlots c with versionFloor := c.candidate.version }
  | .selected | .awaiting | .accepted | .failing => candidateSlots c
  | .preserved => { candidateSlots c with previousKnownGood := some c.priorLastKnownGood }
  | .committed _ | .resolved .committed => committedSlots c

/-- The versions that are published and verified. -/
def publishedAt (c : ActivationJournal) : Position → List ArtifactIdentity
  | .begun _ | .publishing _ _ | .blocked | .restored false | .resolved .rolledBack
  | .resolved .abandoned => c.knownGood
  | .committed false | .resolved .committed => [c.candidate, c.priorLastKnownGood]
  | _ => c.candidate :: c.knownGood

/-- The version of `a` is published, and its tree is intact. -/
def Store.Published (s : Store) (a : ArtifactIdentity) : Prop :=
  s.find? a.version = some ⟨a.version, ⟨some a, true⟩⟩

/-- The complete stages of the candidate, in the order of their names. -/
def Store.candidateStages (s : Store) (candidate : ArtifactIdentity) : List (String × Tree) :=
  s.stages.toList.filter (fun stage => stage.2.complete == some candidate)

/-- Whether each of them verifies. -/
def Store.staged (s : Store) (candidate : ArtifactIdentity) : List Bool :=
  (s.candidateStages candidate).map (fun stage => stage.2.intact)

section At

variable (blake3 : Digest → Digest → ArtifactIdentity → Digest) (c : ActivationJournal)

/-- The phase that the journal records at a position. -/
def PhaseAt (j : ActivationJournal) : Position → Prop
  | .begun _ | .publishing _ _ | .blocked | .floored | .selected => j.phase = .publishPending
  | .awaiting => j.phase = .awaitingHealth
  | .accepted | .preserved | .committed _ =>
    ∃ digest, j.phase = .healthAccepted digest ∧
      activationHealthReceiptDigest blake3 j.attemptId j.healthChannelId j.candidate = .ok digest
  | .failing | .restored _ => ∃ failure, j.phase = .rollbackPending failure
  | .resolved _ => False

/-- The journal at a position: gone when the attempt is resolved, and otherwise one of the same
attempt, in its phase. -/
def JournalAt (p : Position) : Option ActivationJournal → Prop
  | some j => j.context = c.context ∧ ValidOwner j ∧ PhaseAt blake3 j p
  | none => ∃ outcome, p = .resolved outcome

/-- What else a position says about the directory that answers to the candidate's name, and about
the version that a commit supersedes. -/
def CandidateAt (s : Store) : Position → Prop
  | .begun staged | .publishing none staged =>
    s.find? c.candidate.version = none ∧ s.staged c.candidate = staged
  | .publishing (some copy) staged =>
    s.find? c.candidate.version = some ⟨c.candidate.version, ⟨some c.candidate, copy⟩⟩ ∧
      s.staged c.candidate = staged
  | .blocked => ∃ a ∈ c.knownGood, foldName a.version = foldName c.candidate.version
  | .committed true => c.priorPreviousKnownGood.isSome
  | .committed false | .resolved .committed =>
    ∀ a ∈ c.priorPreviousKnownGood, s.find? a.version = none
  | .restored false | .resolved .rolledBack => s.find? c.candidate.version = none
  | _ => True

/-- Whether the candidate may be among the published versions. -/
def censusAt : Position → List ArtifactIdentity
  | .publishing (some _) _ => c.candidate :: c.knownGood
  | p => publishedAt c p

/-- The attempt with context `c` stands at position `p` of the store. -/
structure At (p : Position) (s : Store) : Prop where
  slots : s.slots = slotsAt c p
  journal : JournalAt blake3 c p s.journal
  published : ∀ a ∈ publishedAt c p, s.Published a
  census : ∀ k dir, s.versions.get? k = some dir → k = foldName dir.name ∧
    ∃ a ∈ censusAt c p, dir.name = a.version
  candidate : CandidateAt c s p

end At

end Keld.Update
