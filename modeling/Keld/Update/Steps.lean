/-
# `Keld.Update.Steps` — each durable step of a transaction is a step of the plan

A transaction in hand agrees with the disk (`Holds`): its copy of the slots and of
the journal are what is on disk, it keeps open only versions that the position
accounts for, and it knows the stage the plan would publish.

`Leads p t r post` is how an operation is described: whatever it wrote, from the
store of `t` on, follows the plan under the decisions `d`; a result satisfies
`post` at the position reached; a refusal is excused.  There are three excuses: the
owner or its records are not fit to be written (`¬ fit`), another version answers
to the candidate's name, or the attempt was given up and its journal removed.  The
rule for sequencing is `Leads.andThen`, and the steps are chained with it.
-/
import Mathlib.Data.List.InsertIdx
import Keld.Update.Planned

namespace Keld.Update

open List ValidContext

/-! ## Directories under the durable steps -/

namespace Store

variable {s : Store}

theorem find?_retire (version other : String) :
    (s.apply (.retire version)).find? other =
      if foldName other = foldName version then none else s.find? other :=
  OrdMap.get?_erase _ _ _

variable {stage : String} {tree : Tree} {a : ArtifactIdentity} {i : ℕ}

theorem apply_publish (h : s.stages.get? stage = some tree) (version : String) :
    s.apply (.publish stage version) =
      { s with
          versions := s.versions.insert (foldName version) ⟨version, tree⟩
          stages := s.stages.erase stage } := by
  simp only [apply, h]

theorem find?_publish (h : s.stages.get? stage = some tree) (version other : String) :
    (s.apply (.publish stage version)).find? other =
      if foldName other = foldName version then some ⟨version, tree⟩ else s.find? other := by
  rw [apply_publish h]
  exact OrdMap.get?_insert _ _ _ _

theorem fold_ne {v w : String} {tree' : Tree} (hv : s.find? v = some ⟨v, tree⟩)
    (hw : s.find? w = some ⟨w, tree'⟩) (hne : v ≠ w) : foldName v ≠ foldName w := by
  intro hfo
  have hfi : s.find? v = s.find? w := congrArg s.versions.get? hfo
  rw [hv, hw] at hfi
  exact hne (congrArg VersionDir.name (Option.some.inj hfi))

theorem Published.present (ha : s.Published a) : s.versionPresent a.version = true := by
  unfold versionPresent
  rw [ha]
  rfl

theorem mem_candidateStages {stage : String × Tree} (h : (s.candidateStages a)[i]? = some stage) :
    s.stages.get? stage.1 = some stage.2 ∧ stage.2 = ⟨some a, stage.2.intact⟩ := by
  obtain ⟨hm, hco⟩ := mem_filter.mp (mem_of_getElem? h)
  refine ⟨OrdMap.mem_toList_iff.mp hm, ?_⟩
  have : stage.2.complete = some a := by simpa using hco
  rw [← this]

theorem findCandidateStage_eq (a : ArtifactIdentity) :
    s.findCandidateStage a = ((s.candidateStages a)[0]?).map Prod.fst := by
  unfold findCandidateStage candidateStages OrdMap.find?
  rw [← head?_filter, head?_eq_getElem?]

theorem candidateStages_publish {stage : String × Tree} (h : (s.candidateStages a)[i]? = some stage)
    (version : String) :
    (s.apply (.publish stage.1 version)).candidateStages a = (s.candidateStages a).eraseIdx i := by
  rw [apply_publish (mem_candidateStages h).1]
  exact OrdMap.filter_toList_erase h

theorem pick_staged (i : ℕ) (a : ArtifactIdentity) :
    pick i (s.staged a) =
      ((s.candidateStages a)[pickIndex i (s.staged a).length]?).map fun stage =>
        (stage.2.intact, (s.staged a).eraseIdx (pickIndex i (s.staged a).length)) := by
  unfold pick
  rw [staged, getElem?_map, Option.map_map]
  rfl

end Store

/-! ## A store that moves from one position to the next -/

section Moves

variable {blake3 : Digest → Digest → ArtifactIdentity → Digest} {c : ActivationJournal}
  {p p' : Position} {s s' : Store}

/-- A record is replaced; the directories stay. -/
theorem At.replace (h : At blake3 c p s) (hve : s'.versions = s.versions)
    (hs : s'.slots = slotsAt c p') (hjrn : JournalAt blake3 c p' s'.journal)
    (hpub : ∀ a ∈ publishedAt c p', s.Published a)
    (hce : ∀ a ∈ censusAt c p, ∃ b ∈ censusAt c p', a.version = b.version)
    (hca : CandidateAt c s' p') : At blake3 c p' s' where
  slots := hs
  journal := hjrn
  published := by
    intro a ha
    unfold Store.Published Store.find?
    rw [hve]
    exact hpub a ha
  census := by
    intro k dir hk
    rw [hve] at hk
    obtain ⟨hke, a, ha, hn⟩ := h.census k dir hk
    obtain ⟨b, hb, he⟩ := hce a ha
    exact ⟨hke, b, hb, hn.trans he⟩
  candidate := hca

/-- A version leaves; the records stay. -/
theorem At.retire {version : String} (h : At blake3 c p s) (hs : slotsAt c p = slotsAt c p')
    (hjrn : JournalAt blake3 c p' s.journal)
    (hpu : ∀ a ∈ publishedAt c p', s.Published a ∧ foldName a.version ≠ foldName version)
    (hce : ∀ a ∈ censusAt c p, a.version = version ∨ a ∈ censusAt c p')
    (hca : CandidateAt c (s.apply (.retire version)) p') :
    At blake3 c p' (s.apply (.retire version)) where
  slots := h.slots.trans hs
  journal := hjrn
  published := by
    intro a ha
    obtain ⟨hpub, hfo⟩ := hpu a ha
    unfold Store.Published
    rw [Store.find?_retire, if_neg hfo]
    exact hpub
  census := by
    intro k dir hk
    have hg : (s.versions.erase (foldName version)).get? k = some dir := hk
    rw [OrdMap.get?_erase] at hg
    split_ifs at hg with hfo
    obtain ⟨hke, a, ha, hn⟩ := h.census k dir hg
    refine ⟨hke, a, ?_, hn⟩
    rcases hce a ha with he | hm
    · rw [hke, hn, he] at hfo
      exact absurd rfl hfo
    · exact hm
  candidate := hca

variable {outcome : WindowsActivationOutcome}

theorem At.removeStage (h : At blake3 c (.resolved outcome) s) (stage : String) :
    At blake3 c (.resolved outcome) (s.apply (.removeStage stage)) :=
  h.replace rfl h.slots h.journal h.published (fun a ha => ⟨a, ha, rfl⟩)
    (by cases outcome <;> exact h.candidate)

/-- Where the plan removes the journal, removing it resolves the attempt. -/
theorem At.removeJournal {d : Choice} (h : At blake3 c p s)
    (hs : attemptStep c d p = some (.removeJournal, .resolved outcome)) :
    At blake3 c (.resolved outcome) (s.apply .removeJournal) := by
  have hn : ∀ i staged, some (publishNext c (pick i staged)) =
      some (Fact.removeJournal, Position.resolved outcome) → outcome = .abandoned := by
    intro i staged hn
    cases hpi : pick i staged <;> rw [hpi] at hn <;> cases hn
    rfl
  cases p with
  | begun staged =>
    obtain rfl := hn _ _ hs
    exact h.replace rfl h.slots ⟨_, rfl⟩ h.published (fun a ha => ⟨a, ha, rfl⟩) trivial
  | publishing published staged =>
    cases published with
    | none =>
      obtain rfl := hn _ _ hs
      exact h.replace rfl h.slots ⟨_, rfl⟩ h.published (fun a ha => ⟨a, ha, rfl⟩) trivial
    | some copy => cases copy <;> cases hs
  | committed left =>
    cases left with
    | true =>
      obtain ⟨previous, -, he⟩ := Option.map_eq_some_iff.mp hs
      cases he
    | false =>
      cases hs
      exact h.replace rfl h.slots ⟨_, rfl⟩ h.published (fun a ha => ⟨a, ha, rfl⟩) h.candidate
  | restored left =>
    cases left with
    | true => cases hs
    | false =>
      cases hs
      exact h.replace rfl h.slots ⟨_, rfl⟩ h.published (fun a ha => ⟨a, ha, rfl⟩) h.candidate
  | awaiting =>
    cases d with
    | mk verdict first => cases verdict <;> cases hs
  | floored | selected | accepted | preserved | failing | blocked | resolved _ => cases hs

end Moves

/-! ## Transactions in step with the disk -/

/-- The versions that a transaction may hold open at a position. -/
def pinnedAt (c : ActivationJournal) : Position → List ArtifactIdentity
  | .begun _ | .publishing none _ | .publishing (some false) _ | .blocked => c.knownGood
  | _ => c.candidate :: c.knownGood

/-- The stage tried next, and the copies to choose from, while none is published. -/
def Position.looking (d : Choice) : Position → Option (ℕ × List Bool)
  | .begun staged => some (d.first, staged)
  | .publishing none staged => some (0, staged)
  | _ => none

section Leads

variable (blake3 : Digest → Digest → ArtifactIdentity → Digest) (c : ActivationJournal)
  (d : Choice) (fit : Prop)

/-- The transaction agrees with the disk, at position `p`. -/
structure Holds (p : Position) (t : Transaction) : Prop where
  at' : At blake3 c p t.disk
  journal : t.disk.journal = some t.journal
  slots : t.slots = t.disk.slots
  pins : ∀ v ∈ t.pins, ∃ a ∈ pinnedAt c p, a.version = v
  held : p = .blocked → ∀ a ∈ c.knownGood, a.version ∈ t.pins
  stage : ∀ i staged, p.looking d = some (i, staged) →
    t.stage = ((t.disk.candidateStages c.candidate)[pickIndex i staged.length]?).map Prod.fst

/-- Why an operation of a fit owner may still fail. -/
def Excused (p : Position) : Prop := ¬ fit ∨ p = .blocked ∨ p = .resolved .abandoned

/-- The plan under the decisions of this run. -/
abbrev Follows : Position → Store → List Write → Position → Prop :=
  Tracks ((attemptPlan c).under d) Store.apply Write.fact (At blake3 c)

/-- What an operation started with `t` at `p` has written, and where that leads. -/
def Leads {α : Type} (p : Position) (t : Transaction) (r : Result α)
    (post : α → Position → Transaction → Prop) : Prop :=
  ∃ ws p', r.1.written = t.written ++ ws ∧ r.1.disk = ws.foldl Store.apply t.disk ∧
    Follows blake3 c d p t.disk ws p' ∧
    match r.2 with
    | .ok a => post a p' r.1
    | .error _ => Excused fit p'

variable {blake3 c d fit} {α β : Type} {p p' : Position} {t t' : Transaction}
  {post : α → Position → Transaction → Prop}

theorem Leads.refuse {err : UpdateError} (hat : At blake3 c p t.disk) (hd : t'.disk = t.disk)
    (hw : t'.written = t.written) (hexc : Excused fit p) :
    Leads blake3 c d fit p t (t', .error err) post :=
  ⟨[], p, by simp [hw], hd, .nil hat, hexc⟩

variable {a : α} {r : Result α} {tree : Tree}

theorem Leads.done (hat : At blake3 c p t.disk) (hd : t'.disk = t.disk)
    (hw : t'.written = t.written) (hp : post a p t') :
    Leads blake3 c d fit p t (t', .ok a) post :=
  ⟨[], p, by simp [hw], hd, .nil hat, hp⟩

theorem Leads.write {w : Write} {l : Fact} (hat : At blake3 c p t.disk)
    (hd : t'.disk = t.disk.apply w) (hw : t'.written = t.written ++ [w])
    (hf : w.fact = some l) (hs : attemptStep c d p = some (l, p'))
    (hat' : At blake3 c p' t'.disk) (hp : post a p' t') :
    Leads blake3 c d fit p t (t', .ok a) post :=
  ⟨[w], p', hw, hd, .step (d := ()) hat hf hs (.nil (hd ▸ hat')), hp⟩

theorem Leads.andThen {next : Transaction → α → Result β}
    {post' : β → Position → Transaction → Prop} (h : Leads blake3 c d fit p t r post)
    (hn : ∀ a p' t', At blake3 c p' t'.disk → post a p' t' →
      Leads blake3 c d fit p' t' (next t' a) post') :
    Leads blake3 c d fit p t (r.andThen next) post' := by
  obtain ⟨ws, p₁, hw, hd, hfol, hres⟩ := h
  obtain ⟨t₁, result⟩ := r
  cases result with
  | error err => exact ⟨ws, p₁, hw, hd, hfol, hres⟩
  | ok a =>
    have hat : At blake3 c p₁ t₁.disk := hd ▸ hfol.finish
    obtain ⟨ws', p₂, hw', hd', hfol', hres'⟩ := hn a p₁ t₁ hat hres
    refine ⟨ws ++ ws', p₂, ?_, ?_, ?_, hres'⟩
    · rw [← append_assoc, ← hw]
      exact hw'
    · rw [foldl_append, ← hd]
      exact hd'
    · rw [hd] at hfol'
      exact hfol.append hfol'

/-- What was reached may be said in fewer words. -/
theorem Leads.weaken {post' : α → Position → Transaction → Prop}
    (h : Leads blake3 c d fit p t r post) (hp : ∀ a p' t', post a p' t' → post' a p' t') :
    Leads blake3 c d fit p t r post' := by
  obtain ⟨ws, p₁, hw, hd, hfol, hres⟩ := h
  refine ⟨ws, p₁, hw, hd, hfol, ?_⟩
  cases hr : r.2 with
  | error err =>
    rw [hr] at hres
    exact hres
  | ok a =>
    rw [hr] at hres
    exact hp a p₁ r.1 hres

/-! ## What the transaction knows at a position -/

namespace Holds

variable (h : Holds blake3 c d p t)

include h

theorem journalAt : t.journal.context = c.context ∧ ValidOwner t.journal ∧
    PhaseAt blake3 t.journal p := by
  have := h.at'.journal
  rwa [h.journal] at this

theorem candidate : t.journal.candidate = c.candidate := candidate_of_context h.journalAt.1

theorem slots_eq : t.slots = slotsAt c p := h.slots.trans h.at'.slots

theorem retirementDue_eq (hc : ValidContext c) :
    retirementDue t.journal t.slots = retireeAt c p := by
  obtain ⟨hctx, -, hph⟩ := h.journalAt
  rw [h.slots_eq, ← slotsAt_of_context hctx,
    retirementDue_at (validContext_of_context hctx hc) hph, retireeAt_of_context hctx]

theorem plannedStep_eq (hc : ValidContext c) :
    t.plannedStep blake3 = plannedAt c t.candidateLocation
      (match retireeAt c p with
        | some retiree => t.disk.versionPresent retiree.version
        | none => false) p := by
  obtain ⟨hctx, ho, hph⟩ := h.journalAt
  unfold Transaction.plannedStep
  rw [h.retirementDue_eq hc, h.slots_eq, ← slotsAt_of_context hctx,
    nextActivationStep_at (validContext_of_context hctx hc) ho hph]
  exact plannedAt_of_context hctx _ _ _

end Holds

/-! ## Records that are replaced -/

section Records

/-- The transaction after a slot was replaced, in the record and in its copy. -/
theorem Holds.replace (h : Holds blake3 c d p t) (hve : t'.disk.versions = t.disk.versions)
    (hr : t'.disk.journal = t.disk.journal) (hjrn : t'.journal = t.journal)
    (hd : t'.disk.slots = slotsAt c p') (hs : t'.slots = slotsAt c p')
    (hph : PhaseAt blake3 t.journal p → PhaseAt blake3 t.journal p')
    (hpub : ∀ a ∈ publishedAt c p', t.disk.Published a)
    (hce : ∀ a ∈ censusAt c p, ∃ b ∈ censusAt c p', a.version = b.version)
    (hca : CandidateAt c t'.disk p') (hpi : t'.pins = t.pins)
    (hpin : ∀ a ∈ pinnedAt c p, a ∈ pinnedAt c p') (hblk : p' ≠ .blocked)
    (hlo : p'.looking d = none) : Holds blake3 c d p' t' where
  at' := by
    refine h.at'.replace hve hd ?_ hpub hce hca
    obtain ⟨hctx, ho, hph'⟩ := h.journalAt
    rw [hr, h.journal]
    exact ⟨hctx, ho, hph hph'⟩
  journal := by rw [hr, h.journal, hjrn]
  slots := hs.trans hd.symm
  pins := by
    intro v hv
    rw [hpi] at hv
    obtain ⟨a, ha, he⟩ := h.pins v hv
    exact ⟨a, hpin a ha, he⟩
  held := fun he => absurd he hblk
  stage := by
    intro i staged hlook
    rw [hlo] at hlook
    cases hlook

variable (hc : ValidContext c) (hfit : fit → BoundedJournal c)

include hc hfit

variable {kind : PointerKind} {a : ArtifactIdentity} {err : UpdateError}

theorem unfit_of_encodePointer (ha : a ∈ c.candidate :: c.knownGood)
    (he : encodePointer kind a = .error err) : ¬ fit := by
  intro hf
  rw [encodePointer_ok kind ((hfit hf).artifact a ha) (hc.wire a ha)] at he
  cases he

theorem unfit_of_encodeFloor (he : encodeFloor c.candidate.version = .error err) : ¬ fit := by
  intro hf
  have hm : c.candidate ∈ c.candidate :: c.knownGood := mem_cons_self
  rw [encodeFloor_ok ((hfit hf).artifact _ hm) (hc.wire _ hm)] at he
  cases he

theorem unfit_of_encodeJournal {j : ActivationJournal} (hctx : j.context = c.context)
    (ho : ValidOwner j) (he : encodeActivationJournal j = .error err) : ¬ fit := by
  intro hf
  have hok := (encodeActivationJournal_ok (boundedJournal_of_context hctx (hfit hf))).mpr
    ⟨validContext_of_context hctx hc, ho⟩
  rw [hok] at he
  cases he

/-- While the candidate is selected, a new phase is all that changes. -/
theorem Holds.writePhase {l : Fact} (phase : ActivationPhase) (h : Holds blake3 c d p t)
    (hp : slotsAt c p = candidateSlots c ∧ publishedAt c p = c.candidate :: c.knownGood ∧
      censusAt c p = c.candidate :: c.knownGood ∧ pinnedAt c p = c.candidate :: c.knownGood)
    (hp' : p' = .awaiting ∨ p' = .accepted ∨ p' = .failing)
    (hst : attemptStep c d p = some (l, p')) (hf : phase.fact = some l)
    (hph : PhaseAt blake3 { t.journal with phase } p') :
    Leads blake3 c d fit p t (t.writePhase phase) (fun _ q t' => q = p' ∧ Holds blake3 c d p' t') := by
  obtain ⟨hctx, ho, -⟩ := h.journalAt
  have ho' : ValidOwner { t.journal with phase } :=
    ⟨ho.lifecycle_ne_attempt, ho.lifecycle_ne_health, ho.ownership⟩
  have hctx' : ActivationJournal.context { t.journal with phase } = c.context := hctx
  obtain ⟨hs, hpub, hce, hpin⟩ := hp
  have hat' : At blake3 c p' (t.disk.apply (.journal { t.journal with phase })) := by
    refine h.at'.replace rfl ?_ ⟨hctx', ho', hph⟩ ?_ ?_ ?_
    · show t.disk.slots = slotsAt c p'
      rw [h.at'.slots, hs]
      rcases hp' with rfl | rfl | rfl <;> rfl
    · intro a ha
      refine h.at'.published a ?_
      rw [hpub]
      rcases hp' with rfl | rfl | rfl <;> exact ha
    · intro a ha
      rw [hce] at ha
      refine ⟨a, ?_, rfl⟩
      rcases hp' with rfl | rfl | rfl <;> exact ha
    · rcases hp' with rfl | rfl | rfl <;> trivial
  unfold Transaction.writePhase Transaction.writeJournal
  cases henc : encodeActivationJournal { t.journal with phase } with
  | error err =>
    exact .refuse h.at' rfl rfl (.inl (unfit_of_encodeJournal hc hfit hctx' ho' henc))
  | ok _ =>
    refine .write (w := .journal { t.journal with phase }) h.at' rfl rfl hf hst hat'
      ⟨rfl, hat', rfl, h.slots, ?_, ?_, ?_⟩
    · intro v hv
      obtain ⟨a, ha, he⟩ := h.pins v hv
      rw [hpin] at ha
      refine ⟨a, ?_, he⟩
      rcases hp' with rfl | rfl | rfl <;> exact ha
    · intro he
      rcases hp' with rfl | rfl | rfl <;> cases he
    · intro i staged hlo
      rcases hp' with rfl | rfl | rfl <;> cases hlo

/-- A pointer is replaced, on disk and then in the transaction's copy. -/
theorem Holds.pointer (h : Holds blake3 c d p t) (ha : a ∈ c.candidate :: c.knownGood)
    (update : Transaction → Transaction)
    (hd : (update (t.put (.pointer kind a))).disk = t.disk.apply (.pointer kind a))
    (hw : (update (t.put (.pointer kind a))).written = t.written ++ [.pointer kind a])
    (hs : attemptStep c d p = some (.pointer kind a, p'))
    (hh : Holds blake3 c d p' (update (t.put (.pointer kind a)))) :
    Leads blake3 c d fit p t (Result.andThen (t.writePointer kind a) fun t _ => (update t, .ok ()))
      (fun _ q t' => q = p' ∧ Holds blake3 c d p' t') := by
  unfold Transaction.writePointer
  cases henc : encodePointer kind a with
  | error err =>
    exact .refuse h.at' rfl rfl (.inl (unfit_of_encodePointer hc hfit ha henc))
  | ok _ => exact .write h.at' hd hw rfl hs hh.at' ⟨rfl, hh⟩

theorem Holds.selectCandidate (h : Holds blake3 c d .floored t) :
    Leads blake3 c d fit .floored t (t.selectCurrent t.journal.candidate)
      (fun _ q t' => q = .selected ∧ Holds blake3 c d .selected t') := by
  rw [h.candidate]
  have hs : t.slots = slotsAt c .floored := h.slots_eq
  refine h.pointer hc hfit mem_cons_self (fun t => { t with current := c.candidate }) rfl rfl
    rfl (h.replace rfl rfl rfl ?_ ?_ id h.at'.published (fun a ha => ⟨a, ha, rfl⟩) trivial rfl
      (fun a ha => ha) (by simp) rfl)
  · exact congrArg (fun slots => { slots with current := c.candidate }) h.at'.slots
  · exact congrArg (fun slots => { slots with current := c.candidate }) hs

theorem Holds.preservePriorKnownGood (h : Holds blake3 c d .accepted t) :
    Leads blake3 c d fit .accepted t t.preservePriorKnownGood
      (fun _ q t' => q = .preserved ∧ Holds blake3 c d .preserved t') := by
  have hgo : t.journal.priorLastKnownGood = c.priorLastKnownGood :=
    lastKnownGood_of_context h.journalAt.1
  have hs : t.slots = slotsAt c .accepted := h.slots_eq
  unfold Transaction.preservePriorKnownGood
  rw [hgo]
  have hm : c.priorLastKnownGood ∈ c.candidate :: c.knownGood := mem_cons_of_mem _ lastKnownGood_mem
  refine (h.pointer hc hfit hm
    (fun t => { t with previousKnownGood := some t.journal.priorLastKnownGood }) rfl rfl
    rfl (h.replace rfl rfl rfl ?_ ?_ id h.at'.published (fun a ha => ⟨a, ha, rfl⟩) trivial rfl
      (fun a ha => ha) (by simp) rfl))
  · exact congrArg
      (fun slots => { slots with previousKnownGood := some c.priorLastKnownGood }) h.at'.slots
  · show ({ t.slots with
      previousKnownGood := some t.journal.priorLastKnownGood } : ProtectedSlots) = _
    rw [hgo, hs]
    rfl

/-- After the commit of the candidate the older known-good is left to retire, if there was one. -/
theorem Holds.commitCandidate (h : Holds blake3 c d .preserved t) :
    Leads blake3 c d fit .preserved t t.commitCandidate
      (fun _ q t' => q = .committed c.priorPreviousKnownGood.isSome ∧
        Holds blake3 c d (.committed c.priorPreviousKnownGood.isSome) t') := by
  have hca := h.candidate
  have hsl : t.slots = slotsAt c .preserved := h.slots_eq
  unfold Transaction.commitCandidate
  rw [hca]
  refine h.pointer hc hfit mem_cons_self
    (fun t => { t with lastKnownGood := t.journal.candidate }) rfl rfl rfl
    (h.replace rfl rfl rfl ?_ ?_ id ?_ ?_ ?_ rfl (fun a ha => ha) (by simp) rfl)
  · exact congrArg (fun slots => { slots with lastKnownGood := c.candidate }) h.at'.slots
  · show ({ t.slots with lastKnownGood := t.journal.candidate } : ProtectedSlots) = _
    rw [hca, hsl]
    rfl
  · intro a ha
    refine h.at'.published a ?_
    cases hpr : c.priorPreviousKnownGood.isSome with
    | true =>
      rw [hpr] at ha
      exact ha
    | false =>
      rw [hpr] at ha
      rcases mem_cons.mp ha with rfl | ha
      · exact mem_cons_self
      · rw [mem_singleton.mp ha]
        exact mem_cons_of_mem _ lastKnownGood_mem
  · intro a ha
    cases hpr : c.priorPreviousKnownGood.isSome with
    | true => exact ⟨a, ha, rfl⟩
    | false =>
      -- without an older known-good, the rollback target is the newer one
      have hn : c.priorPreviousKnownGood = none := by simpa using hpr
      refine ⟨a, ?_, rfl⟩
      rcases mem_cons.mp ha with rfl | ha
      · exact mem_cons_self
      · rcases hc.mem_knownGood ha with rfl | hs
        · exact mem_cons_of_mem _ mem_cons_self
        · rw [hn] at hs
          cases hs
  · cases hpr : c.priorPreviousKnownGood with
    | none =>
      intro a ha
      rw [hpr] at ha
      cases ha
    | some previous =>
      show c.priorPreviousKnownGood.isSome = true
      rw [hpr]
      rfl

theorem Holds.restoreRollbackTarget (h : Holds blake3 c d .failing t) :
    Leads blake3 c d fit .failing t (t.selectCurrent t.journal.rollbackTarget)
      (fun _ q t' => q = .restored true ∧ Holds blake3 c d (.restored true) t') := by
  rw [rollbackTarget_of_context h.journalAt.1]
  have hs : t.slots = slotsAt c .failing := h.slots_eq
  refine h.pointer hc hfit (mem_cons_of_mem _ rollbackTarget_mem)
    (fun t => { t with current := c.rollbackTarget }) rfl rfl rfl
    (h.replace rfl rfl rfl ?_ ?_ id h.at'.published (fun a ha => ⟨a, ha, rfl⟩) trivial rfl
      (fun a ha => ha) (by simp) rfl)
  · exact congrArg (fun slots => { slots with current := c.rollbackTarget }) h.at'.slots
  · exact congrArg (fun slots => { slots with current := c.rollbackTarget }) hs

theorem Holds.enterAwaitingHealth (h : Holds blake3 c d .selected t) :
    Leads blake3 c d fit .selected t (t.writePhase .awaitingHealth)
      (fun _ q t' => q = .awaiting ∧ Holds blake3 c d .awaiting t') :=
  h.writePhase hc hfit .awaitingHealth ⟨rfl, rfl, rfl, rfl⟩ (.inl rfl) rfl rfl rfl

end Records

/-! ## Directories that are renamed -/

/-- Retiring a version that no slot names and no one else holds open. -/
theorem Transaction.retire_eq {a : ArtifactIdentity}
    (hs : ∀ b ∈ t.slotArtifacts, b.version ≠ a.version)
    (hfi : t.disk.find? a.version = some ⟨a.version, tree⟩)
    (hpi : ∀ v ∈ t.pins, ∃ tree, t.disk.find? v = some ⟨v, tree⟩) :
    t.retire a = (Transaction.put { t with pins := t.pins.filter (fun pin => pin != a.version) }
      (.retire a.version), .ok ()) := by
  have hany : t.slotArtifacts.any (fun b => b.version == a.version) = false := by
    rw [any_eq_false]
    intro b hb
    simpa using hs b hb
  have hpr : t.disk.versionPresent a.version = true := by
    unfold Store.versionPresent
    rw [hfi]
    rfl
  have ho : (t.pins.filter (fun pin => pin != a.version)).any
      (fun pin => foldName pin == foldName a.version) = false := by
    rw [any_eq_false]
    intro v hv
    obtain ⟨hm, hne⟩ := mem_filter.mp hv
    obtain ⟨tree', hv'⟩ := hpi v hm
    simpa using Store.fold_ne hv' hfi (by simpa using hne)
  unfold Transaction.retire
  simp [hany, hpr, ho]

/-- A transaction whose version was retired holds the next position. -/
theorem Holds.retire {a : ArtifactIdentity} (h : Holds blake3 c d p t)
    (hs : ∀ b ∈ t.slotArtifacts, b.version ≠ a.version)
    (hfi : t.disk.find? a.version = some ⟨a.version, tree⟩)
    (hpin : ∀ b ∈ pinnedAt c p, ∃ tree, t.disk.find? b.version = some ⟨b.version, tree⟩)
    (hst : attemptStep c d p = some (.retire a.version, p'))
    (hat' : At blake3 c p' (t.disk.apply (.retire a.version)))
    (hpin' : ∀ b ∈ pinnedAt c p, b ∈ pinnedAt c p') (hblk : p' ≠ .blocked)
    (hlo : p'.looking d = none) :
    Leads blake3 c d fit p t (t.retire a) (fun _ q t' => q = p' ∧ Holds blake3 c d p' t') := by
  have hpi : ∀ v ∈ t.pins, ∃ tree, t.disk.find? v = some ⟨v, tree⟩ := by
    intro v hv
    obtain ⟨b, hb, rfl⟩ := h.pins v hv
    exact hpin b hb
  rw [Transaction.retire_eq hs hfi hpi]
  refine .write (w := .retire a.version) h.at' rfl rfl rfl hst hat'
    ⟨rfl, hat', h.journal, h.slots, ?_, fun he => absurd he hblk, ?_⟩
  · intro v hv
    obtain ⟨b, hb, he⟩ := h.pins v (mem_filter.mp hv).1
    exact ⟨b, hpin' b hb, he⟩
  · intro i staged hlook
    rw [hlo] at hlook
    cases hlook

theorem Holds.slotArtifacts_eq (h : Holds blake3 c d p t) :
    t.slotArtifacts = [(slotsAt c p).current, (slotsAt c p).lastKnownGood] ++
      (slotsAt c p).previousKnownGood.toList := by
  rw [← h.slots_eq]
  rfl

/-- After a rollback the candidate is retired. -/
theorem Holds.retireCandidate (hc : ValidContext c) (h : Holds blake3 c d (.restored true) t) :
    Leads blake3 c d fit (.restored true) t (t.retire c.candidate)
      (fun _ q t' => q = .restored false ∧ Holds blake3 c d (.restored false) t') := by
  have hf := h.at'.published
  have hca := hf c.candidate mem_cons_self
  refine h.retire ?_ hca (fun b hb => ⟨_, hf b hb⟩) rfl ?_ (fun b hb => hb) (by simp) rfl
  · intro b hb
    rw [h.slotArtifacts_eq] at hb
    exact hc.version_ne hb
  · refine h.at'.retire rfl ?_ ?_ ?_ ?_
    · rw [h.journal]
      exact h.journalAt
    · intro a ha
      have hpub := hf a (mem_cons_of_mem _ ha)
      exact ⟨hpub, Store.fold_ne hpub hca (hc.version_ne ha)⟩
    · intro a ha
      rcases mem_cons.mp ha with rfl | ha
      · exact .inl rfl
      · exact .inr ha
    · show Store.find? _ _ = none
      rw [Store.find?_retire, if_pos rfl]

/-- After a commit the superseded known-good is retired. -/
theorem Holds.retireSuperseded (hc : ValidContext c) {previous : ArtifactIdentity}
    (hpr : c.priorPreviousKnownGood = some previous)
    (h : Holds blake3 c d (.committed true) t) :
    Leads blake3 c d fit (.committed true) t (t.retire previous)
      (fun _ q t' => q = .committed false ∧ Holds blake3 c d (.committed false) t') := by
  have hf := h.at'.published
  have hm := previous_mem hpr
  have ho := hf previous (mem_cons_of_mem _ hm)
  have hk : ∀ a ∈ [c.candidate, c.priorLastKnownGood], t.disk.Published a ∧
      a.version ≠ previous.version := by
    intro a ha
    rcases mem_cons.mp ha with rfl | ha
    · exact ⟨hf _ mem_cons_self, fun he => hc.version_ne hm he.symm⟩
    · rw [mem_singleton.mp ha]
      exact ⟨hf _ (mem_cons_of_mem _ lastKnownGood_mem),
        fun he => hc.previous_version_ne hpr he.symm⟩
  refine h.retire ?_ ho (fun b hb => ⟨_, hf b hb⟩) ?_ ?_ (fun b hb => hb) (by simp) rfl
  · intro b hb
    rw [h.slotArtifacts_eq] at hb
    refine (hk b ?_).2
    simpa [slotsAt, committedSlots, candidateSlots] using hb
  · show c.priorPreviousKnownGood.map _ = _
    rw [hpr]
    rfl
  · refine h.at'.retire rfl ?_ ?_ ?_ ?_
    · rw [h.journal]
      exact h.journalAt
    · intro a ha
      obtain ⟨hpub, hne⟩ := hk a ha
      exact ⟨hpub, Store.fold_ne hpub ho hne⟩
    · intro a ha
      rcases mem_cons.mp ha with rfl | ha
      · exact .inr mem_cons_self
      · rcases hc.mem_knownGood ha with rfl | hs
        · exact .inr (mem_cons_of_mem _ mem_cons_self)
        · rw [hpr] at hs
          cases hs
          exact .inl rfl
    · intro a ha
      rw [hpr] at ha
      cases ha
      rw [Store.find?_retire, if_pos rfl]

/-! ## Publication -/

section Publication

variable {i : ℕ} {staged : List Bool}

variable (blake3 c) in
/-- What is known while a copy is looked for. -/
theorem Position.looking_facts (h : p.looking d = some (i, staged)) :
    attemptStep c d p = some (publishNext c (pick i staged)) ∧ slotsAt c p = priorSlots c ∧
      publishedAt c p = c.knownGood ∧ censusAt c p = c.knownGood ∧ pinnedAt c p = c.knownGood ∧
      (∀ s, CandidateAt c s p →
        s.find? c.candidate.version = none ∧ s.staged c.candidate = staged) ∧
      ∀ j, PhaseAt blake3 j p → j.phase = .publishPending := by
  cases p with
  | begun _ =>
    cases h
    exact ⟨rfl, rfl, rfl, rfl, rfl, fun s h => h, fun j h => h⟩
  | publishing published _ =>
    cases published with
    | none =>
      cases h
      exact ⟨rfl, rfl, rfl, rfl, rfl, fun s h => h, fun j h => h⟩
    | some _ => cases h
  | _ => cases h

/-- A stage renamed to the candidate's free version name. -/
theorem At.publish {s : Store} {stage : String × Tree} (h : At blake3 c p s)
    (hlo : p.looking d = some (i, staged))
    (hst : (s.candidateStages c.candidate)[pickIndex i staged.length]? = some stage) :
    At blake3 c (.publishing (some stage.2.intact) (staged.eraseIdx (pickIndex i staged.length)))
      (s.apply (.publish stage.1 c.candidate.version)) := by
  obtain ⟨-, hsl, hpub, hce, -, hca, hph⟩ := Position.looking_facts blake3 c hlo
  obtain ⟨hf, hstgd⟩ := hca s h.candidate
  obtain ⟨hg, htr⟩ := Store.mem_candidateStages hst
  have hkeep : (s.apply (.publish stage.1 c.candidate.version)).slots = s.slots ∧
      (s.apply (.publish stage.1 c.candidate.version)).journal = s.journal := by
    rw [Store.apply_publish hg]
    exact ⟨rfl, rfl⟩
  refine ⟨hkeep.1.trans (h.slots.trans hsl), ?_, ?_, ?_, ?_, ?_⟩
  · have hjrn := h.journal
    rw [hkeep.2]
    cases hj : s.journal with
    | none =>
      rw [hj] at hjrn
      obtain ⟨outcome, rfl⟩ := hjrn
      cases hlo
    | some j =>
      rw [hj] at hjrn
      exact ⟨hjrn.1, hjrn.2.1, hph j hjrn.2.2⟩
  · intro a ha
    have ho : s.find? a.version = _ := h.published a (by rw [hpub]; exact ha)
    unfold Store.Published
    rw [Store.find?_publish hg, if_neg]
    · exact ho
    · intro hfo
      have hs : s.find? a.version = s.find? c.candidate.version := congrArg s.versions.get? hfo
      rw [ho, hf] at hs
      cases hs
  · intro k dir hk
    rw [Store.apply_publish hg, OrdMap.get?_insert] at hk
    split_ifs at hk with hfo
    · cases hk
      exact ⟨hfo, c.candidate, mem_cons_self, rfl⟩
    · obtain ⟨hke, a, ha, hn⟩ := h.census k dir hk
      rw [hce] at ha
      exact ⟨hke, a, mem_cons_of_mem _ ha, hn⟩
  · rw [Store.find?_publish hg, if_pos rfl, ← htr]
  · unfold Store.staged
    rw [Store.candidateStages_publish hst, ← eraseIdx_map, ← hstgd]
    rfl

/-- While a copy is looked for, the stage in hand is published, if there is one. -/
theorem Holds.publishCandidate {stage : String} (h : Holds blake3 c d p t)
    (hlo : p.looking d = some (i, staged)) (hst : t.stage = some stage) :
    Leads blake3 c d fit p t t.publishCandidate (fun _ q t' => ∃ copy rest,
      pick i staged = some (copy, rest) ∧ q = .publishing (some copy) rest ∧
        Holds blake3 c d q t') := by
  obtain ⟨hs, -, -, -, hpin, hca, -⟩ := Position.looking_facts blake3 c hlo
  obtain ⟨hf, hstgd⟩ := hca t.disk h.at'.candidate
  have hch := h.stage i staged hlo
  rw [hst] at hch
  obtain ⟨⟨name, tree⟩, hg, rfl⟩ := Option.map_eq_some_iff.mp hch.symm
  have hpi : pick i staged = some (tree.intact, staged.eraseIdx (pickIndex i staged.length)) := by
    rw [← hstgd] at hg ⊢
    rw [Store.pick_staged, hg]
    rfl
  have hat' := h.at'.publish hlo hg
  have habs : t.disk.versionPresent t.journal.candidate.version = false := by
    unfold Store.versionPresent
    rw [h.candidate, hf]
    rfl
  unfold Transaction.publishCandidate
  rw [hst]
  simp only [habs, (Store.mem_candidateStages hg).1, Option.isNone_some, Bool.or_self,
    Bool.false_eq_true, if_false]
  rw [hpi] at hs
  rw [h.candidate]
  refine .write (w := .publish name c.candidate.version) h.at' rfl rfl rfl hs hat'
    ⟨_, _, hpi, rfl, hat', ?_, ?_, ?_, ?_, ?_⟩
  · show (t.disk.apply _).journal = _
    rw [Store.apply_publish (Store.mem_candidateStages hg).1]
    exact h.journal
  · show _ = (t.disk.apply _).slots
    rw [Store.apply_publish (Store.mem_candidateStages hg).1]
    exact h.slots
  · intro v hv
    obtain ⟨a, ha, he⟩ := h.pins v hv
    rw [hpin] at ha
    refine ⟨a, ?_, he⟩
    cases tree.intact with
    | true => exact mem_cons_of_mem _ ha
    | false => exact ha
  · intro he
    cases he
  · intro i' staged' hlo'
    cases hlo'

/-- Removing the journal where the plan removes it resolves the attempt; the leftover stages that
follow are no part of it. -/
theorem removeJournalAs_follows {outcome : WindowsActivationOutcome} (hat : At blake3 c p t.disk)
    (hs : attemptStep c d p = some (.removeJournal, .resolved outcome)) :
    ∃ ws, (t.removeJournalAs outcome).1.written = t.written ++ ws ∧
      (t.removeJournalAs outcome).1.disk = ws.foldl Store.apply t.disk ∧
      Follows blake3 c d p t.disk ws (.resolved outcome) := by
  have hst : ∀ (stages : List String) (t : Transaction), At blake3 c (.resolved outcome) t.disk →
      ∃ ws, (stages.foldl (fun t stage => t.put (.removeStage stage)) t).written = t.written ++ ws ∧
        (stages.foldl (fun t stage => t.put (.removeStage stage)) t).disk =
          ws.foldl Store.apply t.disk ∧
        Follows blake3 c d (.resolved outcome) t.disk ws (.resolved outcome) := by
    intro stages
    induction stages with
    | nil =>
      intro t hat
      exact ⟨[], by simp, rfl, .nil hat⟩
    | cons stage stages ih =>
      intro t hat
      obtain ⟨ws, hw, hd, hfol⟩ := ih (t.put (.removeStage stage)) (hat.removeStage stage)
      refine ⟨.removeStage stage :: ws, ?_, hd, .silent hat rfl hfol⟩
      rw [foldl_cons, hw]
      simp [Transaction.put]
  obtain ⟨ws, hw, hd, hfol⟩ :=
    hst _ { t.put .removeJournal with journaled := false } (hat.removeJournal hs)
  refine ⟨.removeJournal :: ws, ?_, hd, .step (d := ()) hat rfl hs hfol⟩
  unfold Transaction.removeJournalAs
  rw [hw]
  simp [Transaction.put]

end Publication

end Leads

end Keld.Update
