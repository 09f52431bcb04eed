/-
# `Keld.Update.Invariant` — the protected store over a history of updates

Attempts and recoveries by any owners, each cut after any number of durable steps, with
stages completed in between.  `Healthy` is what holds of the store at every moment: the
slots carry the installation's scope, name versions that are there and verified, and
are not above the floor; without a journal the current version is the last known good.

A store with a journal stands at a position of the attempt's plan, one without is
healthy.  What a durable step may do follows from the step of the plan it is: none
lowers the floor (`attemptStep_floor`), and a retirement takes away exactly one
version, which no slot names and which the journal gave up (`Retirement`).
-/
import Keld.Lib.Machine
import Keld.Update.Recovery

namespace Keld.Update

open List

open SemVer (Version)

/-! ## Histories -/

/-- What happens to an installation.  An owner's run is cut after `steps` durable steps. -/
inductive Event where
  | stage (name : String) (tree : Tree)
  | attempt (owner : Owner) (stage : String) (candidate : ArtifactIdentity) (steps : ℕ)
  | recover (owner : Owner) (steps : ℕ)

section History

variable (blake3 : Digest → Digest → ArtifactIdentity → Digest) (baseline : ArtifactIdentity)

/-- The durable steps that are taken. -/
def Event.writes (s : Store) : Event → List Write
  | .stage _ _ => []
  | .attempt owner name candidate steps =>
    (owner.attempt blake3 baseline s name candidate).take steps
  | .recover owner steps => (owner.recover blake3 baseline s).take steps

def Store.withStage (s : Store) (name : String) (tree : Tree) : Store :=
  { s with stages := s.stages.insert name tree }

def Store.after (s : Store) : Event → Store
  | .stage name tree => s.withStage name tree
  | event => (event.writes blake3 baseline s).foldl Store.apply s

/-- The installation as a machine, which reports every durable step with the store it was made
to. -/
def updates (s : Store) : Machine Store Event (List (Store × Write)) where
  init := s
  step := fun s event => (s.after blake3 baseline event,
    trail Store.apply s (event.writes blake3 baseline s))

/-- Every durable step of a history. -/
def durableSteps (s : Store) (events : List Event) : List (Store × Write) :=
  (updates blake3 baseline s).collect (fun _ _ steps => steps) events

theorem durableSteps_singleton (s : Store) (event : Event) :
    durableSteps blake3 baseline s [event] = trail Store.apply s (event.writes blake3 baseline s) :=
  append_nil _

/-- An attempt that is not cut. -/
def uncut (s : Store) (owner : Owner) (name : String) (candidate : ArtifactIdentity) : Event :=
  .attempt owner name candidate (owner.attempt blake3 baseline s name candidate).length

theorem uncut_writes (s : Store) (owner : Owner) (name : String) (candidate : ArtifactIdentity) :
    (uncut blake3 baseline s owner name candidate).writes blake3 baseline s =
      owner.attempt blake3 baseline s name candidate :=
  take_length

end History

/-! ## What holds of a store -/

/-- `v` is not above `w`, as versions. -/
def NotAbove (v w : String) : Prop :=
  ∃ a b, Version.parse v = some a ∧ Version.parse w = some b ∧ a.precedence ≤ b.precedence

structure Healthy (baseline : ArtifactIdentity) (s : Store) : Prop where
  scope : ∀ a ∈ s.slotArtifacts, sameArtifactScope baseline a = true
  published : ∀ a ∈ s.slotArtifacts, s.Published a
  covered : ∀ a ∈ s.slotArtifacts, NotAbove a.version s.versionFloor
  settled : s.journal = none → s.current = s.lastKnownGood

/-- A version is retired: no slot names it, and the live journal gave it up.  Either it is the one
that `retirement_due` names, or a published copy of the candidate that does not verify, while the
floor is still the prior one.  Every other artifact of the journal keeps its directory. -/
structure Retirement (s : Store) (version : String) : Prop where
  slots : ∀ a ∈ s.slotArtifacts, foldName a.version ≠ foldName version
  journal : ∃ j retiree, s.journal = some j ∧ retiree.version = version ∧
    (retirementDue j s.slots = some retiree ∨
      retiree = j.candidate ∧ j.phase = .publishPending ∧ s.versionFloor = j.priorFloor ∧
        s.verifyPublishedVersion j.candidate ≠ .ok ()) ∧
    ∀ a ∈ j.candidate :: j.knownGood, a ≠ retiree → foldName a.version ≠ foldName version

/-! ## One attempt -/

section Attempt

variable {blake3 : Digest → Digest → ArtifactIdentity → Digest} {baseline : ArtifactIdentity}
  {c : ActivationJournal} {d : Choice} {p p' : Position} {s : Store} {l : Fact} {w : Write}

/-- The context of an attempt that started from a settled installation. -/
structure Context (baseline : ArtifactIdentity) (c : ActivationJournal) : Prop where
  valid : ValidContext c
  scope : ∀ a ∈ c.candidate :: c.knownGood, sameArtifactScope baseline a = true
  settled : c.rollbackTarget = c.priorLastKnownGood

variable {a : ArtifactIdentity} {version : String}

/-- What the slots name is published. -/
theorem slotsAt_published
    (ha : a ∈ [(slotsAt c p).current,
      (slotsAt c p).lastKnownGood] ++ (slotsAt c p).previousKnownGood.toList)
    : a ∈ publishedAt c p := by
  cases p with
  | committed left =>
    cases left <;>
      simp [slotsAt, committedSlots, candidateSlots, publishedAt, ActivationJournal.knownGood]
        at ha ⊢ <;> tauto
  | restored left =>
    cases left <;>
      simp [slotsAt, priorSlots, publishedAt, ActivationJournal.knownGood] at ha ⊢ <;> tauto
  | resolved outcome =>
    cases outcome <;>
      simp [slotsAt, committedSlots, candidateSlots, priorSlots, publishedAt,
        ActivationJournal.knownGood] at ha ⊢ <;> tauto
  | _ =>
    simp [slotsAt, candidateSlots, priorSlots, publishedAt, ActivationJournal.knownGood] at ha ⊢
    tauto

theorem At.slotArtifacts_eq (h : At blake3 c p s) :
    s.slotArtifacts = [(slotsAt c p).current, (slotsAt c p).lastKnownGood] ++
      (slotsAt c p).previousKnownGood.toList := by
  rw [← h.slots]
  rfl

/-- A store at a position of an attempt is healthy. -/
theorem At.healthy (hc : Context baseline c) (h : At blake3 c p s) : Healthy baseline s where
  scope := by
    intro a ha
    rw [h.slotArtifacts_eq] at ha
    exact hc.scope a (slotsAt_subset ha)
  published := by
    intro a ha
    rw [h.slotArtifacts_eq] at ha
    exact h.published a (slotsAt_published ha)
  covered := by
    intro a ha
    rw [h.slotArtifacts_eq] at ha
    obtain ⟨f, v, hf, hv, hle⟩ := slotsAt_covered hc.valid ha
    rw [← h.slots] at hf
    exact ⟨v, f, hv, hf, hle⟩
  settled := by
    intro hn
    have hjrn := h.journal
    rw [hn] at hjrn
    obtain ⟨outcome, rfl⟩ := hjrn
    have hs := h.slots
    have hcu : s.current = (slotsAt c (.resolved outcome)).current :=
      congrArg ProtectedSlots.current hs
    have hgo : s.lastKnownGood = (slotsAt c (.resolved outcome)).lastKnownGood :=
      congrArg ProtectedSlots.lastKnownGood hs
    rw [hcu, hgo]
    cases outcome with
    | committed => rfl
    | rolledBack | abandoned => exact hc.settled

theorem At.keyed (h : At blake3 c p s) : s.Keyed := fun k dir hk => (h.census k dir hk).1

/-- A step of the plan keeps the floor, or moves it from the prior one to the candidate's. -/
theorem attemptStep_floor (hs : attemptStep c d p = some (l, p')) :
    (slotsAt c p').versionFloor = (slotsAt c p).versionFloor ∨
      (slotsAt c p).versionFloor = c.priorFloor ∧
        (slotsAt c p').versionFloor = c.candidate.version := by
  have hn : ∀ next, (slotsAt c (publishNext c next).2).versionFloor = c.priorFloor := by
    intro next
    cases next <;> rfl
  cases p with
  | begun staged =>
    have hf := hn (pick d.first staged)
    rw [Option.some.inj hs] at hf
    exact .inl hf
  | publishing published staged =>
    rcases published with _ | _ | _
    · have hf := hn (pick 0 staged)
      rw [Option.some.inj hs] at hf
      exact .inl hf
    · cases hs
      exact .inl rfl
    · cases hs
      exact .inr ⟨rfl, rfl⟩
  | awaiting =>
    cases d with
    | mk verdict first => cases verdict <;> cases hs <;> exact .inl rfl
  | committed left =>
    cases left with
    | true =>
      obtain ⟨previous, -, he⟩ := Option.map_eq_some_iff.mp hs
      cases he
      exact .inl rfl
    | false =>
      cases hs
      exact .inl rfl
  | restored left => cases left <;> cases hs <;> exact .inl rfl
  | floored | selected | accepted | preserved | failing =>
    cases hs
    exact .inl rfl
  | blocked | resolved _ => cases hs

theorem At.floor_parses (hc : ValidContext c) (h : At blake3 c p s) :
    NotAbove s.versionFloor s.versionFloor := by
  have hf : s.versionFloor = (slotsAt c p).versionFloor :=
    congrArg ProtectedSlots.versionFloor h.slots
  obtain ⟨floor, version, hpr, hver, -, -⟩ := hc.floors
  rw [hf]
  rcases slotsAt_floor c p with he | he
  · rw [he]
    exact ⟨floor, floor, hpr, hpr, le_refl _⟩
  · rw [he]
    exact ⟨version, version, hver, hver, le_refl _⟩

theorem slots_of_silent (h : w.fact = none) : (s.apply w).slots = s.slots := by
  cases w with
  | journal _ | removeStage _ => rfl
  | floor _ | pointer _ _ | removeJournal | publish _ _ | retire _ => cases h

/-- No durable step of an attempt lowers the floor. -/
theorem At.floor_step (hc : ValidContext c) (h : At blake3 c p s)
    (hw : w.fact = none ∨ ∃ d l p₂, (attemptPlan c).step d p = some (l, p₂) ∧
      At blake3 c p₂ (s.apply w)) : NotAbove s.versionFloor (s.apply w).versionFloor := by
  rcases hw with hsil | ⟨d, l, p₂, hs, h₂⟩
  · have hsa : (s.apply w).versionFloor = s.versionFloor :=
      congrArg ProtectedSlots.versionFloor (slots_of_silent hsil)
    rw [hsa]
    exact h.floor_parses hc
  · have hf : s.versionFloor = (slotsAt c p).versionFloor :=
      congrArg ProtectedSlots.versionFloor h.slots
    have hf₂ : (s.apply w).versionFloor = (slotsAt c p₂).versionFloor :=
      congrArg ProtectedSlots.versionFloor h₂.slots
    rcases attemptStep_floor hs with he | ⟨hpr, hca⟩
    · rw [hf₂, he, ← hf]
      exact h.floor_parses hc
    · obtain ⟨floor, version, hpa, hver, hlt, -⟩ := hc.floors
      rw [hf, hf₂, hpr, hca]
      exact ⟨floor, version, hpa, hver, hlt.le⟩

theorem fold_ne_of_kept (h : (s.apply (.retire version)).Published a) :
    foldName a.version ≠ foldName version := by
  intro hfo
  unfold Store.Published at h
  rw [Store.find?_retire, if_pos hfo] at h
  cases h

/-- Where the plan retires a version: a copy of the candidate that does not verify, the candidate
after a rollback, or the version that a commit superseded. -/
theorem attemptStep_retire (hs : attemptStep c d p = some (.retire version, p')) :
    (∃ staged, p = .publishing (some false) staged ∧ p' = .publishing none staged ∧
      version = c.candidate.version) ∨
    (p = .restored true ∧ p' = .restored false ∧ version = c.candidate.version) ∨
    ∃ previous, p = .committed true ∧ p' = .committed false ∧
      c.priorPreviousKnownGood = some previous ∧ version = previous.version := by
  have hn : ∀ next, some (publishNext c next) ≠ some (Fact.retire version, p') := by
    intro next he
    cases next <;> cases he
  cases p with
  | begun staged => exact absurd hs (hn _)
  | publishing published staged =>
    rcases published with _ | _ | _
    · exact absurd hs (hn _)
    · cases hs
      exact .inl ⟨staged, rfl, rfl, rfl⟩
    · cases hs
  | awaiting =>
    cases d with
    | mk verdict first => cases verdict <;> cases hs
  | committed left =>
    cases left with
    | true =>
      obtain ⟨previous, hpr, he⟩ := Option.map_eq_some_iff.mp hs
      cases he
      exact .inr (.inr ⟨previous, rfl, rfl, hpr, rfl⟩)
    | false => cases hs
  | restored left =>
    cases left with
    | true =>
      cases hs
      exact .inr (.inl ⟨rfl, rfl, rfl⟩)
    | false => cases hs
  | floored | selected | accepted | preserved | failing | blocked | resolved _ => cases hs

/-- A step of the plan that retires a version is authorized. -/
theorem At.retirement (hc : ValidContext c) (h : At blake3 c p s)
    (hs : attemptStep c d p = some (.retire version, p'))
    (h' : At blake3 c p' (s.apply (.retire version))) : Retirement s version := by
  have hun : ∀ outcome, p ≠ .resolved outcome := by
    rintro outcome rfl
    cases hs
  obtain ⟨j, hj⟩ := h.journal_of_unresolved hun
  obtain ⟨hctx, -, hph⟩ := h.journalAt hj
  have hca := candidate_of_context hctx
  have hdue := h.retirementDue_eq hj hc
  have hk : ∀ a ∈ publishedAt c p', foldName a.version ≠ foldName version :=
    fun a ha => fold_ne_of_kept (h'.published a ha)
  refine ⟨fun a ha => hk a (slotsAt_published ?_), ?_⟩
  · rw [← h'.slotArtifacts_eq]
    exact ha
  · have hoh : ∀ retiree, (∀ a ∈ c.candidate :: c.knownGood, a ≠ retiree → a ∈ publishedAt c p') →
        ∀ a ∈ j.candidate :: j.knownGood, a ≠ retiree → foldName a.version ≠ foldName version := by
      intro retiree hpub a ha hne
      rw [h.artifacts_eq hj] at ha
      exact hk a (hpub a ha hne)
    rcases attemptStep_retire hs with ⟨staged, rfl, rfl, rfl⟩ | ⟨rfl, rfl, rfl⟩ |
        ⟨previous, rfl, rfl, hpr, rfl⟩
    · have hf : s.versionFloor = c.priorFloor := congrArg ProtectedSlots.versionFloor h.slots
      refine ⟨j, c.candidate, hj, rfl, .inr ⟨hca.symm, hph, ?_, ?_⟩,
        hoh _ fun a ha hne => (mem_cons.mp ha).resolve_left hne⟩
      · rw [hf, priorFloor_of_context hctx]
      · intro hvfy
        rw [hca] at hvfy
        obtain ⟨dir, hd, htr⟩ := Store.verifyPublishedVersion_ok.mp hvfy
        rw [h.candidate.1] at hd
        cases hd
        cases htr
    · exact ⟨j, c.candidate, hj, rfl, .inl hdue,
        hoh _ fun a ha hne => (mem_cons.mp ha).resolve_left hne⟩
    · refine ⟨j, previous, hj, rfl, .inl (hdue.trans hpr), hoh _ fun a ha hne => ?_⟩
      rcases mem_cons.mp ha with rfl | ha
      · exact mem_cons_self
      · rcases hc.mem_knownGood ha with rfl | hso
        · exact mem_cons_of_mem _ mem_cons_self
        · rw [hpr] at hso
          cases hso
          exact absurd rfl hne

end Attempt

/-! ## Whole histories -/

section Histories

variable {blake3 : Digest → Digest → ArtifactIdentity → Digest} {baseline : ArtifactIdentity}
  {c : ActivationJournal} {p p' : Position} {s s₁ : Store} {w : Write} {ws : List Write}

/-- The invariant: healthy, and where a journal is pending, at a position of its attempt. -/
structure Sound (blake3 : Digest → Digest → ArtifactIdentity → Digest) (baseline : ArtifactIdentity)
    (s : Store) : Prop where
  healthy : Healthy baseline s
  keyed : s.Keyed
  attempt : s.journal ≠ none → ∃ c p, Context baseline c ∧ At blake3 c p s

/-- What a single durable step does. -/
structure SafeStep (baseline : ArtifactIdentity) (s : Store) (w : Write) : Prop where
  floor : NotAbove s.versionFloor (s.apply w).versionFloor
  healthy : Healthy baseline (s.apply w)
  retirement : ∀ version, w = .retire version → Retirement s version

theorem At.sound (hc : Context baseline c) (h : At blake3 c p s) : Sound blake3 baseline s :=
  ⟨h.healthy hc, h.keyed, fun _ => ⟨c, p, hc, h⟩⟩

theorem Healthy.floor_parses (h : Healthy baseline s) : NotAbove s.versionFloor s.versionFloor := by
  obtain ⟨-, f, -, hf, -⟩ := h.covered s.current (by simp [Store.slotArtifacts])
  exact ⟨f, f, hf, hf, le_refl _⟩

theorem NotAbove.trans {u v w : String} (h : NotAbove u v) (h' : NotAbove v w) : NotAbove u w := by
  obtain ⟨a, b, ha, hb, hle⟩ := h
  obtain ⟨b', x, hb', hx, hle'⟩ := h'
  rw [hb] at hb'
  cases hb'
  exact ⟨a, x, ha, hx, hle.trans hle'⟩

section

variable (hc : Context baseline c)
  (h : Tracks (attemptPlan c) Store.apply Write.fact (At blake3 c) p s ws p')
include hc h

/-- Every step of a run that follows the plan is safe. -/
theorem safeStep_of_tracks (hm : (s₁, w) ∈ trail Store.apply s ws) : SafeStep baseline s₁ w := by
  obtain ⟨p₁, hat, ⟨hsil, haf⟩ | ⟨d, l, p₂, hf, hs, haf⟩⟩ := h.mem_trail hm
  · refine ⟨hat.floor_step hc.valid (.inl hsil), haf.healthy hc, ?_⟩
    rintro version rfl
    cases hsil
  · refine ⟨hat.floor_step hc.valid (.inr ⟨d, l, p₂, hs, haf⟩), haf.healthy hc, ?_⟩
    rintro version rfl
    cases hf
    exact hat.retirement hc.valid hs haf

theorem safe_of_tracks (n : ℕ) :
    Sound blake3 baseline ((ws.take n).foldl Store.apply s) ∧
      ∀ s₁ w, (s₁, w) ∈ trail Store.apply s (ws.take n) → SafeStep baseline s₁ w := by
  rw [← take_append_drop n ws] at h
  obtain ⟨q, ht, -⟩ := h.cut
  exact ⟨ht.finish.sound hc, fun s₁ w hm => safeStep_of_tracks hc ht hm⟩

end

/-- Where the plan stands does not depend on stages, but for the copies left to try. -/
theorem At.stage (h : At blake3 c p s) (name : String) (tree : Tree) :
    ∃ p', At blake3 c p' (s.withStage name tree) := by
  have hke : ∀ p' : Position, slotsAt c p' = slotsAt c p → publishedAt c p' = publishedAt c p →
      censusAt c p' = censusAt c p →
      (∀ j, JournalAt blake3 c p j → JournalAt blake3 c p' j) →
      CandidateAt c (s.withStage name tree) p' →
      At blake3 c p' (s.withStage name tree) := by
    intro p' hs hpub hce hjrn hca
    refine h.replace rfl (h.slots.trans hs.symm) (hjrn _ h.journal) ?_ ?_ hca
    · rw [hpub]
      exact h.published
    · rw [hce]
      exact fun a ha => ⟨a, ha, rfl⟩
  have hp : ∀ staged staged' (published : Option Bool) (j : Option ActivationJournal),
      JournalAt blake3 c (.publishing published staged) j →
        JournalAt blake3 c (.publishing published staged') j := by
    intro staged staged' published j hj
    cases j with
    | none =>
      obtain ⟨outcome, he⟩ := hj
      cases he
    | some j => exact hj
  cases p with
  | begun staged =>
    refine ⟨.begun ((s.withStage name tree).staged c.candidate),
      hke _ rfl rfl rfl (fun j hj => ?_) ⟨h.candidate.1, rfl⟩⟩
    cases j with
    | none =>
      obtain ⟨outcome, he⟩ := hj
      cases he
    | some j => exact hj
  | publishing published staged =>
    cases published with
    | none =>
      exact ⟨.publishing none ((s.withStage name tree).staged c.candidate),
        hke _ rfl rfl rfl (hp _ _ _) ⟨h.candidate.1, rfl⟩⟩
    | some copy =>
      exact ⟨.publishing (some copy) ((s.withStage name tree).staged c.candidate),
        hke _ rfl rfl rfl (hp _ _ _) ⟨h.candidate.1, rfl⟩⟩
  | committed left | restored left => exact ⟨_, hke _ rfl rfl rfl (fun j hj => hj)
      (by cases left <;> exact h.candidate)⟩
  | resolved outcome => exact ⟨_, hke _ rfl rfl rfl (fun j hj => hj)
      (by cases outcome <;> exact h.candidate)⟩
  | blocked | floored | selected | awaiting | accepted | preserved | failing =>
    exact ⟨_, hke _ rfl rfl rfl (fun j hj => hj) h.candidate⟩

theorem Sound.stage (h : Sound blake3 baseline s) (name : String) (tree : Tree) :
    Sound blake3 baseline (s.withStage name tree) := by
  refine ⟨⟨h.healthy.scope, h.healthy.published, h.healthy.covered, h.healthy.settled⟩, h.keyed,
    fun hjrn => ?_⟩
  obtain ⟨c, p, hc, hat⟩ := h.attempt hjrn
  obtain ⟨p', hat'⟩ := hat.stage name tree
  exact ⟨c, p', hc, hat'⟩

variable {snapshot : WriteSnapshot}

/-- An attempt from a settled store begins at a position, in a context of its own. -/
theorem Sound.begin_tracks (h : Sound blake3 baseline s) {o : Owner} {name : String}
    {candidate : ArtifactIdentity} {t : Transaction}
    (hlo : loadActivationWriteSnapshot baseline s = .ok snapshot)
    (hbe : o.beginActivation baseline s snapshot name candidate = .ok t)
    (henc : encodeActivationJournal (o.firstRecord snapshot candidate) = .ok ()) :
    Context baseline (o.firstRecord snapshot candidate) ∧
      ∃ p ws p', (o.proceed blake3 (o.started s snapshot name candidate) none).1.written =
          .journal (o.firstRecord snapshot candidate) :: ws ∧
        Tracks (attemptPlan (o.firstRecord snapshot candidate)) Store.apply Write.fact
          (At blake3 (o.firstRecord snapshot candidate)) p
          (s.apply (.journal (o.firstRecord snapshot candidate))) ws p' := by
  have had := firstRecord_admitted hlo hbe
  have hv := (validateActivationJournal_ok.mp (bind_unit_ok.mp henc).1).1
  obtain ⟨hin, hsn⟩ := loadActivationWriteSnapshot_ok hlo
  refine ⟨⟨hv, fun a ha => (had.artifacts a ha).scope, ?_⟩, ?_⟩
  · rw [hsn]
    exact h.healthy.settled hin.journal
  · have hh : ∃ d p, d.verdict = o.verdict ∧ p.undecided = true ∧
        Holds blake3 (o.firstRecord snapshot candidate) d p (o.started s snapshot name candidate) := by
      cases hfi : s.find? candidate.version with
      | none =>
        obtain ⟨hb, hl⟩ := begun_of_free h.keyed hlo hbe henc hfi
        obtain ⟨i, hh⟩ := hl.holds blake3 hb o.verdict
        exact ⟨_, _, rfl, rfl, hh⟩
      | some dir =>
        exact ⟨⟨o.verdict, 0⟩, .blocked, rfl, rfl, holds_of_taken h.keyed hlo hbe henc hfi blake3 _⟩
    obtain ⟨d, p, hvdt, hun, hh⟩ := hh
    obtain ⟨ws, p', hw, -, hfol, -⟩ := hh.proceed hv
      (False.elim : False → BoundedJournal (o.firstRecord snapshot candidate)) hun hvdt
      none
    exact ⟨p, ws, p', hw, hfol.of_under⟩

/-- Everything that can happen keeps the invariant, by safe steps. -/
theorem Sound.event (h : Sound blake3 baseline s) (event : Event) :
    Sound blake3 baseline (s.after blake3 baseline event) ∧
      ∀ s₁ w, (s₁, w) ∈ trail Store.apply s (event.writes blake3 baseline s) →
        SafeStep baseline s₁ w := by
  have hno : ∀ n, Sound blake3 baseline ((([] : List Write).take n).foldl Store.apply s) ∧
      ∀ s₁ w, (s₁, w) ∈ trail Store.apply s (([] : List Write).take n) → SafeStep baseline s₁ w := by
    intro n
    rw [take_nil]
    exact ⟨h, fun s₁ w hm => absurd hm not_mem_nil⟩
  cases event with
  | stage name tree => exact ⟨h.stage name tree, fun s₁ w hm => absurd hm not_mem_nil⟩
  | attempt o name candidate steps =>
    show Sound blake3 baseline
        (((o.attempt blake3 baseline s name candidate).take steps).foldl Store.apply s) ∧
      ∀ s₁ w, (s₁, w) ∈ trail Store.apply s
        ((o.attempt blake3 baseline s name candidate).take steps) → SafeStep baseline s₁ w
    rcases attempt_cases blake3 baseline s o name candidate with hn |
        ⟨snapshot, t, hlo, hbe, henc, hatt⟩
    · rw [hn]
      exact hno steps
    · obtain ⟨hc, p, ws, p', hw, htrk⟩ := h.begin_tracks hlo hbe henc
      rw [hatt, hw]
      cases steps with
      | zero => exact hno 0
      | succ n =>
        obtain ⟨hs, hsa⟩ := safe_of_tracks hc htrk n
        refine ⟨hs, fun s₁ w hm => ?_⟩
        rcases mem_cons.mp hm with he | hm
        · cases he
          refine ⟨h.healthy.floor_parses, htrk.start.healthy hc, ?_⟩
          rintro version he
          cases he
        · exact hsa s₁ w hm
  | recover o steps =>
    show Sound blake3 baseline (((o.recover blake3 baseline s).take steps).foldl Store.apply s) ∧
      ∀ s₁ w, (s₁, w) ∈ trail Store.apply s ((o.recover blake3 baseline s).take steps) →
        SafeStep baseline s₁ w
    by_cases hjrn : s.journal = none
    · have hn : o.recover blake3 baseline s = [] := by
        unfold Owner.recover loadRecoveryInspection
        rw [hjrn]
        rfl
      rw [hn]
      exact hno steps
    · obtain ⟨c, p, hc, hat⟩ := h.attempt hjrn
      obtain ⟨p', htrk⟩ := hat.recover_tracks baseline hc.valid o
      exact safe_of_tracks hc htrk steps

theorem sound_of_load (hk : s.Keyed) (hlo : loadActivationWriteSnapshot baseline s = .ok snapshot)
    (hcu : s.current = s.lastKnownGood) : Sound blake3 baseline s := by
  obtain ⟨hin, -⟩ := loadActivationWriteSnapshot_ok hlo
  refine ⟨⟨fun a ha => (hin.admitted a ha).1.scope,
    fun a ha => Store.published_of_pinned hk hin.census hin.verified ha,
    fun a ha => ?_, fun _ => hcu⟩, hk, fun hjrn => absurd hin.journal hjrn⟩
  obtain ⟨f, v, hf, hv, hle⟩ := (hin.admitted a ha).2
  exact ⟨v, f, hv, hf, hle⟩

theorem floor_foldl (hf : NotAbove s.versionFloor s.versionFloor)
    (hsa : ∀ s₁ w, (s₁, w) ∈ trail Store.apply s ws → SafeStep baseline s₁ w) :
    NotAbove s.versionFloor (ws.foldl Store.apply s).versionFloor := by
  induction ws generalizing s with
  | nil => exact hf
  | cons w ws ih =>
    have hs := hsa s w mem_cons_self
    exact hs.floor.trans (ih hs.healthy.floor_parses
      fun s₁ w₁ hm => hsa s₁ w₁ (mem_cons_of_mem _ hm))

theorem Sound.event_floor (h : Sound blake3 baseline s) (event : Event) :
    NotAbove s.versionFloor (s.after blake3 baseline event).versionFloor := by
  cases event with
  | stage _ _ => exact h.healthy.floor_parses
  | attempt o name candidate steps =>
    exact floor_foldl h.healthy.floor_parses (h.event (.attempt o name candidate steps)).2
  | recover o steps => exact floor_foldl h.healthy.floor_parses (h.event (.recover o steps)).2

theorem Sound.run (h : Sound blake3 baseline s) (events : List Event) :
    Sound blake3 baseline ((updates blake3 baseline s).run events) :=
  (updates blake3 baseline s).run_induction (P := fun _ s => Sound blake3 baseline s) h
    (fun is i _ _ hr => by
      rw [Machine.run_snoc]
      exact (hr.event i).1)
    (Machine.guarded_trivial events)

theorem Sound.runFrom_floor (h : Sound blake3 baseline s) (s₀ : Store) (events : List Event) :
    NotAbove s.versionFloor ((updates blake3 baseline s₀).runFrom s events).versionFloor := by
  induction events generalizing s with
  | nil => exact h.healthy.floor_parses
  | cons event events ih => exact (h.event_floor event).trans (ih (h.event event).1)

/-- The protected store over every history of updates. -/
theorem store_invariant {snapshot : WriteSnapshot} (hkeyed : s.Keyed)
    (hload : loadActivationWriteSnapshot baseline s = .ok snapshot)
    (hcurrent : s.current = s.lastKnownGood) (events : List Event) :
    Healthy baseline ((updates blake3 baseline s).run events) ∧
    (∀ later, NotAbove ((updates blake3 baseline s).run events).versionFloor
      ((updates blake3 baseline s).run (events ++ later)).versionFloor) ∧
    ∀ s₁ w, (s₁, w) ∈ durableSteps blake3 baseline s events → SafeStep baseline s₁ w := by
  have hs : Sound blake3 baseline s := sound_of_load hkeyed hload hcurrent
  refine ⟨(hs.run events).healthy, fun later => ?_, fun s₁ w hm => ?_⟩
  · rw [Machine.run_append]
    exact (hs.run events).runFrom_floor s later
  · obtain ⟨before, event, after, -, hev⟩ :=
      ((updates blake3 baseline s).mem_collect_iff _).mp hm
    exact ((hs.run before).event event).2 s₁ w hev

end Histories

/-! ## An update that is rolled back -/

def failedHelper : Owner := helper (.rollBack .healthTimeout)

/-- The whole attempt of an owner that finds the candidate unhealthy. -/
def failedUpdate : Event :=
  uncut exampleHash shipped installation failedHelper "incomplete-1" update

/-- The store is healthy after a rolled back update, whatever follows. -/
theorem failedUpdate_healthy :
    Healthy shipped ((updates exampleHash shipped installation).run [failedUpdate]) ∧
    (∀ later, NotAbove ((updates exampleHash shipped installation).run [failedUpdate]).versionFloor
      ((updates exampleHash shipped installation).run ([failedUpdate] ++ later)).versionFloor) ∧
    ∀ s₁ w, (s₁, w) ∈ durableSteps exampleHash shipped installation [failedUpdate] →
      SafeStep shipped s₁ w :=
  store_invariant installation_keyed update_checks.1 rfl [failedUpdate]

theorem failedUpdate_begins : failedHelper.attempt exampleHash shipped installation "incomplete-1"
    update = (failedHelper.proceed exampleHash updateStarted none).1.written := by
  have hbe : ∃ t, failedHelper.beginActivation shipped installation installedSnapshot
      "incomplete-1" update = .ok t := ⟨_, rfl⟩
  obtain ⟨t, hbe⟩ := hbe
  have henc : encodeActivationJournal (failedHelper.firstRecord installedSnapshot update) =
      .ok () := update_checks.2.2
  have hs : failedHelper.started installation installedSnapshot "incomplete-1" update =
      updateStarted := rfl
  rw [attempt_eq update_checks.1 hbe henc, hs]

/-- The run follows the plan to the rolled back end. -/
theorem failedUpdate_follows : ∃ d ws, d.verdict = failedHelper.verdict ∧
    (failedHelper.proceed exampleHash updateStarted none).1.written = .journal updateRecord :: ws ∧
    Follows exampleHash updateRecord d (.begun (updateStarted.disk.staged update))
      updateStarted.disk ws (.resolved .rolledBack) := by
  obtain ⟨hb, hl⟩ := update_begun
  obtain ⟨i, hh⟩ := hl.holds exampleHash hb failedHelper.verdict
  have hou : (Position.begun (updateStarted.disk.staged updateRecord.candidate)).outcome
      failedHelper.verdict = some .rolledBack := by decide +kernel
  obtain ⟨ws, hw, -, hfol, -⟩ := (hh.proceed (o := failedHelper) hb.validContext
    (fun _ : True => updateRecord_bounded) rfl rfl none).resolves trivial hou
  rw [hl.written] at hw
  exact ⟨_, ws, rfl, hw, hfol⟩

theorem mem_trail_of_mem {s : Store} {ws : List Write} {w : Write} (h : w ∈ ws) :
    ∃ s₁, (s₁, w) ∈ trail Store.apply s ws := by
  induction ws generalizing s with
  | nil => cases h
  | cons w' ws ih =>
    rcases mem_cons.mp h with rfl | h
    · exact ⟨s, mem_cons_self⟩
    · obtain ⟨s₁, hm⟩ := ih h
      exact ⟨s₁, mem_cons_of_mem _ hm⟩

/-- A rollback retires the candidate while the live journal still names it. -/
theorem failedUpdate_retires : ∃ s₁ j,
    (s₁, .retire update.version) ∈ durableSteps exampleHash shipped installation [failedUpdate] ∧
      s₁.journal = some j ∧ j.candidate = update := by
  obtain ⟨d, ws, hvdt, hwr, hfol⟩ := failedUpdate_follows
  have hst : updateStarted.disk.staged update = [true] := by decide +kernel
  rw [hst] at hfol
  have hpu : attemptStep updateRecord d (.begun [true]) =
      some (.publish update.version, .publishing (some true) []) := by
    have hfi : pickIndex d.first 1 = 0 := by
      unfold pickIndex
      split_ifs <;> omega
    show some (publishNext updateRecord (pick d.first [true])) = _
    unfold pick
    rw [length_singleton, hfi]
    rfl
  have hfl : attemptStep updateRecord d (.publishing (some true) []) =
      some (.floor update.version, .floored) := rfl
  have hse : attemptStep updateRecord d .floored =
      some (.pointer .current update, .selected) := rfl
  have hwa : attemptStep updateRecord d .selected = some (.awaitingHealth, .awaiting) := rfl
  have hfail : attemptStep updateRecord d .awaiting =
      some (.rollbackPending .healthTimeout, .failing) :=
    congrArg (fun verdict => some (Verdict.resolve verdict)) hvdt
  have hre : attemptStep updateRecord d .failing =
      some (.pointer .current shipped, .restored true) := rfl
  have hs : attemptStep updateRecord d (.restored true) =
      some (.retire update.version, .restored false) := rfl
  have hpa : ((attemptPlan updateRecord).under d).Path (.begun [true]) _ (.restored false) :=
    .cons (d := ()) hpu (.cons (d := ()) hfl (.cons (d := ()) hse
      (.cons (d := ()) hwa (.cons (d := ()) hfail (.cons (d := ()) hre
        (.cons (d := ()) hs .nil))))))
  have hrt : Write.retire update.version ∈ ws := by
    have hfa := (Prod.mk.inj ((remaining_of_follows hfol).symm.trans hpa.remaining_eq)).1
    have hm : Fact.retire update.version ∈ ws.filterMap Write.fact := by
      rw [hfa]
      simp
    obtain ⟨w, hw, hf⟩ := mem_filterMap.mp hm
    cases w with
    | retire version =>
      cases hf
      exact hw
    | journal record => cases hph : record.phase <;> simp [Write.fact, hph,
        ActivationPhase.fact] at hf
    | floor _ | pointer _ _ | removeJournal | publish _ _ | removeStage _ => cases hf
  obtain ⟨s₁, hm⟩ := mem_trail_of_mem (s := updateStarted.disk) hrt
  obtain ⟨p₁, hat, ⟨hsil, -⟩ | ⟨d₁, l, p₂, hf, hs, -⟩⟩ := hfol.mem_trail hm
  · cases hsil
  · cases hf
    have hun : ∀ outcome, p₁ ≠ .resolved outcome := by
      rintro outcome rfl
      cases hs
    obtain ⟨j, hj⟩ := hat.journal_of_unresolved hun
    have hca : updateRecord.candidate = update := rfl
    have hna := candidate_of_context (hat.journalAt hj).1
    rw [hca] at hna
    refine ⟨s₁, j, ?_, hj, hna⟩
    unfold failedUpdate
    rw [durableSteps_singleton, uncut_writes, failedUpdate_begins, hwr]
    exact mem_cons_of_mem _ hm

end Keld.Update
