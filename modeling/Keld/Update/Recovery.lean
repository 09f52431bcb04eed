/-
# `Keld.Update.Recovery` — a cut attempt ends as an uninterrupted one

An attempt is begun, its owner is cut after any number of durable steps, and others
take over and are cut in turn.  Whoever recovers last and is not cut finishes it
(`resume_equivalence`): recovery is not refused, the facts written by all of them
together are those of one uninterrupted run, and so are the records at the end.

How it ends is a function of the store at the last cut and of the owner that recovers
(`Owner.recovered`).  Accepted health is committed, a failure or an unfinished wait is
rolled back.  An attempt that never launched its candidate is taken up again, and
abandoned only if no copy of the candidate verifies.
-/
import Mathlib.Data.List.Perm.Basic
import Keld.Update.Start

namespace Keld.Update

open List

/-! ## How an attempt will end -/

def Verdict.outcome : Verdict → WindowsActivationOutcome
  | .accept => .committed
  | .rollBack _ => .rolledBack

/-- The outcome that the plan leads to, if it can be carried on. -/
def Position.outcome (verdict : Verdict) : Position → Option WindowsActivationOutcome
  | .begun staged | .publishing none staged =>
    some (if staged.any id then verdict.outcome else .abandoned)
  | .publishing (some copy) staged =>
    some (if copy || staged.any id then verdict.outcome else .abandoned)
  | .floored | .selected | .awaiting => some verdict.outcome
  | .accepted | .preserved | .committed _ => some .committed
  | .failing | .restored _ => some .rolledBack
  | .resolved outcome => some outcome
  | .blocked => none

theorem any_of_pick {i : ℕ} {copies rest : List Bool} {copy : Bool}
    (h : pick i copies = some (copy, rest)) : copies.any id = (copy || rest.any id) := by
  obtain ⟨copy', hg, he⟩ := Option.map_eq_some_iff.mp h
  cases he
  obtain ⟨hlt, rfl⟩ := List.getElem?_eq_some_iff.mp hg
  rw [← (getElem_cons_eraseIdx_perm hlt).any_eq, any_cons]
  rfl

theorem publishNext_outcome {c : ActivationJournal} {d : Choice} (i : ℕ) (staged : List Bool) :
    (publishNext c (pick i staged)).2.outcome d.verdict =
      some (if staged.any id then d.verdict.outcome else .abandoned) := by
  cases hpi : pick i staged with
  | none =>
    have he : staged = [] := by
      unfold pick pickIndex at hpi
      cases staged with
      | nil => rfl
      | cons copy rest =>
        rw [Option.map_eq_none_iff, List.getElem?_eq_none_iff] at hpi
        split_ifs at hpi with hlt
        · omega
        · cases hpi
    rw [he]
    rfl
  | some next =>
    rw [any_of_pick hpi]
    rfl

/-- No step changes how the attempt will end. -/
theorem attemptStep_outcome {c : ActivationJournal} {d : Choice} {p p' : Position} {l : Fact}
    (h : attemptStep c d p = some (l, p')) : p'.outcome d.verdict = p.outcome d.verdict := by
  cases p with
  | begun staged =>
    have hn := publishNext_outcome (c := c) (d := d) d.first staged
    rwa [Option.some.inj h] at hn
  | publishing published staged =>
    cases published with
    | none =>
      have hn := publishNext_outcome (c := c) (d := d) 0 staged
      rwa [Option.some.inj h] at hn
    | some copy =>
      cases copy <;> cases h
      · simp [Position.outcome]
      · simp [Position.outcome]
  | awaiting =>
    cases d with
    | mk verdict first => cases verdict <;> cases h <;> rfl
  | committed left =>
    cases left with
    | true =>
      obtain ⟨previous, -, he⟩ := Option.map_eq_some_iff.mp h
      cases he
      rfl
    | false =>
      cases h
      rfl
  | restored left => cases left <;> cases h <;> rfl
  | floored | selected | accepted | preserved | failing =>
    cases h
    rfl
  | blocked | resolved _ => cases h

theorem Position.outcome_eq_none (verdict : Verdict) {p : Position}
    (h : p.outcome verdict = none) : p = .blocked := by
  cases p with
  | blocked => rfl
  | publishing published _ => cases published <;> cases h
  | _ => cases h

theorem path_not_blocked {c : ActivationJournal} {p p' : Position} {ls : List Fact}
    (h : (attemptPlan c).Path p ls p') (hp : p ≠ .blocked) : p' ≠ .blocked := by
  induction h with
  | nil => exact hp
  | @cons d p l p₁ ls p' hs _ ih =>
    refine ih fun he => hp (Position.outcome_eq_none d.verdict ?_)
    rw [← attemptStep_outcome hs, he]
    rfl

section Follows

variable {blake3 : Digest → Digest → ArtifactIdentity → Digest} {c : ActivationJournal}
  {d : Choice} {p p' : Position} {s : Store} {t : Transaction} {ws : List Write}
  {outcome : WindowsActivationOutcome}

theorem outcome_of_follows (h : Follows blake3 c d p s ws p') :
    p'.outcome d.verdict = p.outcome d.verdict := by
  induction h with
  | nil _ => rfl
  | silent _ _ _ ih => exact ih
  | step _ _ hs _ ih => exact ih.trans (attemptStep_outcome hs)

/-- What the owner of a resolved attempt is told: the outcome, or a refusal if the copy it had
published did not verify and it was the last one. -/
def Reports (c : ActivationJournal) (outcome : WindowsActivationOutcome) :
    Except UpdateError WindowsActivationResolution → Prop
  | .ok resolution => resolution = ⟨outcome, (slotsAt c (.resolved outcome)).current⟩
  | .error _ => outcome = .abandoned

/-- A run of a fit owner resolves the attempt as it was going to end. -/
theorem Leads.resolves {fit : Prop} {r : Result WindowsActivationResolution}
    (h : Leads blake3 c d fit p t r (Resolved c)) (hfit : fit)
    (hou : p.outcome d.verdict = some outcome) :
    ∃ ws, r.1.written = t.written ++ ws ∧ r.1.disk = ws.foldl Store.apply t.disk ∧
      Follows blake3 c d p t.disk ws (.resolved outcome) ∧ Reports c outcome r.2 := by
  obtain ⟨ws, q, hw, hd, hfol, hres⟩ := h
  have hq := (outcome_of_follows hfol).trans hou
  cases hr : r.2 with
  | ok resolution =>
    rw [hr] at hres
    obtain ⟨rfl, hc⟩ := hres
    cases hq
    refine ⟨ws, hw, hd, hfol, ?_⟩
    show _ = _
    rw [← hc]
  | error err =>
    rw [hr] at hres
    rcases hres with hun | rfl | rfl
    · exact absurd hfit hun
    · cases hq
    · cases hq
      exact ⟨ws, hw, hd, hfol, rfl⟩

theorem remaining_of_follows (h : Follows blake3 c d p s ws (.resolved outcome)) :
    (attemptPlan c).remaining d p = (ws.filterMap Write.fact, .resolved outcome) :=
  Tracks.remaining_eq h rfl

theorem At.resolved_journal (h : At blake3 c (.resolved outcome) s) : s.journal = none := by
  have hjrn := h.journal
  cases hj : s.journal with
  | none => rfl
  | some j =>
    rw [hj] at hjrn
    exact hjrn.2.2.elim

theorem At.journal_of_unresolved (h : At blake3 c p s) (hp : ∀ outcome, p ≠ .resolved outcome) :
    ∃ j, s.journal = some j := by
  have hjrn := h.journal
  cases hj : s.journal with
  | none =>
    rw [hj] at hjrn
    obtain ⟨outcome, rfl⟩ := hjrn
    exact absurd rfl (hp outcome)
  | some j => exact ⟨j, rfl⟩

end Follows

/-! ## Where recovery starts -/

/-- Whether some copy of the candidate, published or staged, is intact. -/
def Store.intactCopy (s : Store) (candidate : ArtifactIdentity) : Bool :=
  (match s.find? candidate.version with
    | some dir => dir.tree.intact
    | none => false) || (s.staged candidate).any id

/-- How a recovery ends, from what is durable and the verdict of who recovers. -/
def Owner.recovered (o : Owner) (j : ActivationJournal) (s : Store) : WindowsActivationOutcome :=
  match j.phase with
  | .healthAccepted _ => .committed
  | .awaitingHealth | .rollbackPending _ => .rolledBack
  | .publishPending =>
    if s.versionFloor = j.priorFloor ∧ s.intactCopy j.candidate = false then .abandoned
    else o.verdict.outcome

section Recovery

variable {blake3 : Digest → Digest → ArtifactIdentity → Digest} {baseline : ArtifactIdentity}
  {c j : ActivationJournal} {p : Position} {s : Store} {o : Owner}

theorem At.recovered (h : At blake3 c p s) (hj : s.journal = some j) (hc : ValidContext c)
    (hblk : p ≠ .blocked) :
    p.outcome (o.choice p).verdict = some (o.recovered j s) := by
  obtain ⟨hctx, -, hph⟩ := h.journalAt hj
  have hfl : s.versionFloor = (slotsAt c p).versionFloor :=
    congrArg ProtectedSlots.versionFloor h.slots
  have hne := hc.floor_ne
  unfold Owner.recovered Store.intactCopy
  rw [candidate_of_context hctx, priorFloor_of_context hctx, hfl]
  cases p with
  | begun staged =>
    have hp : j.phase = .publishPending := hph
    obtain ⟨hf, hst⟩ := h.candidate
    rw [hp, hf, hst]
    cases hany : staged.any id <;> simp [Position.outcome, Owner.choice, slotsAt, priorSlots, hany]
  | publishing published staged =>
    have hp : j.phase = .publishPending := hph
    cases published with
    | none =>
      obtain ⟨hf, hst⟩ := h.candidate
      rw [hp, hf, hst]
      cases hany : staged.any id <;>
        simp [Position.outcome, Owner.choice, slotsAt, priorSlots, hany]
    | some copy =>
      obtain ⟨hfi, hst⟩ := h.candidate
      rw [hp, hfi, hst]
      cases copy <;> cases hany : staged.any id <;>
        simp [Position.outcome, Owner.choice, slotsAt, priorSlots, hany]
  | blocked => exact absurd rfl hblk
  | floored | selected =>
    have hp : j.phase = .publishPending := hph
    simp [hp, Position.outcome, Owner.choice, slotsAt, candidateSlots, hne.symm]
  | awaiting =>
    have haw : j.phase = .awaitingHealth := hph
    rw [haw]
    rfl
  | accepted | preserved | committed _ =>
    obtain ⟨digest, hacc, -⟩ := hph
    rw [hacc]
    rfl
  | failing | restored _ =>
    obtain ⟨failure, hfa⟩ := hph
    rw [hfa]
    rfl
  | resolved _ => exact hph.elim

theorem loadRecoveryInspection_ok {inspection : RecoveryInspection}
    (h : loadRecoveryInspection blake3 baseline s = .ok inspection) :
    ∃ j, s.journal = some j ∧ inspection = s.inspect j := by
  obtain ⟨j, hj, h⟩ := orElseError_bind_ok.mp h
  obtain ⟨floor, -, h⟩ := bind_ok.mp h
  refine ⟨j, hj, ?_⟩
  cases hst : validateProtectedRecoveryState blake3 j s.slots with
  | error refusal =>
    rw [hst] at h
    cases h
  | ok _ =>
    rw [hst] at h
    obtain ⟨-, h⟩ := bind_unit_ok.mp h
    obtain ⟨_, -, h⟩ := bind_ok.mp h
    obtain ⟨_, -, h⟩ := bind_ok.mp h
    obtain ⟨_, -, h⟩ := bind_ok.mp h
    obtain ⟨_, -, h⟩ := bind_ok.mp h
    obtain ⟨_, -, h⟩ := bind_ok.mp h
    cases h
    rfl

/-- Whoever recovers, fit or not, follows the plan as far as it writes at all. -/
theorem At.recover_tracks (baseline : ArtifactIdentity) (hc : ValidContext c) (o : Owner)
    (h : At blake3 c p s) :
    ∃ p', Tracks (attemptPlan c) Store.apply Write.fact (At blake3 c) p s
      (o.recover blake3 baseline s) p' := by
  unfold Owner.recover
  cases hlo : loadRecoveryInspection blake3 baseline s with
  | error cause => exact ⟨p, .nil h⟩
  | ok inspection =>
    obtain ⟨j, hj, rfl⟩ := loadRecoveryInspection_ok hlo
    obtain ⟨ws, p', hw, -, hfol, -⟩ := (h.inspect hj hc (o.choice p).verdict).recoverTransaction hc
        (False.elim : False → BoundedJournal c ∧ o.Fit c)
    simp only
    rw [hw]
    exact ⟨p', hfol.of_under⟩

/-- A fit owner's recovery is admitted, is not refused, and resolves the attempt. -/
theorem At.recover_resolves (hc : ValidContext c) (ha : AdmittedContext baseline c)
    (hbd : BoundedJournal c) (hfit : o.Fit c) (hblk : p ≠ .blocked)
    (h : At blake3 c p s) (hj : s.journal = some j) :
    loadRecoveryInspection blake3 baseline s = .ok (s.inspect j) ∧
      Follows blake3 c (o.choice p) p s (o.recover blake3 baseline s)
        (.resolved (o.recovered j s)) ∧
      Reports c (o.recovered j s) (o.recoverInspected blake3 s j).2 := by
  have hlo := h.load hj hc ha
  have hle := (h.inspect hj hc (o.choice p).verdict).recoverTransaction hc
    (fun _ : True => ⟨hbd, hfit⟩)
  obtain ⟨ws, hw, -, hfol, hre⟩ := hle.resolves trivial (h.recovered hj hc hblk)
  refine ⟨hlo, ?_, hre⟩
  unfold Owner.recover
  rw [hlo]
  simp only
  rw [hw]
  exact hfol

end Recovery

/-! ## The equivalence -/

/-- What a list of writes does for the attempt. -/
def facts (ws : List Write) : List Fact := ws.filterMap Write.fact

section Equivalence

variable {blake3 : Digest → Digest → ArtifactIdentity → Digest} {baseline : ArtifactIdentity}
  {j : ActivationJournal} {s s' : Store} {t : Transaction} {o₀ o : Owner}
  {ws₀ rest ws : List Write}

/-- The live owner and all who took over and were cut have followed the plan to some position. -/
theorem cut_tracks (hb : Begun baseline j s) (hl : Live j s t)
    (hcut : (o₀.proceed blake3 t none).1.written = .journal j :: ws₀ ++ rest)
    (hcu : Interrupted (fun (o : Owner) s => o.recover blake3 baseline s) Store.apply
      (ws₀.foldl Store.apply s) ws s') :
    ∃ p, Tracks (attemptPlan j) Store.apply Write.fact (At blake3 j)
      (.begun (s.staged j.candidate)) s (ws₀ ++ ws) p ∧ At blake3 j p s' ∧ p ≠ .blocked := by
  have hc := hb.validContext
  obtain ⟨i, hh⟩ := hl.holds blake3 hb o₀.verdict
  obtain ⟨ws₁, p₁, hw, -, hfol, -⟩ := hh.proceed (o := o₀) hc
    (False.elim : False → BoundedJournal j) rfl rfl none
  rw [hl.written, hcut, cons_append, singleton_append, List.cons.injEq] at hw
  rw [hl.disk, ← hw.2] at hfol
  obtain ⟨p₀, hli, -⟩ := hfol.of_under.cut
  obtain ⟨p, ht⟩ := tracks_of_interrupted
    (fun o p s hat => At.recover_tracks baseline hc o hat) hcu hli.finish
  have ha := hli.append ht
  refine ⟨p, ha, ?_, ?_⟩
  · rw [hcu.foldl_eq]
    exact ht.finish
  · exact path_not_blocked ha.path (by simp)

/-- Recovery after any cuts does exactly what was left of an uninterrupted run. -/
theorem resume_equivalence (hbegun : Begun baseline j s) (hbounded : BoundedJournal j)
    (hlive : Live j s t)
    (hcut : (o₀.proceed blake3 t none).1.written = .journal j :: ws₀ ++ rest)
    (hcuts : Interrupted (fun (o : Owner) s => o.recover blake3 baseline s) Store.apply
      (ws₀.foldl Store.apply s) ws s') (hfit : o.Fit j) :
    let ended := (o.recover blake3 baseline s').foldl Store.apply s'
    (∃ (o₁ : Owner) (t₁ : Transaction), Live j s t₁ ∧
      facts (ws₀ ++ ws ++ o.recover blake3 baseline s') =
        facts (o₁.proceed blake3 t₁ none).1.written ∧
      ended.slots = (o₁.proceed blake3 t₁ none).1.disk.slots ∧
      ended.journal = none ∧ (o₁.proceed blake3 t₁ none).1.disk.journal = none) ∧
    ∀ j', s'.journal = some j' →
      loadRecoveryInspection blake3 baseline s' = .ok (s'.inspect j') ∧
      Reports j (o.recovered j' s') (o.recoverInspected blake3 s' j').2 ∧
      ended.slots = slotsAt j (.resolved (o.recovered j' s')) := by
  intro ended
  have hc := hbegun.validContext
  obtain ⟨p, htrk, hat, hblk⟩ := cut_tracks hbegun hlive hcut hcuts
  -- a resolved store is left as it is; any other one is recovered
  have hrc : ∃ d outcome, Follows blake3 j d p s' (o.recover blake3 baseline s')
      (.resolved outcome) ∧ ∀ j', s'.journal = some j' →
        loadRecoveryInspection blake3 baseline s' = .ok (s'.inspect j') ∧
        Reports j (o.recovered j' s') (o.recoverInspected blake3 s' j').2 ∧
        outcome = o.recovered j' s' := by
    by_cases hp : ∃ outcome, p = .resolved outcome
    · obtain ⟨outcome, rfl⟩ := hp
      have hn := hat.resolved_journal
      have hno : o.recover blake3 baseline s' = [] := by
        unfold Owner.recover loadRecoveryInspection
        rw [hn]
        rfl
      rw [hno]
      refine ⟨⟨.accept, 0⟩, outcome, .nil hat, fun j' hj' => ?_⟩
      rw [hn] at hj'
      cases hj'
    · obtain ⟨j', hj'⟩ := hat.journal_of_unresolved fun outcome heq => hp ⟨outcome, heq⟩
      obtain ⟨hlo, hfol, hre⟩ :=
        hat.recover_resolves hc hbegun.admitted hbounded hfit hblk hj'
      refine ⟨_, _, hfol, fun j₂ hj₂ => ?_⟩
      rw [hj'] at hj₂
      cases hj₂
      exact ⟨hlo, hre, rfl⟩
  obtain ⟨d, outcome, hfol, hca⟩ := hrc
  have he : At blake3 j (.resolved outcome) ended := hfol.finish
  refine ⟨?_, fun j' hj' => ?_⟩
  · -- what was written before the last cut, and what recovery wrote, is one whole run
    obtain ⟨d₀, hwh⟩ := htrk.path.resume (attemptPlan_settled j) d
    rw [remaining_of_follows hfol] at hwh
    obtain ⟨t₁, hlive₁, hh₁⟩ := hlive.choose blake3 hbegun d₀
    obtain ⟨ws₁, hw, hd, hfol₁, -⟩ :=
      (hh₁.proceed (o := { o with verdict := d₀.verdict }) hc (fun _ : True => hbounded) rfl
        rfl none).resolves trivial rfl
    rw [hlive₁.disk] at hfol₁ hd
    have hs := (remaining_of_follows hfol₁).symm.trans hwh
    obtain ⟨hfa, hou⟩ := Prod.mk.inj hs
    have hwholeEnd := hfol₁.finish
    rw [← hd, hou] at hwholeEnd
    refine ⟨_, t₁, hlive₁, ?_, he.slots.trans hwholeEnd.slots.symm, he.resolved_journal,
      hwholeEnd.resolved_journal⟩
    have hf : Write.fact (.journal j) = none := by
      show j.phase.fact = none
      rw [hbegun.phase]
      rfl
    rw [hw, hlive₁.written]
    unfold facts
    rw [singleton_append, filterMap_cons, hf, filterMap_append]
    exact hfa.symm
  · obtain ⟨hlo, hre, rfl⟩ := hca j' hj'
    exact ⟨hlo, hre, he.slots⟩

end Equivalence

/-! ## One installation

As shipped, with one complete stage of an update, and helpers that differ in their verdict. -/

def exampleArtifact (version : String) (contentBlake3 : Digest) : ArtifactIdentity where
  appId := "com.example.app"
  channel := .stable
  target := "windows-x64"
  version
  contentBlake3

def shipped : ArtifactIdentity := exampleArtifact "1.0.0" 1

def update : ArtifactIdentity := exampleArtifact "1.1.0" 2

def installation : Store where
  versionFloor := "1.0.0"
  current := shipped
  lastKnownGood := shipped
  previousKnownGood := none
  journal := none
  versions := OrdMap.empty.insert (foldName "1.0.0") ⟨"1.0.0", ⟨some shipped, true⟩⟩
  stages := OrdMap.empty.insert "incomplete-1" ⟨some update, true⟩

def exampleHash (attempt channel : Digest) (_ : ArtifactIdentity) : Digest := attempt + channel

def helper (verdict : Verdict) : Owner where
  installationId := 5
  imageBlake3 := 6
  ownership := ⟨⟨1, 1⟩, ⟨7, 8⟩⟩
  minted := ⟨11, 12, 13⟩
  verdict

def installedSnapshot : WriteSnapshot where
  slots := installation.slots
  versionPins := installation.writerSelection.map ArtifactIdentity.version

/-- The first record of the update, and the store it leaves. -/
def updateRecord : ActivationJournal := (helper .accept).firstRecord installedSnapshot update

def updateStarted : Transaction :=
  (helper .accept).started installation installedSnapshot "incomplete-1" update

theorem installation_keyed : installation.Keyed := by
  intro k dir hk
  unfold installation at hk
  rw [OrdMap.get?_insert] at hk
  split_ifs at hk with hke
  · cases hk
    exact hke
  · cases hk

theorem updateRecord_valid : validateActivationJournal updateRecord = .ok () := by decide +kernel

theorem updateRecord_bounded : BoundedJournal updateRecord := by
  have hbo : Bounded shipped ∧ Bounded update :=
    ⟨⟨by decide, by decide, by decide⟩, by decide, by decide, by decide⟩
  refine ⟨fun a ha => ?_, by decide⟩
  have hm : a = update ∨ a = shipped := by
    simpa [updateRecord, Owner.firstRecord, Owner.freshJournal, installedSnapshot, installation,
      Store.slots, ActivationJournal.knownGood] using ha
  rcases hm with rfl | rfl
  · exact hbo.2
  · exact hbo.1

theorem update_checks :
    loadActivationWriteSnapshot shipped installation = .ok installedSnapshot ∧
      (∃ t, (helper .accept).beginActivation shipped installation installedSnapshot "incomplete-1"
        update = .ok t) ∧
      encodeActivationJournal updateRecord = .ok () :=
  ⟨by decide +kernel, ⟨_, rfl⟩, (encodeActivationJournal_ok updateRecord_bounded).mpr
    (validateActivationJournal_ok.mp updateRecord_valid)⟩

theorem update_begun : Begun shipped updateRecord updateStarted.disk ∧
    Live updateRecord updateStarted.disk updateStarted := by
  obtain ⟨hlo, ⟨t, hbe⟩, henc⟩ := update_checks
  exact begun_of_free installation_keyed hlo hbe henc (by decide +kernel)

theorem helper_fit : (helper .accept).Fit updateRecord where
  image := rfl
  distinct := by decide
  health_ne := by decide
  lifecycle_ne := by decide
  ownership := by decide

theorem update_run : ((helper .accept).proceed exampleHash updateStarted none).1.written =
    .journal updateRecord ::
      ((helper .accept).proceed exampleHash updateStarted none).1.written.tail := by
  obtain ⟨hb, hl⟩ := update_begun
  obtain ⟨i, hh⟩ := hl.holds exampleHash hb .accept
  obtain ⟨ws, p', hw, -⟩ := hh.proceed (o := helper .accept) hb.validContext
    (fun _ : True => updateRecord_bounded) rfl rfl none
  rw [hw, hl.written]
  rfl

theorem update_attempt : (helper .accept).attempt exampleHash shipped installation "incomplete-1"
    update = .journal updateRecord ::
      ((helper .accept).proceed exampleHash updateStarted none).1.written.tail := by
  obtain ⟨hlo, ⟨t, hbe⟩, henc⟩ := update_checks
  have hs : (helper .accept).started installation installedSnapshot "incomplete-1" update =
      updateStarted := rfl
  rw [attempt_eq hlo hbe henc, hs]
  exact update_run

theorem pendingCut_recovered :
    (helper .accept).recovered updateRecord updateStarted.disk = .committed := by
  decide +kernel

/-- The store after the recovery of an attempt that was cut right after its first record. -/
def pendingCutEnded : Store :=
  ((helper .accept).recover exampleHash shipped updateStarted.disk).foldl Store.apply
    updateStarted.disk

theorem pendingCut_at : At exampleHash updateRecord (.resolved .committed) pendingCutEnded := by
  obtain ⟨hb, -⟩ := update_begun
  have hat : At exampleHash updateRecord (.begun _) updateStarted.disk := hb.at'
  obtain ⟨-, hfol, -⟩ := hat.recover_resolves hb.validContext hb.admitted
    updateRecord_bounded helper_fit (by simp) hb.journal
  rw [pendingCut_recovered] at hfol
  exact hfol.finish

/-- No health was accepted at the cut, and a recovering owner that finds the candidate healthy
commits it. -/
theorem pendingCut_commits :
    (∃ rest, (helper .accept).attempt exampleHash shipped installation "incomplete-1" update =
      .journal updateRecord :: rest) ∧
    updateStarted.disk = installation.apply (.journal updateRecord) ∧
    updateRecord.phase = .publishPending ∧
    pendingCutEnded.journal = none ∧ pendingCutEnded.slots = committedSlots updateRecord :=
  ⟨⟨_, update_attempt⟩, rfl, rfl, pendingCut_at.resolved_journal, pendingCut_at.slots⟩

/-- The equivalence where the live owner is cut after its second durable step. -/
theorem secondStepCut_resumes :
    let ws₀ := ((helper .accept).proceed exampleHash updateStarted none).1.written.tail.take 1
    let s' := ws₀.foldl Store.apply updateStarted.disk
    let ended := ((helper .accept).recover exampleHash shipped s').foldl Store.apply s'
    ∃ (o₁ : Owner) (t₁ : Transaction), Live updateRecord updateStarted.disk t₁ ∧
      facts (ws₀ ++ [] ++ (helper .accept).recover exampleHash shipped s') =
        facts (o₁.proceed exampleHash t₁ none).1.written ∧
      ended.slots = (o₁.proceed exampleHash t₁ none).1.disk.slots ∧
      ended.journal = none ∧ (o₁.proceed exampleHash t₁ none).1.disk.journal = none := by
  intro ws₀ s' ended
  have hcut : ((helper .accept).proceed exampleHash updateStarted none).1.written =
      .journal updateRecord :: ws₀ ++
        ((helper .accept).proceed exampleHash updateStarted none).1.written.tail.drop 1 := by
    rw [cons_append, take_append_drop]
    exact update_run
  exact (resume_equivalence update_begun.1 updateRecord_bounded update_begun.2 hcut .start
    helper_fit).1

end Keld.Update
