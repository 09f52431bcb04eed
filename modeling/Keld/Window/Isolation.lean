/-
# `Keld.Window.Isolation` — an owner reaches its own windows, and a refusal changes nothing

*Isolation.*  An operation of `o` finds its window through `admitted_entry` or the
adoption search, and both look at the owner.  An entry of another live owner is not
changed, one without a live owner only by `subscribe_successor`.

*Refusal.*  Admission clears the adoption mark before the phase is looked at, so a
refusal after it is harmless only where the mark was clear (`MarkInv`).  One refusal
does change the registry, an exhausted close sequence: the window is `Open`, the call
was the owner's first to name it, and the mark is cleared as by any admitted call.
-/
import Keld.Window.Invariant

namespace Keld.Window

open WindowRegistry List Machine

/-! ## Isolation -/

variable {r : WindowRegistry} {op : WindowOp} {e e' : Entry} {notes : List Note} {o : WindowOwner}
  {out : WindowOutcome} {err : WindowError}

/-- A step by another owner does not change an entry that has a live one. -/
theorem EntryStep.other_owner (h : EntryStep r op e e' notes) (hc : op.caller = some o)
    (hl : e.ownerLive = true) (hne : e.owner ≠ o) : e' = e := by
  have ham : ∀ {o' w}, Admitted r o' w e → op.caller = some o' → False := by
    intro o' w had hc'
    cases hc.symm.trans hc'
    exact hne had.owner_eq
  cases h with
  | keep _ => rfl
  | claim had hcl => exact (ham had (by cases hcl <;> rfl)).elim
  | requestClose had _ _ | veto had _ | allow had _ | destroyOpen had _ _
  | destroyPending had _ _ | destroyClosing had _ _ => exact (ham had rfl).elim
  | adopt _ _ ha =>
    cases hc
    simp only [adoptableBy, Bool.and_eq_true, beq_iff_eq] at ha
    exact absurd ha.1.1.2 hne
  | takeOver hs => simp [survives, hl] at hs
  | _ => cases hc

/-- A step by an owner changes an entry without a live one only by taking it over. -/
theorem EntryStep.no_owner (h : EntryStep r op e e' notes) (hc : op.caller = some o)
    (hde : e.ownerLive = false) :
    e' = e ∨ op = .subscribeSuccessor o ∧
      ∃ mark, e' = { e with owner := o, ownerLive := true, adoptable := mark } := by
  have ham : ∀ {o' w}, ¬ Admitted r o' w e := by
    intro o' w had
    exact absurd (had.live.symm.trans hde) (by simp)
  cases h with
  | keep _ => exact .inl rfl
  | claim had _ | requestClose had _ _ | veto had _ | allow had _ | destroyOpen had _ _
  | destroyPending had _ _ | destroyClosing had _ _ => exact absurd had ham
  | adopt _ _ ha => simp [adoptableBy, hde] at ha
  | takeOver _ =>
    cases hc
    exact .inr ⟨rfl, _, rfl⟩
  | _ => cases hc

/-! ## Refusal -/

/-- When an adoption mark, or a waiting `Destroy`, can be there. -/
structure MarkInv (e : Entry) : Prop where
  adoptable : e.adoptable = true → e.phase.isLive = true
  calls : e.destroyCalls ≠ [] → e.phase.isLive = false ∧ e.phase.isOpening = false

theorem MarkInv.step (hm : MarkInv e) (h : EntryStep r op e e' notes) : MarkInv e' := by
  -- a phase that is neither on screen nor opening, with the mark clear
  have hoff : ∀ {e' : Entry}, e'.adoptable = false → e'.phase.isLive = false →
      e'.phase.isOpening = false → MarkInv e' := by
    intro e' ha hp ho
    exact ⟨fun h => by simp [ha] at h, fun _ => ⟨hp, ho⟩⟩
  -- a phase on screen, for an entry that was there or opening
  have hon : ∀ {e' : Entry}, e'.phase.isLive = true → e'.destroyCalls = e.destroyCalls →
      (e.phase.isLive = true ∨ e.phase.isOpening = true) → MarkInv e' := by
    intro e' hp hca he
    refine ⟨fun _ => hp, fun hne => ?_⟩
    obtain ⟨h1, h2⟩ := hm.calls (hca ▸ hne)
    rcases he with he | he
    · simp [he] at h1
    · simp [he] at h2
  have hc : e.phase.isLive = false → e.adoptable = false := by
    intro hp
    cases ha : e.adoptable with
    | false => rfl
    | true => exact absurd (hm.adoptable ha) (by simp [hp])
  cases h with
  | keep _ | spared _ => exact hm
  | claim _ _ | adopt _ _ _ => exact ⟨fun h => (by cases h), hm.calls⟩
  | requestClose _ hp _ | nativeClose hp _ _ | fact hp _ =>
    exact hon rfl rfl (.inl (isLive_opened hp))
  | veto _ hp | factPending hp _ => exact hon rfl rfl (.inl (isLive_closePending hp))
  | allow _ _ | destroyOpen _ _ _ | destroyPending _ _ _ | released _ _ => exact hoff rfl rfl rfl
  | destroyClosing _ hp _ =>
    exact hoff rfl (by simp [Entry.claimed, hp, Phase.isLive])
      (by simp [Entry.claimed, hp, Phase.isOpening])
  | built _ hp => exact hon rfl rfl (.inr (by simp [hp, Phase.isOpening]))
  | cleanup _ hp | failed _ hp | failedLate _ hp =>
    exact hoff (hc (by simp [hp, Phase.isLive])) rfl rfl
  | factClosing hp _ => exact ⟨hm.adoptable, hm.calls⟩
  | lost _ =>
    refine ⟨fun h => (by cases h), fun h => absurd rfl h⟩
  | takeOver hs =>
    simp only [survives, Bool.and_eq_true] at hs
    exact ⟨fun _ => hs.2, hm.calls⟩
  | ended =>
    refine hoff rfl ?_ ?_ <;>
      cases hp : e.phase <;> simp [endEntry, hp, Phase.isLive, Phase.isOpening]

theorem markInv_run (ops : List WindowOp) :
    ∀ k e, (machine.run ops).entries.get? k = some e → MarkInv e := by
  refine entry_induction (P := fun e _ => MarkInv e) ?_ ?_ (guarded_trivial ops)
  · intro w o c
    exact ⟨fun h => (by cases h), fun h => absurd rfl h⟩
  · intro ops op k e e' notes _ _ _ hs hm
    exact hm.step hs

/-- The error an operation is refused with. -/
def WindowOutcome.error? : WindowOutcome → Option WindowError
  | .create (.error err) | .setter (.error err) | .closeCall (.error err) _ => some err
  | _ => none

/-- A refused call of an admitted window finds its mark clear, except at the end of the close
sequence. -/
theorem Claim.refused {w : WindowRef} (h : Claim o w e op out) (hm : MarkInv e)
    (he : out.error? = some err) :
    e.adoptable = false ∨ op = .requestClose o w ∧ err = .exhausted .closeSequence := by
  have hc : e.phase.isLive = false → e.adoptable = false := by
    intro hp
    cases ha : e.adoptable with
    | false => rfl
    | true => exact absurd (hm.adoptable ha) (by simp [hp])
  have hopg : e.phase.isOpening = true → e.phase.isLive = false := by
    intro ho
    cases hp : e.phase <;> simp [hp, Phase.isOpening, Phase.isLive] at ho ⊢
  cases h with
  | setMaximizedStale hp | setFullScreenStale hp => exact .inl (hc hp)
  | requestStale hp | destroyStale hp => exact .inl (hc (hopg hp))
  | destroyCapacity hl =>
    refine .inl (hc (hm.calls ?_).1)
    rintro hn
    rw [hn] at hl
    exact absurd hl (by decide)
  | requestExhausted _ _ => exact .inr ⟨rfl, (Option.some.inj he).symm⟩
  | _ => cases he

theorem claimed_eq (h : e.adoptable = false) : e.claimed = e := by
  cases e
  simp_all [Entry.claimed]

/-- A refused operation leaves the registry as it was, except at the end of the close sequence,
where it clears the mark of the window it names. -/
theorem Step.refused {r' : WindowRegistry} (h : Step r op r' out)
    (hm : ∀ k e, r.entries.get? k = some e → MarkInv e) (he : out.error? = some err) :
    r' = r ∨ err = .exhausted .closeSequence ∧ ∃ o w e, op = .requestClose o w ∧
      r.entries.get? w.id = some e ∧ r' = r.setEntry w.id { e with adoptable := false } := by
  cases h with
  | idle _ => exact .inl rfl
  | @claim o w e op out ha hc =>
    rcases hc.refused (hm _ e ha.get) he with hcl | ⟨hop, he'⟩
    · left
      rw [claimed_eq hcl]
      exact setEntry_self ha.get
    · exact .inr ⟨he', o, w, e, hop, ha.get, rfl⟩
  | _ => cases he

/-! ## The two together -/

/-- Whatever an app asks for on behalf of `o`, no window of another live owner changes, a window
without a live owner is at most taken over, and a refusal leaves the whole registry as it was,
unless it is the close sequence that is exhausted. -/
theorem owner_isolation (ops : List WindowOp) (op : WindowOp) (o : WindowOwner)
    (hc : op.caller = some o) :
    (∀ k e, (machine.run ops).entries.get? k = some e → e.ownerLive = true → e.owner ≠ o →
      (machine.run (ops ++ [op])).entries.get? k = some e) ∧
    (∀ k e, (machine.run ops).entries.get? k = some e → e.ownerLive = false →
      (machine.run (ops ++ [op])).entries.get? k = some e ∨
      op = .subscribeSuccessor o ∧ ∃ mark, (machine.run (ops ++ [op])).entries.get? k =
        some { e with owner := o, ownerLive := true, adoptable := mark }) ∧
    (∀ err, (machine.outcome ops op).error? = some err →
      machine.run (ops ++ [op]) = machine.run ops ∨
      err = .exhausted .closeSequence ∧ ∃ w e, op = .requestClose o w ∧
        (machine.run ops).entries.get? w.id = some e ∧
        machine.run (ops ++ [op]) =
          (machine.run ops).setEntry w.id { e with adoptable := false }) := by
  have hst := run_sound ops op
  refine ⟨?_, ?_, ?_⟩
  · intro k e hk hl hne
    obtain ⟨e', hk', hs⟩ := step_entry hst (keyed_run ops) hk
    rw [hk', hs.other_owner hc hl hne]
  · intro k e hk hde
    obtain ⟨e', hk', hs⟩ := step_entry hst (keyed_run ops) hk
    rcases hs.no_owner hc hde with rfl | ⟨hop, mark, rfl⟩
    · exact .inl hk'
    · exact .inr ⟨hop, mark, hk'⟩
  · intro err he
    rcases hst.refused (markInv_run ops) he with h | ⟨hseq, o', w, e, rfl, hw, hr⟩
    · exact .inl h
    · cases hc
      exact .inr ⟨hseq, w, e, rfl, hw, hr⟩

/-- A refused `Destroy` of a window that another owner's loss left behind. -/
theorem orphan_refused :
    (machine.outcome (handover.take 6) (.destroy ⟨11, 2⟩ ⟨1, 1⟩ 9)).error? = some .wrongOwner ∧
      machine.run (handover.take 6 ++ [.destroy ⟨11, 2⟩ ⟨1, 1⟩ 9]) =
        machine.run (handover.take 6) := by
  have he : (machine.outcome (handover.take 6) (.destroy ⟨11, 2⟩ ⟨1, 1⟩ 9)).error? =
      some .wrongOwner := by decide
  refine ⟨he, ?_⟩
  rcases (owner_isolation (handover.take 6) (.destroy ⟨11, 2⟩ ⟨1, 1⟩ 9) ⟨11, 2⟩ rfl).2.2 _ he
    with h | ⟨h, -⟩
  · exact h
  · cases h

/-! ## A refusal that does change the registry

The last close sequence is used up by an app that vetoes every close.  Its successor takes the
window over, with the adoption mark, and its first call asks to close it. -/

/-- The first owner opens a window. -/
def firstWindow : List WindowOp :=
  [.markReady, .subscribeSuccessor ⟨10, 1⟩, .create ⟨10, 1⟩ 1 800 600 none none,
    .nativeBuilt 1 7 ⟨⟨0, 0, 800, 600⟩, true, false, false⟩]

/-- The user asks to close the window and the owner vetoes, `n` times. -/
def vetoRounds : ℕ → List WindowOp
  | 0 => []
  | n + 1 => vetoRounds n ++ [.nativeClose 7] ++ [.closeReply ⟨10, 1⟩ ⟨1, 1⟩ (n + 1) .veto]

/-- The entry of the window after `n` rounds, in phase `phase`. -/
def vetoedEntry (n : ℕ) (phase : Phase) : Entry where
  window := ⟨1, 1⟩
  owner := ⟨10, 1⟩
  ownerLive := true
  adoptable := false
  created := true
  dropped := 0
  lastCloseSeq := n
  destroyCalls := []
  phase

/-- A registry with one window. -/
def oneWindow (e : Entry) : WindowRegistry where
  ready := true
  ending := false
  lastId := 1
  lastIncarnation := 1
  entries := ⟨[(1, e)], by simp⟩
  deferredLastWindow := false
  destroyedFactDrops := 0

/-- The native window of the run. -/
def firstNative : NativeWindow := ⟨7, ⟨⟨0, 0, 800, 600⟩, true, false, false⟩⟩

theorem run_vetoRounds :
    ∀ n, n < 2 ^ 64 →
      machine.run (firstWindow ++ vetoRounds n) = oneWindow (vetoedEntry n (.opened firstNative))
  | 0, _ => rfl
  | n + 1, h => by
    have ih := run_vetoRounds n (by omega)
    have hcl : (machine.step (oneWindow (vetoedEntry n (.opened firstNative))) (.nativeClose 7)).1 =
          oneWindow (vetoedEntry (n + 1) (.closePending firstNative (n + 1))) := by
      have hbe : beginClose (vetoedEntry n (.opened firstNative)) =
          (vetoedEntry (n + 1) (.closePending firstNative (n + 1)),
            .requested (n + 1) (some ⟨⟨10, 1⟩, .closeRequested ⟨1, 1⟩ (n + 1)⟩)) := by
        have hsu : checkedSucc64 n = some (n + 1) := if_pos h
        simp only [beginClose, vetoedEntry, hsu]
        rfl
      change ((oneWindow (vetoedEntry n (.opened firstNative))).nativeClose 7).1 = _
      have hfi : (oneWindow (vetoedEntry n (.opened firstNative))).entries.find? (hasView 7) =
          some (1, vetoedEntry n (.opened firstNative)) := rfl
      simp only [nativeClose, hfi, hbe]
      rfl
    have hve : (machine.step (oneWindow (vetoedEntry (n + 1) (.closePending firstNative (n + 1))))
        (.closeReply ⟨10, 1⟩ ⟨1, 1⟩ (n + 1) .veto)).1 =
          oneWindow (vetoedEntry (n + 1) (.opened firstNative)) := by
      change ((oneWindow (vetoedEntry (n + 1) (.closePending firstNative (n + 1)))).closeReply
        ⟨10, 1⟩ ⟨1, 1⟩ (n + 1) .veto).1 = _
      have ha : (oneWindow (vetoedEntry (n + 1) (.closePending firstNative (n + 1)))).admittedEntry
          ⟨10, 1⟩ ⟨1, 1⟩ = .ok (oneWindow (vetoedEntry (n + 1) (.closePending firstNative (n + 1))),
            vetoedEntry (n + 1) (.closePending firstNative (n + 1))) := rfl
      simp only [closeReply, ha]
      simp only [vetoedEntry, ne_eq, not_true_eq_false, if_false]
      rfl
    rw [vetoRounds, ← append_assoc, ← append_assoc, run_snoc, run_snoc, ih, hcl, hve]

/-- Every close sequence is used, the owner is lost and the next one has taken the window over. -/
def exhaustedRun : List WindowOp :=
  firstWindow ++ vetoRounds (2 ^ 64 - 1) ++ [.roleLost ⟨10, 1⟩] ++ [.subscribeSuccessor ⟨11, 2⟩]

theorem exhaustedRun_owner (n : ℕ) :
    Succession (firstWindow ++ vetoRounds n) ∧
      currentOwner (firstWindow ++ vetoRounds n) = some ⟨10, 1⟩ := by
  induction n with
  | zero => exact ⟨succession_of_check (by decide), rfl⟩
  | succ n ih =>
    obtain ⟨hs, hcur⟩ := ih
    have h1 : Succession (firstWindow ++ vetoRounds n ++ [.nativeClose 7]) :=
      guarded_snoc.mpr ⟨hs, fun o ho => by cases ho⟩
    have hcur1 : currentOwner (firstWindow ++ vetoRounds n ++ [.nativeClose 7]) = some ⟨10, 1⟩ := by
      rw [currentOwner_snoc, hcur]
      rfl
    rw [vetoRounds, ← append_assoc, ← append_assoc]
    refine ⟨guarded_snoc.mpr ⟨h1, ?_⟩, ?_⟩
    · intro o ho
      cases ho
      exact .inr hcur1
    · rw [currentOwner_snoc]
      rfl

theorem exhaustedRun_succession : Succession exhaustedRun := by
  obtain ⟨hs, hcur⟩ := exhaustedRun_owner (2 ^ 64 - 1)
  refine guarded_snoc.mpr ⟨guarded_snoc.mpr ⟨hs, ?_⟩, ?_⟩
  · intro o ho
    cases ho
  · intro o _
    left
    rw [currentOwner_snoc, hcur]
    rfl

/-- The window the successor took over. -/
def survivorEntry : Entry :=
  takeOver ⟨11, 2⟩ (loseRole (vetoedEntry (2 ^ 64 - 1) (.opened firstNative)))

theorem run_exhaustedRun : machine.run exhaustedRun = oneWindow survivorEntry := by
  have h := run_vetoRounds (2 ^ 64 - 1) (by omega)
  rw [exhaustedRun, run_snoc, run_snoc, h]
  rfl

/-- The successor's first call is refused, and has cleared the adoption mark. -/
theorem exhaustedClose_changes :
    Succession exhaustedRun ∧
      (machine.outcome exhaustedRun (.requestClose ⟨11, 2⟩ ⟨1, 1⟩)).error? =
        some (.exhausted .closeSequence) ∧
      machine.run (exhaustedRun ++ [.requestClose ⟨11, 2⟩ ⟨1, 1⟩]) ≠ machine.run exhaustedRun := by
  have hbe : beginClose { survivorEntry with adoptable := false } =
      ({ survivorEntry with adoptable := false }, .exhausted) := by
    simp [beginClose, survivorEntry, takeOver, loseRole, vetoedEntry, checkedSucc64]
  have ha : (oneWindow survivorEntry).admittedEntry ⟨11, 2⟩ ⟨1, 1⟩ =
      .ok (oneWindow { survivorEntry with adoptable := false },
        { survivorEntry with adoptable := false }) := rfl
  have ho : ({ survivorEntry with adoptable := false } : Entry).phase.isOpening = false := rfl
  have hs : machine.step (oneWindow survivorEntry) (.requestClose ⟨11, 2⟩ ⟨1, 1⟩) =
      (oneWindow { survivorEntry with adoptable := false },
        .closeCall (.error (.exhausted .closeSequence)) []) := by
    simp only [machine, WindowRegistry.step, requestClose, ha, ho, hbe]
    rfl
  refine ⟨exhaustedRun_succession, ?_, ?_⟩
  · rw [outcome, run_exhaustedRun, hs]
    rfl
  · rw [run_snoc, run_exhaustedRun, hs]
    intro h
    have hma := congrArg (fun r => (r.entries.get? 1).map (·.adoptable)) h
    exact absurd hma (by simp [oneWindow, OrdMap.get?, survivorEntry, takeOver, loseRole, vetoedEntry])

end Keld.Window
