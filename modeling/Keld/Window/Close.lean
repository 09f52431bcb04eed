/-
# `Keld.Window.Close` — two-phase close, over whole runs

A close is issued under the next sequence of its window and settled by a veto, by an
allowing reply, or by being abandoned.  A window is torn down by an allowing reply, a
`Destroy`, the session end or the cleanup of a late build.

Both halves are one equation each between a window's log and its entry.

* `SeqInv`: the sequences issued and not settled are exactly the pending close of the
  phase; what is issued is above everything issued before.
* `tornDown_eq`: the views torn down in the log are the view of an entry that is
  `Closing` or `Destroyed` with one, so no window is torn down twice.

Neither needs a promise about owners: the theorem is about every run.
-/
import Keld.Window.Log

namespace Keld.Window

open WindowRegistry List Phase

/-! ## What a log says about closes -/

/-- The close sequences issued, in order. -/
def issuedSeqs (l : List Note) : List ℕ :=
  l.filterMap fun
    | .closeIssued seq => some seq
    | _ => none

/-- The close sequences settled, in order, once for each terminal outcome. -/
def settledSeqs (l : List Note) : List ℕ :=
  l.filterMap fun
    | .closeSettled seq _ => some seq
    | _ => none

/-- The views torn down, in order. -/
def teardowns (l : List Note) : List WebviewId :=
  l.filterMap fun
    | .teardown view => some view
    | _ => none

@[simp] theorem issuedSeqs_append (l m : List Note) :
    issuedSeqs (l ++ m) = issuedSeqs l ++ issuedSeqs m := by
  simp [issuedSeqs]

@[simp] theorem settledSeqs_append (l m : List Note) :
    settledSeqs (l ++ m) = settledSeqs l ++ settledSeqs m := by
  simp [settledSeqs]

@[simp] theorem teardowns_append (l m : List Note) :
    teardowns (l ++ m) = teardowns l ++ teardowns m := by
  simp [teardowns]

theorem close_facts (facts : List OwnedWindowEvent) :
    issuedSeqs (facts.map .fact) = [] ∧ settledSeqs (facts.map .fact) = [] := by
  simp [issuedSeqs, settledSeqs]

theorem close_requestNotes (seq : ℕ) (fact : Option OwnedWindowEvent) :
    issuedSeqs (requestNotes seq fact) = [seq] ∧ settledSeqs (requestNotes seq fact) = [] ∧
      teardowns (requestNotes seq fact) = [] := by
  cases fact <;> exact ⟨rfl, rfl, rfl⟩

theorem close_factNotes (e : Entry) (event : Option WindowEvent) :
    issuedSeqs (e.factNotes event) = [] ∧ settledSeqs (e.factNotes event) = [] ∧
      teardowns (e.factNotes event) = [] := by
  cases event <;> cases h : e.ownerLive <;> simp [Entry.factNotes, h] <;> exact ⟨rfl, rfl, rfl⟩

/-! ## Sequences -/

/-- A step of an entry, seen from its close sequences. -/
inductive SeqStep (e e' : Entry) (notes : List Note) : Prop
  | quiet : issuedSeqs notes = [] → settledSeqs notes = [] →
      e'.phase.pendingClose = e.phase.pendingClose → e'.lastCloseSeq = e.lastCloseSeq →
      SeqStep e e' notes
  | issue : issuedSeqs notes = [e.lastCloseSeq + 1] → settledSeqs notes = [] →
      e.phase.pendingClose = none → e'.phase.pendingClose = some (e.lastCloseSeq + 1) →
      e'.lastCloseSeq = e.lastCloseSeq + 1 → SeqStep e e' notes
  | settle {seq} : issuedSeqs notes = [] → settledSeqs notes = [seq] →
      e.phase.pendingClose = some seq → e'.phase.pendingClose = none →
      e'.lastCloseSeq = e.lastCloseSeq → SeqStep e e' notes

variable {r : WindowRegistry} {op : WindowOp} {e e' : Entry} {notes : List Note}

theorem EntryStep.seqStep (h : EntryStep r op e e' notes) : SeqStep e e' notes := by
  cases h with
  | keep _ | claim _ _ | adopt _ _ _ | factClosing _ _ | spared _ | takeOver _ =>
    exact .quiet rfl rfl rfl rfl
  | requestClose _ hp _ | nativeClose hp _ _ =>
    obtain ⟨h1, h2, -⟩ :=
      close_requestNotes (e.lastCloseSeq + 1) (e.requestFact (e.lastCloseSeq + 1))
    exact .issue h1 h2 (by simp [hp, pendingClose]) rfl rfl
  | veto _ hp | allow _ hp | destroyPending _ hp _ =>
    exact .settle rfl rfl (by simp [hp, pendingClose]) rfl rfl
  | destroyOpen _ hp _ =>
    exact .quiet rfl rfl (by simp [hp, Entry.destroying, pendingClose]) rfl
  | destroyClosing _ _ _ => exact .quiet rfl rfl rfl rfl
  | built _ hp | cleanup _ hp | failedLate _ hp =>
    exact .quiet rfl rfl (by simp [hp, pendingClose]) rfl
  | failed _ hp =>
    refine .quiet ?_ ?_ (by simp [hp, pendingClose]) rfl
    · split_ifs <;> rfl
    · split_ifs <;> rfl
  | fact hp _ | factPending hp _ =>
    obtain ⟨h1, h2, -⟩ := close_factNotes e _
    exact .quiet h1 h2 (by simp [hp, pendingClose]) rfl
  | released hp _ =>
    obtain ⟨h1, h2⟩ := close_facts e.destroyedFact.toList
    refine .quiet ?_ ?_ (by simp [hp, Entry.released, pendingClose]) rfl
    · rw [issuedSeqs_append, h1]
      rfl
    · rw [settledSeqs_append, h2]
      rfl
  | lost _ =>
    cases hp : e.phase with
    | closePending native seq =>
      exact .settle rfl rfl (by simp [hp, pendingClose]) (by simp [loseRole, hp, pendingClose]) rfl
    | opening call | opened native | closing native | destroyed view =>
      exact .quiet rfl rfl (by simp [loseRole, hp, pendingClose]) rfl
  | ended =>
    cases hp : e.phase with
    | closePending native seq =>
      have hpe : e.phase.pendingClose = some seq := by simp [hp, pendingClose]
      refine .settle ?_ ?_ hpe (by simp [endEntry, hp, pendingClose]) rfl
      · simp only [endEffects, hp]
        rfl
      · simp only [endEffects, hp]
        rfl
    | opening call | opened native | closing native | destroyed view =>
      refine .quiet ?_ ?_ (by simp [endEntry, hp, pendingClose]) rfl
      · simp only [endEffects, hp]
        rfl
      · simp only [endEffects, hp]
        rfl

/-- The close sequences of a window against its entry. -/
structure SeqInv (e : Entry) (l : List Note) : Prop where
  increasing : (issuedSeqs l).Pairwise (· < ·)
  le_last : ∀ seq ∈ issuedSeqs l, seq ≤ e.lastCloseSeq
  settledOnce : (settledSeqs l).Nodup
  settledIssued : ∀ seq ∈ settledSeqs l, seq ∈ issuedSeqs l
  pending : ∀ seq, (seq ∈ issuedSeqs l ∧ seq ∉ settledSeqs l) ↔ e.phase.pendingClose = some seq

theorem SeqInv.step {l : List Note} (hi : SeqInv e l) (h : EntryStep r op e e' notes) :
    SeqInv e' (l ++ notes) := by
  cases h.seqStep with
  | quiet h1 h2 h3 h4 =>
    refine ⟨?_, ?_, ?_, ?_, ?_⟩ <;>
      simp only [issuedSeqs_append, settledSeqs_append, h1, h2, append_nil]
    · exact hi.increasing
    · rw [h4]
      exact hi.le_last
    · exact hi.settledOnce
    · exact hi.settledIssued
    · rw [h3]
      exact hi.pending
  | issue h1 h2 h3 h4 h5 =>
    refine ⟨?_, ?_, ?_, ?_, ?_⟩ <;>
      simp only [issuedSeqs_append, settledSeqs_append, h1, h2, append_nil]
    · rw [pairwise_append]
      refine ⟨hi.increasing, pairwise_singleton _ _, ?_⟩
      intro a ha b hb
      have := hi.le_last a ha
      rw [mem_singleton] at hb
      omega
    · intro seq hseq
      rw [mem_append, mem_singleton] at hseq
      rcases hseq with hseq | rfl
      · have := hi.le_last seq hseq
        omega
      · exact h5.ge
    · exact hi.settledOnce
    · exact fun seq hseq => mem_append_left _ (hi.settledIssued seq hseq)
    · intro seq
      -- everything issued before is settled, so only the new sequence is pending
      have ho : ¬ (seq ∈ issuedSeqs l ∧ seq ∉ settledSeqs l) := by
        rw [hi.pending seq, h3]
        simp
      have hn : e.lastCloseSeq + 1 ∉ settledSeqs l := by
        intro hm
        have := hi.le_last _ (hi.settledIssued _ hm)
        omega
      rw [h4, mem_append, mem_singleton]
      constructor
      · rintro ⟨hm | rfl, hnot⟩
        · exact absurd ⟨hm, hnot⟩ ho
        · rfl
      · intro he
        cases he
        exact ⟨.inr rfl, hn⟩
  | @settle seq h1 h2 h3 h4 h5 =>
    obtain ⟨hid, hnot⟩ := (hi.pending seq).mpr h3
    refine ⟨?_, ?_, ?_, ?_, ?_⟩ <;>
      simp only [issuedSeqs_append, settledSeqs_append, h1, h2, append_nil]
    · exact hi.increasing
    · rw [h5]
      exact hi.le_last
    · rw [nodup_append]
      refine ⟨hi.settledOnce, by simp, ?_⟩
      intro a ha b hb
      rw [mem_singleton] at hb
      rintro rfl
      exact hnot (hb ▸ ha)
    · intro s hs
      rw [mem_append, mem_singleton] at hs
      rcases hs with hs | rfl
      · exact hi.settledIssued s hs
      · exact hid
    · intro s
      rw [h4, mem_append, mem_singleton]
      constructor
      · rintro ⟨hm, hs⟩
        have := (hi.pending s).mp ⟨hm, fun h => hs (.inl h)⟩
        rw [h3] at this
        exact absurd (.inr (Option.some.inj this).symm) hs
      · intro hs
        cases hs

/-! ## Teardowns -/

/-- The view of an entry whose teardown has been ordered. -/
def Entry.tornDown (e : Entry) : List WebviewId :=
  match e.phase with
  | .closing (some native) => [native.view]
  | .destroyed (some view) => [view]
  | _ => []

/-- A step orders a teardown exactly when the entry becomes one that is torn down. -/
theorem EntryStep.tornDown (h : EntryStep r op e e' notes) :
    e'.tornDown = e.tornDown ++ teardowns notes := by
  cases h with
  | keep _ | claim _ _ | adopt _ _ _ | factClosing _ _ | spared _ | takeOver _
  | destroyClosing _ _ _ => exact (append_nil _).symm
  | requestClose _ hp _ | nativeClose hp _ _ =>
    obtain ⟨-, -, h3⟩ :=
      close_requestNotes (e.lastCloseSeq + 1) (e.requestFact (e.lastCloseSeq + 1))
    rw [h3]
    simp [Entry.tornDown, hp, Entry.requested]
  | veto _ hp | allow _ hp | destroyOpen _ hp _ | destroyPending _ hp _ =>
    simp only [Entry.tornDown, hp, nil_append]
    rfl
  | built _ hp | cleanup _ hp | failedLate _ hp =>
    simp only [Entry.tornDown, hp, nil_append]
    rfl
  | failed _ hp =>
    simp only [Entry.tornDown, hp, nil_append]
    split_ifs <;> rfl
  | fact hp _ | factPending hp _ =>
    obtain ⟨-, -, h3⟩ := close_factNotes e _
    rw [h3]
    simp [Entry.tornDown, hp]
  | released hp hv =>
    simp [Entry.tornDown, Entry.released, hp, hv, teardowns]
  | lost _ =>
    cases hp : e.phase <;>
      simp [Entry.tornDown, loseRole, hp, pendingClose, teardowns]
  | ended =>
    cases hp : e.phase <;>
      simp [Entry.tornDown, endEntry, endEffects, hp, SessionEffect.note, teardowns]

/-- The log of a window, its close sequences and its teardowns, in every run. -/
theorem closeInv_run (ops : List WindowOp) :
    ∀ k e, (machine.run ops).entries.get? k = some e →
      SeqInv e (log ops e.window) ∧ teardowns (log ops e.window) = e.tornDown := by
  refine entry_induction (P := fun e l => SeqInv e l ∧ teardowns l = e.tornDown) ?_ ?_
    (Machine.guarded_trivial ops)
  · intro w o c
    refine ⟨⟨List.Pairwise.nil, ?_, nodup_nil, ?_, ?_⟩, rfl⟩
    · intro seq h
      cases h
    · intro seq h
      cases h
    · intro seq
      simp [issuedSeqs, openingEntry, pendingClose]
  · intro ops op k e e' notes _ _ _ hs hinv
    exact ⟨hinv.1.step hs, by rw [teardowns_append, hinv.2, hs.tornDown]⟩

theorem EntryStep.release {view : WebviewId} (h : EntryStep r (.nativeReleased view) e e' notes)
    (hnot : e.phase.isDestroyed = false) (hde : e'.phase.isDestroyed = true) :
    e.tornDown = [view] := by
  cases h with
  | keep _ => exact absurd (hnot.symm.trans hde) (by simp)
  | claim _ hc => cases hc
  | released hp hv => simp [Entry.tornDown, hp, hv]

/-- A reply that does not answer the pending close changes no phase. -/
theorem stale_reply {r' : WindowRegistry} {o : WindowOwner} {w : WindowRef} {seq : ℕ}
    {v : CloseVerdict} {out : WindowOutcome} (h : Step r (.closeReply o w seq v) r' out)
    (hst : ∀ e, r.entries.get? w.id = some e → e.window = w → e.phase.pendingClose ≠ some seq)
    (k : ℕ) :
    (r'.entries.get? k).map Entry.phase = (r.entries.get? k).map Entry.phase := by
  cases h with
  | idle _ => rfl
  | claim ha hc =>
    rw [get?_setEntry ha.get]
    split_ifs with hk
    · subst hk
      cases hc
      rw [ha.get]
      rfl
    · rfl
  | veto ha hp | allow ha hp =>
    exact absurd (by simp [hp, pendingClose]) (hst _ ha.get ha.window_eq)

/-! ## Every run -/

/-- **Two-phase close safety.**  In every run and for every window: the close sequences issued are
strictly increasing and at most one is unsettled; each is settled at most once, and only after it
was issued; the window is torn down at most once, and a release destroys it only after that
teardown; and a reply that does not answer the pending close changes no entry's phase. -/
theorem close_safe (ops : List WindowOp) :
    (∀ w, (issuedSeqs (log ops w)).Pairwise (· < ·) ∧
      ((issuedSeqs (log ops w)).filter (fun seq => seq ∉ settledSeqs (log ops w))).length ≤ 1 ∧
      (settledSeqs (log ops w)).Nodup ∧
      (∀ seq ∈ settledSeqs (log ops w), seq ∈ issuedSeqs (log ops w)) ∧
      (teardowns (log ops w)).length ≤ 1) ∧
    (∀ view k e e', (machine.run ops).entries.get? k = some e →
      (machine.run (ops ++ [.nativeReleased view])).entries.get? k = some e' →
      e.phase.isDestroyed = false → e'.phase.isDestroyed = true →
      teardowns (log ops e.window) = [view]) ∧
    (∀ o w seq v, (∀ e, (machine.run ops).entries.get? w.id = some e → e.window = w →
        e.phase.pendingClose ≠ some seq) →
      ∀ k, ((machine.run (ops ++ [.closeReply o w seq v])).entries.get? k).map Entry.phase =
        ((machine.run ops).entries.get? k).map Entry.phase) := by
  refine ⟨?_, ?_, ?_⟩
  · intro w
    by_cases hn : log ops w = []
    · simp [hn, issuedSeqs, settledSeqs, teardowns]
    · obtain ⟨k, e, hk, rfl⟩ := window_of_log hn
      obtain ⟨hseq, hte⟩ := closeInv_run ops k e hk
      refine ⟨hseq.increasing, ?_, hseq.settledOnce, hseq.settledIssued, ?_⟩
      · -- all unsettled sequences are the one pending close
        have hno : (issuedSeqs (log ops e.window)).Nodup :=
          hseq.increasing.imp (fun h => Nat.ne_of_lt h)
        have hal : ∀ a ∈ (issuedSeqs (log ops e.window)).filter
            (fun seq => seq ∉ settledSeqs (log ops e.window)),
            e.phase.pendingClose = some a := by
          intro a ha
          simp only [mem_filter, decide_eq_true_eq] at ha
          exact (hseq.pending a).mp ha
        have hsu := hno.filter (fun seq => seq ∉ settledSeqs (log ops e.window))
        generalize (issuedSeqs (log ops e.window)).filter _ = unsettled at hal hsu
        rcases unsettled with _ | ⟨a, _ | ⟨b, more⟩⟩
        · exact Nat.zero_le _
        · exact le_rfl
        · have ha := hal a mem_cons_self
          have hb := hal b (mem_cons_of_mem _ mem_cons_self)
          rw [ha] at hb
          cases hb
          simp at hsu
      · rw [hte, Entry.tornDown]
        split <;> simp
  · intro view k e e' hk hk' hnot hde
    obtain ⟨e'', hk'', hs⟩ := step_entry (run_sound ops (.nativeReleased view)) (keyed_run ops) hk
    cases hk''.symm.trans hk'
    rw [(closeInv_run ops k e hk).2]
    exact hs.release hnot hde
  · intro o w seq v hst k
    exact stale_reply (run_sound ops _) hst k

end Keld.Window
