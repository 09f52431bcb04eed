/-
# `Keld.Window.FactLinkLaw` — the two views, over every run

Facts are applied and dispatched in one order, and acknowledgements come in
between.  `LinkInvariant` says what the source and the receipts have of the log
so far: the source mirrors the applied facts, the queue holds those not yet
dispatched, and each window's record is the one that `Keeps` allows.
-/
import Keld.Window.ReceiptsLaw

namespace Keld.Window

open Kipc List FactLink

/-! ## The records, by window -/

/-- The record of a window, if the one at its id is its own. -/
def WindowCloseReceipts.recordOf (receipts : WindowCloseReceipts) (window : WindowRef) :
    Option CloseRecord :=
  (receipts.records.get? window.id).filter fun record => record.ref = window

/-- The record at the window's id is its own, if there is one. -/
def OwnId (receipts : WindowCloseReceipts) (window : WindowRef) : Prop :=
  ∀ record, receipts.records.get? window.id = some record → record.ref = window

section Records

variable {receipts : WindowCloseReceipts} {window other : WindowRef}

theorem recordOf_eq_some {record : CloseRecord} : receipts.recordOf window = some record ↔
    receipts.records.get? window.id = some record ∧ record.ref = window := by
  rw [WindowCloseReceipts.recordOf, Option.filter_eq_some_iff, decide_eq_true_iff]

theorem recordOf_own (h : OwnId receipts window) :
    receipts.recordOf window = receipts.records.get? window.id := by
  rw [WindowCloseReceipts.recordOf]
  cases hg : receipts.records.get? window.id with
  | none => rfl
  | some record => exact Option.filter_eq_some_iff.mpr ⟨rfl, decide_eq_true (h record hg)⟩

variable {next : WindowCloseReceipts} {fact : WindowEvent}

/-- What is done at the id of one window is not done to another. -/
theorem recordOf_ne (h : OwnId receipts window) (hnext : OwnId next window) (hne : other ≠ window)
    (hg : ∀ id, id ≠ window.id → next.records.get? id = receipts.records.get? id) :
    next.recordOf other = receipts.recordOf other := by
  by_cases hid : other.id = window.id
  · have hn {r : WindowCloseReceipts} (hr : OwnId r window) : r.recordOf other = none := by
      refine Option.eq_none_iff_forall_ne_some.mpr fun record he => hne ?_
      obtain ⟨hg, href⟩ := recordOf_eq_some.mp he
      exact href.symm.trans (hr record (hid ▸ hg))
    rw [hn h, hn hnext]
  · rw [WindowCloseReceipts.recordOf, WindowCloseReceipts.recordOf, hg other.id hid]

theorem observe_get (h : OwnId receipts fact.window) (id : ℕ) :
    (receipts.observe fact).records.get? id =
      if fact.window.id = id then recordAfter (receipts.records.get? fact.window.id) fact
      else receipts.records.get? id := by
  have hs (haf : recordAfter (receipts.records.get? fact.window.id) fact =
      receipts.records.get? fact.window.id) : receipts.records.get? id =
        if fact.window.id = id then recordAfter (receipts.records.get? fact.window.id) fact
        else receipts.records.get? id := by
    split_ifs with hid
    · rw [haf, hid]
    · rfl
  rw [WindowCloseReceipts.observe.eq_def]
  cases hg : receipts.records.get? fact.window.id with
  | none =>
    rw [hg] at hs
    cases fact with
    | created window state pendingClose =>
      rw [WindowEvent.window] at hg
      rw [InsertMap.get?_set, hg]
      rfl
    | _ =>
      dsimp only
      rw [hg]
      exact hs rfl
  | some earlier =>
    have hown : earlier.ref = fact.window := h earlier hg
    rw [hg] at hs
    cases fact with
    | created window state pendingClose =>
      rw [WindowEvent.window] at hg hown
      rw [InsertMap.get?_set, hg, Option.filter_some, hown, if_pos (decide_eq_true rfl)]
      rfl
    | destroyed window =>
      dsimp only
      rw [hg]
      dsimp only
      rw [hown, if_neg (not_not.mpr rfl), InsertMap.get?_erase]
      rfl
    | closeRequested window closeSeq =>
      dsimp only
      rw [hg]
      dsimp only
      rw [hown, if_neg (not_not.mpr rfl)]
      by_cases hco : CloseRecord.covers earlier.ackedThrough closeSeq = true
      · rw [if_pos hco]
        exact hs (if_pos hco)
      · rw [if_neg hco, InsertMap.get?_set, recordAfter, if_neg hco, hown]
        rfl
    | _ =>
      dsimp only
      rw [hg]
      dsimp only
      rw [hown, if_neg (not_not.mpr rfl)]
      exact hs rfl

theorem acked_get (h : OwnId receipts window) (closeSeq id : ℕ) :
    (receipts.acceptHostCloseReply window closeSeq).records.get? id =
      if window.id = id then some (recordAcked window closeSeq (receipts.records.get? window.id))
      else receipts.records.get? id := by
  rw [WindowCloseReceipts.acceptHostCloseReply]
  cases hg : receipts.records.get? window.id with
  | none => exact InsertMap.get?_set _ _ _ _
  | some previous =>
    dsimp only
    rw [h previous hg, if_neg (not_not.mpr rfl), InsertMap.get?_set, recordAcked, h previous hg]

theorem recordAfter_ref {record after : CloseRecord}
    (h : recordAfter (some record) fact = some after) (href : record.ref = fact.window) :
    after.ref = fact.window := by
  cases fact with
  | created window state pendingClose =>
    cases h
    rfl
  | destroyed window => cases h
  | closeRequested window closeSeq =>
    rw [recordAfter] at h
    split_ifs at h
    · cases h
      exact href
    · cases h
      exact href
  | _ =>
    cases h
    exact href

theorem mem_pending_iff {closeSeq : ℕ} (h : ∀ id record,
    receipts.records.get? id = some record → record.ref.id = id) :
    { window, closeSeq } ∈ receipts.pending ↔
      ∃ record, receipts.recordOf window = some record ∧ record.pending = some closeSeq := by
  rw [WindowCloseReceipts.pending, mem_filterMap]
  constructor
  · rintro ⟨record, hm, he⟩
    obtain ⟨id, hg⟩ := InsertMap.mem_values_iff.mp hm
    obtain ⟨closeSeq, hp, he⟩ := Option.map_eq_some_iff.mp he
    cases he
    obtain rfl := h id record hg
    exact ⟨record, recordOf_eq_some.mpr ⟨hg, rfl⟩, hp⟩
  · rintro ⟨record, hr, hp⟩
    obtain ⟨hg, rfl⟩ := recordOf_eq_some.mp hr
    exact ⟨record, InsertMap.mem_values_iff.mpr ⟨_, hg⟩,
      Option.map_eq_some_iff.mpr ⟨closeSeq, hp, rfl⟩⟩

/-- The ids are those of the records, and the windows are known ones. -/
def RefsKnown (receipts : WindowCloseReceipts) (history : List WindowEvent) : Prop :=
  ∀ id record, receipts.records.get? id = some record →
    record.ref.id = id ∧ Known history record.ref

variable {history : List WindowEvent}

section

variable (h : RefsKnown receipts history) (hhistory : WellFormed history)
include h hhistory

theorem RefsKnown.own (hk : Known history window) : OwnId receipts window := by
  intro record hg
  obtain ⟨hid, hr⟩ := h window.id record hg
  exact hhistory.unique hr hk hid

/-- One window's record is changed, to one of its own. -/
theorem RefsKnown.update (hk : Known history window) {changed : Option CloseRecord}
    (hch : ∀ record, changed = some record → record.ref = window)
    (hg : ∀ id, next.records.get? id = if window.id = id then changed else receipts.records.get? id)
    :
    RefsKnown next history ∧ ∀ other,
      next.recordOf other = if other = window then changed else receipts.recordOf other := by
  have hn : OwnId next window := by
    intro record he
    rw [hg, if_pos rfl] at he
    exact hch record he
  refine ⟨fun id record he => ?_, fun other => ?_⟩
  · rw [hg] at he
    split_ifs at he with hid
    · exact hch record he ▸ ⟨hid, hk⟩
    · exact h id record he
  · split_ifs with ho
    · rw [ho, recordOf_own hn, hg, if_pos rfl]
    · refine recordOf_ne (h.own hhistory hk) hn ho fun id hid => ?_
      rw [hg, if_neg (Ne.symm hid)]

/-- A dispatched fact, by window. -/
theorem RefsKnown.observe (hk : Known history fact.window) :
    RefsKnown (receipts.observe fact) history ∧ ∀ other,
      (receipts.observe fact).recordOf other =
        if other = fact.window then recordAfter (receipts.recordOf fact.window) fact
        else receipts.recordOf other := by
  have hown := h.own hhistory hk
  rw [recordOf_own hown]
  refine h.update hhistory hk (fun record he => ?_) (observe_get hown)
  cases hg : receipts.records.get? fact.window.id with
  | none =>
    rw [hg] at he
    cases fact with
    | created window state pendingClose =>
      cases he
      rfl
    | _ => cases he
  | some earlier => exact recordAfter_ref (hg ▸ he) (hown earlier hg)

/-- An acknowledgement that the source took, by window. -/
theorem RefsKnown.acked (hk : Known history window) (closeSeq : ℕ) :
    RefsKnown (receipts.acceptHostCloseReply window closeSeq) history ∧ ∀ other,
      (receipts.acceptHostCloseReply window closeSeq).recordOf other =
        if other = window then some (recordAcked window closeSeq (receipts.recordOf window))
        else receipts.recordOf other := by
  have hown := h.own hhistory hk
  rw [recordOf_own hown]
  refine h.update hhistory hk (fun record he => ?_) (acked_get hown closeSeq)
  cases he
  cases hg : receipts.records.get? window.id with
  | none => rfl
  | some previous => exact hown previous hg

end

end Records

/-! ## The link -/

structure LinkInvariant (capacity : ℕ) (link : FactLink) : Prop where
  source : Mirrors link.source (applied link.log)
  /-- A fact that found no slot was the last one. -/
  queue : ∃ lost, applied link.log = dispatched link.log ++ link.queue.contents ++ lost ∧
    lost.length ≤ 1 ∧ (lost ≠ [] → link.stopped = true)
  capacity : link.queue.capacity = capacity
  live : link.stopped = false → link.source.failure = none
  refs : RefsKnown link.receipts (applied link.log)
  keeps : ∀ window, Keeps link.log window (link.receipts.recordOf window)

theorem linkInvariant_new (capacity : ℕ) : LinkInvariant capacity (.new capacity) where
  source := mirrors_new
  queue := ⟨[], rfl, Nat.zero_le _, fun h => (h rfl).elim⟩
  capacity := length_replicate
  live := fun _ => rfl
  refs := nofun
  keeps := fun _ => .unseen (fun _ ⟨_, _, hm⟩ => nomatch hm) nofun

theorem RefsKnown.mono {receipts : WindowCloseReceipts} {history : List WindowEvent}
    (h : RefsKnown receipts history) (more : List WindowEvent) :
    RefsKnown receipts (history ++ more) :=
  fun id record hg => ⟨(h id record hg).1, (h id record hg).2.mono⟩

section Step

variable {capacity : ℕ} {link : FactLink}

section

variable (h : LinkInvariant capacity link)
include h

theorem LinkInvariant.prefix : dispatched link.log ++ link.queue.contents <+: applied link.log := by
  obtain ⟨lost, he, -⟩ := h.queue
  exact ⟨lost, he.symm⟩

theorem LinkInvariant.refused (fact : Option WindowEvent) (failure : Option KipcError) :
    LinkInvariant capacity { link with
      source := { link.source with failure }
      stopped := true
      log := link.log ++ [.refused fact] } := by
  have happ : applied (link.log ++ [.refused fact]) = applied link.log :=
    (applied_append ..).trans (append_nil _)
  have hdi : dispatched (link.log ++ [.refused fact]) = dispatched link.log :=
    (dispatched_append ..).trans (append_nil _)
  obtain ⟨lost, he, hl, -⟩ := h.queue
  exact {
    source := happ ▸ h.source.failed failure
    queue := ⟨lost, by rw [happ, hdi, he], hl, fun _ => rfl⟩
    capacity := h.capacity
    live := nofun
    refs := happ ▸ h.refs
    keeps := fun window => (h.keeps window).other nofun nofun }

/-- A fact is applied, and goes to a slot if there is one. -/
theorem LinkInvariant.applied (hru : link.stopped = false)
    {fact : WindowEvent} {next : WindowSource} (hnext : Mirrors next (applied link.log ++ [fact]))
    (hl : next.failure = none) {queue : Ring WindowEvent} {stopped : Bool}
    (hqu : (queue = link.queue ∧ stopped = true) ∨
      (link.queue.push fact = some queue ∧ stopped = false)) :
    LinkInvariant capacity { link with
      source := next
      queue
      stopped
      log := link.log ++ [.applied fact] } := by
  have happ : Window.applied (link.log ++ [.applied fact]) =
      Window.applied link.log ++ [fact] := applied_append ..
  have hdi : dispatched (link.log ++ [.applied fact]) = dispatched link.log :=
    (dispatched_append ..).trans (append_nil _)
  obtain ⟨lost, he, -, hlo⟩ := h.queue
  have hn : lost = [] := by
    by_contra hne
    exact Bool.false_ne_true (hru.symm.trans (hlo hne))
  rw [hn, append_nil] at he
  refine {
    source := happ ▸ hnext
    queue := ?_
    capacity := ?_
    live := fun _ => hl
    refs := happ ▸ h.refs.mono _
    keeps := fun window => (h.keeps window).other nofun nofun }
  · rw [happ, hdi, he]
    rcases hqu with ⟨rfl, hst⟩ | ⟨hpu, -⟩
    · exact ⟨[fact], rfl, Nat.le_refl 1, fun _ => hst⟩
    · refine ⟨[], ?_, Nat.zero_le _, fun hne => (hne rfl).elim⟩
      rw [(Ring.contents_push hpu).1, append_nil, append_assoc]
  · rcases hqu with ⟨rfl, -⟩ | ⟨hpu, -⟩
    · exact h.capacity
    · exact (Ring.contents_push hpu).2.trans h.capacity

theorem LinkInvariant.record (fact : Option WindowEvent) :
    LinkInvariant capacity (link.record fact) := by
  rw [record.eq_def]
  cases hst : link.stopped with
  | true => exact h
  | false =>
    have hl := h.live hst
    obtain ⟨error, hre, -⟩ := reject_error link.source
    rw [if_neg nofun]
    cases fact with
    | none =>
      rw [hre]
      exact h.refused none (some error)
    | some fact =>
      by_cases hext : Extends (Window.applied link.log) fact
      · obtain ⟨next, hap, hn, hmi⟩ := h.source.apply_of_extends hl hext
        dsimp only
        rw [hap]
        cases hpu : link.queue.push fact with
        | none => exact h.applied hst hmi hn (.inl ⟨rfl, rfl⟩)
        | some queue =>
          exact h.applied hst hmi hn (.inr ⟨hpu, rfl⟩)
      · dsimp only
        rw [h.source.apply_of_not_extends hl hext, hre]
        exact h.refused (some fact) (some error)

/-- The oldest fact of the queue is dispatched. -/
theorem LinkInvariant.dispatch : LinkInvariant capacity link.dispatch := by
  rw [dispatch.eq_def]
  cases hpop : link.queue.pop with
  | none => exact h
  | some popped =>
    obtain ⟨fact, queue⟩ := popped
    obtain ⟨hco, hca⟩ := Ring.contents_pop hpop
    have happ : Window.applied (link.log ++ [.dispatched fact]) = Window.applied link.log :=
      (applied_append ..).trans (append_nil _)
    have hdi : dispatched (link.log ++ [.dispatched fact]) =
        dispatched link.log ++ [fact] := dispatched_append ..
    obtain ⟨lost, he, hl, hlo⟩ := h.queue
    rw [hco, append_assoc, cons_append] at he
    have hext : Extends (dispatched link.log) fact := h.source.wellFormed _ _ _ he
    have hk : Known (Window.applied link.log) fact.window :=
      h.source.wellFormed.known (he ▸ mem_append_right _ mem_cons_self)
    obtain ⟨hre, hr⟩ := h.refs.observe h.source.wellFormed hk
    refine {
      source := happ ▸ h.source
      queue := ⟨lost, ?_, hl, hlo⟩
      capacity := hca.trans h.capacity
      live := h.live
      refs := happ ▸ hre
      keeps := fun window => ?_ }
    · rw [happ, hdi, he, append_assoc, append_assoc]
      rfl
    · rw [hr window]
      split_ifs with hw
      · exact hw ▸ (h.keeps fact.window).dispatched hext rfl
      · refine (h.keeps window).other (fun other hs => ?_) nofun
        cases hs
        exact Ne.symm hw

theorem LinkInvariant.returned : LinkInvariant capacity link.returned := by
  rw [returned.eq_def]
  cases link.running with
  | nil => exact h
  | cons fact running =>
    exact { h with
      source := h.source.retire fact
      live := fun hst => (retire_failure fact).trans (h.live hst) }

/-- The receipts hear of an acknowledgement that the source took. -/
theorem LinkInvariant.replyApplied (window : WindowRef)
    (closeSeq : ℕ) : LinkInvariant capacity (link.replyApplied window closeSeq) := by
  rw [replyApplied.eq_def]
  have happ (taken : Bool) : Window.applied (link.log ++ [.acked window closeSeq taken]) =
      Window.applied link.log := (applied_append ..).trans (append_nil _)
  have hdi (taken : Bool) : dispatched (link.log ++ [.acked window closeSeq taken]) =
      dispatched link.log := (dispatched_append ..).trans (append_nil _)
  have hsrc := h.source.acceptHostCloseReply window closeSeq
  have hl (hst : link.stopped = false) := (accept_failure window closeSeq).trans (h.live hst)
  dsimp only
  cases hta : (link.source.acceptHostCloseReply window closeSeq).1 with
  | false =>
    exact {
      source := (happ false).symm ▸ hsrc
      queue := (happ false).symm ▸ (hdi false).symm ▸ h.queue
      capacity := h.capacity
      live := hl
      refs := (happ false).symm ▸ h.refs
      keeps := fun window => (h.keeps window).other nofun nofun }
  | true =>
    obtain ⟨-, hk, ht⟩ := h.source.target_isSome.mp ((accept_fst ..).symm.trans hta)
    obtain ⟨hre, hr⟩ := h.refs.acked h.source.wellFormed hk closeSeq
    refine {
      source := (happ true).symm ▸ hsrc
      queue := (happ true).symm ▸ (hdi true).symm ▸ h.queue
      capacity := h.capacity
      live := hl
      refs := (happ true).symm ▸ hre
      keeps := fun other => ?_ }
    rw [if_pos rfl, hr other]
    split_ifs with ho
    · rw [ho]
      refine (h.keeps window).acked (fun hm => ht ?_) closeSeq
      exact h.prefix.subset (mem_append_left _ (mem_dispatched.mpr hm))
    · refine (h.keeps other).other nofun fun acked he => ho ?_
      cases he
      rfl

theorem LinkInvariant.step (input : FactInput) : LinkInvariant capacity (link.step input) := by
  cases input with
  | record fact => exact h.record fact
  | dispatch => exact h.dispatch
  | returned => exact h.returned
  | replyApplied window closeSeq => exact h.replyApplied window closeSeq

end

end Step

theorem linkInvariant_run (capacity : ℕ) (inputs : List FactInput) :
    LinkInvariant capacity (.run capacity inputs) := by
  induction inputs using reverseRecOn with
  | nil => exact linkInvariant_new capacity
  | append_singleton inputs input ih =>
    rw [run, foldl_append]
    exact ih.step input

/-! ## A source that failed -/

variable {error : KipcError}

theorem step_failed {link : FactLink} (h : link.source.failure = some error) (input : FactInput) :
    (link.step input).source.failure = some error ∧
      applied (link.step input).log = applied link.log := by
  have hs (event : FactEvent) (hev : applied [event] = []) :
      applied (link.log ++ [event]) = applied link.log := by
    rw [applied_append, hev, append_nil]
  cases input with
  | record fact =>
    rw [step, record.eq_def]
    cases link.stopped with
    | true => exact ⟨h, rfl⟩
    | false =>
      rw [if_neg nofun]
      cases fact with
      | none =>
        obtain ⟨first, hre, hf⟩ := reject_error link.source
        rw [hre, hf error h]
        exact ⟨rfl, hs _ rfl⟩
      | some fact =>
        dsimp only
        rw [apply_failed h]
        exact ⟨h, hs _ rfl⟩
  | dispatch =>
    rw [step, dispatch]
    cases link.queue.pop with
    | none => exact ⟨h, rfl⟩
    | some popped => exact ⟨h, hs _ rfl⟩
  | returned =>
    rw [step, returned]
    cases link.running with
    | nil => exact ⟨h, rfl⟩
    | cons fact running => exact ⟨(retire_failure fact).trans h, rfl⟩
  | replyApplied window closeSeq => exact ⟨(accept_failure window closeSeq).trans h, hs _ rfl⟩

/-- After a refusal no fact is applied, and the first one is the one that is told. -/
theorem run_failed {capacity : ℕ} {inputs : List FactInput}
    (h : (run capacity inputs).source.failure = some error) (more : List FactInput) :
    (run capacity (inputs ++ more)).source.failure = some error ∧
      applied (run capacity (inputs ++ more)).log = applied (run capacity inputs).log := by
  induction more using reverseRecOn with
  | nil =>
    rw [append_nil]
    exact ⟨h, rfl⟩
  | append_singleton more input ih =>
    have hs : run capacity (inputs ++ (more ++ [input])) =
        (run capacity (inputs ++ more)).step input := by
      rw [← append_assoc]
      exact foldl_append
    obtain ⟨hflr, happ⟩ := step_failed ih.1 input
    rw [hs]
    exact ⟨hflr, happ.trans ih.2⟩

/-! ## The two views -/

theorem LinkInvariant.mem_pending_iff {capacity : ℕ} {link : FactLink}
    (h : LinkInvariant capacity link) (window : WindowRef) (closeSeq : ℕ) :
    { window, closeSeq } ∈ link.receipts.pending ↔ Listed link.log window closeSeq := by
  rw [Window.mem_pending_iff fun id record hge => (h.refs id record hge).1]
  cases hr : link.receipts.recordOf window with
  | none =>
    refine iff_of_false nofun fun hli => ?_
    cases hr ▸ h.keeps window with
    | gone hg => exact hli.there hg
    | unseen _ hn =>
      obtain ⟨fact, hm, hw, -⟩ := hli.latest.dispatched
      exact hn fact (mem_dispatched.mpr hm) hw
  | some record =>
    cases hr ▸ h.keeps window with
    | kept _ _ _ hp =>
      rw [← hp closeSeq]
      exact ⟨fun ⟨_, he, hcl⟩ => Option.some.inj he ▸ hcl, fun hcl => ⟨_, rfl, hcl⟩⟩

/-- What the mirror accepts, queues and clears, and what the receipts list, at
any moment of any run. -/
theorem mirror_and_receipts_over_runs (capacity : ℕ) (inputs : List FactInput) :
    let link := run capacity inputs
    -- a fact is accepted exactly where it extends the accepted history
    WellFormed (applied link.log) ∧
    (∀ fact, (∃ next, link.source.apply fact = (.ok (), next)) ↔
      link.source.failure = none ∧ Extends (applied link.log) fact) ∧
    -- a refusal leaves the windows, and the first one stays
    (∀ fact error next, link.source.apply fact = (.error error, next) →
      next = { link.source with failure := some error } ∧
        ∀ first, link.source.failure = some first → error = first) ∧
    (∀ error, link.source.failure = some error → ∀ more,
      (run capacity (inputs ++ more)).source.failure = some error ∧
        applied (run capacity (inputs ++ more)).log = applied link.log) ∧
    -- the queue is within its slots, and dispatches the applied facts in order
    link.queue.contents.length ≤ capacity ∧
    (∃ lost, applied link.log = dispatched link.log ++ link.queue.contents ++ lost ∧
      lost.length ≤ 1 ∧ (lost ≠ [] → link.stopped = true)) ∧
    -- an acknowledgement is taken for a live window, and clears exactly its own close
    (∀ window closeSeq, (link.source.acceptHostCloseReply window closeSeq).1 = true ↔
      link.source.failure = none ∧ Known (applied link.log) window ∧
        .destroyed window ∉ applied link.log) ∧
    (∀ window closeSeq id,
      (link.source.acceptHostCloseReply window closeSeq).2.windows.get? id =
        (link.source.windows.get? id).map (Option.map fun snapshot =>
          if Settles link.source window closeSeq snapshot then
            { snapshot with pendingClose := none }
          else snapshot)) ∧
    -- the receipts list the latest close of a window, while it is not covered
    (∀ window closeSeq,
      { window, closeSeq } ∈ link.receipts.pending ↔ Listed link.log window closeSeq) ∧
    (∀ window, Increasing link.log window → ∀ closeSeq,
      { window, closeSeq } ∈ link.receipts.pending ↔
        .dispatched (.destroyed window) ∉ link.log ∧ ¬ Covered link.log window closeSeq ∧
          (link.log.filterMap (FactEvent.closeOf window)).getLast? = some closeSeq) := by
  intro link
  have h : LinkInvariant capacity link := linkInvariant_run capacity inputs
  refine ⟨h.source.wellFormed, fun fact => ?_, fun fact error next hn => ?_, ?_, ?_, h.queue,
    ?_, ?_, ?_, ?_⟩
  · rcases h.source.apply_cases fact with ⟨hl, hext, hok⟩ | ⟨hnot, error, hap, -⟩
    · exact iff_of_true hok ⟨hl, hext⟩
    · refine iff_of_false (fun ⟨next, hok⟩ => ?_) hnot
      cases hap.symm.trans hok
  · rcases h.source.apply_cases fact with ⟨-, -, _, hap⟩ | ⟨-, _, hap, hf⟩
    · cases hap.symm.trans hn
    · cases hap.symm.trans hn
      exact ⟨rfl, hf⟩
  · exact fun error hflr more => run_failed hflr more
  · exact h.capacity ▸ link.queue.contents_le
  · intro window closeSeq
    rw [accept_fst]
    exact h.source.target_isSome
  · exact h.source.acceptHostCloseReply_get
  · exact h.mem_pending_iff
  · exact fun window hin closeSeq =>
      (h.mem_pending_iff window closeSeq).trans (listed_iff_last hin)

/-- An acknowledgement that comes when `Destroyed` is applied and not dispatched
is not taken, and the close stays listed. -/
theorem ack_of_destroyed_is_not_taken :
    ¬ ∀ capacity inputs window closeSeq,
      { window, closeSeq } ∈ (run capacity inputs).receipts.pending ↔
        ((run capacity inputs).log.filterMap
            (FactEvent.closeOf window)).getLast? = some closeSeq ∧
          (∀ acked taken, .acked window acked taken ∈ (run capacity inputs).log →
            acked < closeSeq) ∧
          .dispatched (.destroyed window) ∉ (run capacity inputs).log := by
  intro hcl
  let window : WindowRef := ⟨1, 1⟩
  let created : WindowEvent := .created window ⟨⟨0, 0, 100, 100⟩, false, false, false⟩ (some 1)
  let inputs : List FactInput :=
    [.record (some created), .dispatch, .record (some (.destroyed window)),
      .replyApplied window 1]
  have hli : { window, closeSeq := 1 } ∈ (run 4 inputs).receipts.pending := by decide
  have hac : .acked window 1 false ∈ (run 4 inputs).log := by decide
  exact absurd (((hcl 4 inputs window 1).mp hli).2.1 1 false hac) (Nat.lt_irrefl 1)

end Keld.Window
