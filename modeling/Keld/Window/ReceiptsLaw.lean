/-
# `Keld.Window.ReceiptsLaw` — what the close receipts list

The receipts hear of two things, a dispatched fact and an acknowledgement that
the source took.  `Listed` is the close of a window that they list, in terms of
the log: the latest one that no acknowledgement before its dispatch covered, if
none has covered it since and the window's `Destroyed` was not dispatched.

`Keeps` ties the record of one window to the log.  A record outlives neither its
window nor an acknowledgement, and an acknowledgement that comes before its
`Created` is dispatched starts one with nothing pending.
-/
import Keld.Window.SourceLaw

namespace Keld.Window

open List

/-! ## The log -/

def applied (log : List FactEvent) : List WindowEvent :=
  log.filterMap fun
    | .applied fact => some fact
    | _ => none

def dispatched (log : List FactEvent) : List WindowEvent :=
  log.filterMap fun
    | .dispatched fact => some fact
    | _ => none

theorem mem_dispatched {log : List FactEvent} {fact : WindowEvent} :
    fact ∈ dispatched log ↔ .dispatched fact ∈ log := by
  rw [dispatched, mem_filterMap]
  constructor
  · rintro ⟨event, hm, he⟩
    cases event with
    | dispatched other => exact Option.some.inj he ▸ hm
    | _ => cases he
  · exact fun hm => ⟨_, hm, rfl⟩

@[simp] theorem applied_append (log more : List FactEvent) :
    applied (log ++ more) = applied log ++ applied more := filterMap_append

@[simp] theorem dispatched_append (log more : List FactEvent) :
    dispatched (log ++ more) = dispatched log ++ dispatched more := filterMap_append

/-- The close that a fact brings. -/
def WindowEvent.close? : WindowEvent → Option ℕ
  | .created _ _ pendingClose => pendingClose
  | .closeRequested _ closeSeq => some closeSeq
  | _ => none

/-- The close of the window that the event dispatches. -/
def FactEvent.closeOf (window : WindowRef) : FactEvent → Option ℕ
  | .dispatched fact => if fact.window = window then fact.close? else none
  | _ => none

/-- An acknowledgement that was taken has reached the close. -/
def Covered (log : List FactEvent) (window : WindowRef) (closeSeq : ℕ) : Prop :=
  ∃ acked, closeSeq ≤ acked ∧ .acked window acked true ∈ log

/-- The last close dispatched, but for those that were covered when they were. -/
def Latest (log : List FactEvent) (window : WindowRef) (closeSeq : ℕ) : Prop :=
  ∃ before event after, log = before ++ event :: after ∧ event.closeOf window = some closeSeq ∧
    Always (fun mid later => ∀ other, later.closeOf window = some other →
      Covered (before ++ event :: mid) window other) after

structure Listed (log : List FactEvent) (window : WindowRef) (closeSeq : ℕ) : Prop where
  there : .dispatched (.destroyed window) ∉ log
  uncovered : ¬ Covered log window closeSeq
  latest : Latest log window closeSeq

section Listed

variable {log : List FactEvent} {event : FactEvent} {window : WindowRef} {closeSeq : ℕ}

theorem covered_snoc : Covered (log ++ [event]) window closeSeq ↔
    Covered log window closeSeq ∨ ∃ acked, closeSeq ≤ acked ∧ event = .acked window acked true := by
  constructor
  · rintro ⟨acked, hle, hm⟩
    rcases mem_snoc.mp hm with hm | hm
    · exact .inl ⟨acked, hle, hm⟩
    · exact .inr ⟨acked, hle, hm.symm⟩
  · rintro (⟨acked, hle, hm⟩ | ⟨acked, hle, rfl⟩)
    · exact ⟨acked, hle, mem_append_left _ hm⟩
    · exact ⟨acked, hle, mem_concat_self⟩

theorem latest_snoc : Latest (log ++ [event]) window closeSeq ↔
    event.closeOf window = some closeSeq ∨ (Latest log window closeSeq ∧
      ∀ other, event.closeOf window = some other → Covered log window other) := by
  constructor
  · rintro ⟨before, earlier, after, he, hcl, haf⟩
    rcases eq_nil_or_concat after with rfl | ⟨after, last, rfl⟩
    · obtain ⟨rfl, hl⟩ := append_inj' he rfl
      cases hl
      exact .inl hcl
    · rw [concat_eq_append] at he haf
      have hcut : log ++ [event] = (before ++ earlier :: after) ++ [last] := by
        rw [he, append_assoc]
        rfl
      obtain ⟨rfl, hl⟩ := append_inj' hcut rfl
      cases hl
      obtain ⟨haf, hl⟩ := always_snoc.mp haf
      exact .inr ⟨⟨before, earlier, after, rfl, hcl, haf⟩, hl⟩
  · rintro (hcl | ⟨⟨before, earlier, after, rfl, hcl, haf⟩, hl⟩)
    · exact ⟨log, event, [], rfl, hcl, always_nil _⟩
    · refine ⟨before, earlier, after ++ [event], ?_, hcl, always_snoc.mpr ⟨haf, hl⟩⟩
      rw [append_assoc]
      rfl

theorem Latest.dispatched (h : Latest log window closeSeq) :
    ∃ fact, .dispatched fact ∈ log ∧ fact.window = window ∧ fact.close? = some closeSeq := by
  obtain ⟨before, event, after, rfl, hcl, -⟩ := h
  cases event with
  | dispatched fact =>
    rw [FactEvent.closeOf] at hcl
    split_ifs at hcl with hw
    exact ⟨fact, mem_append_right _ mem_cons_self, hw, hcl⟩
  | _ => cases hcl

/-- What one more event does to what is listed. -/
theorem listed_snoc : Listed (log ++ [event]) window closeSeq ↔
    event ≠ .dispatched (.destroyed window) ∧ .dispatched (.destroyed window) ∉ log ∧
      ¬ Covered (log ++ [event]) window closeSeq ∧
      (event.closeOf window = some closeSeq ∨ (Latest log window closeSeq ∧
        ∀ other, event.closeOf window = some other → Covered log window other)) := by
  have ht : .dispatched (.destroyed window) ∉ log ++ [event] ↔
      event ≠ .dispatched (.destroyed window) ∧ .dispatched (.destroyed window) ∉ log := by
    rw [mem_append, mem_singleton, not_or, and_comm, ne_comm]
  constructor
  · rintro ⟨hnot, hun, hla⟩
    exact ⟨(ht.mp hnot).1, (ht.mp hnot).2, hun, latest_snoc.mp hla⟩
  · rintro ⟨hev, hnot, hun, hla⟩
    exact ⟨ht.mpr ⟨hev, hnot⟩, hun, latest_snoc.mpr hla⟩

/-- The window's closes were dispatched in increasing order. -/
def Increasing (log : List FactEvent) (window : WindowRef) : Prop :=
  (log.filterMap (FactEvent.closeOf window)).Pairwise (· < ·)

/-- In that order, it is the last close dispatched. -/
theorem listed_iff_last (hin : Increasing log window) : Listed log window closeSeq ↔
    .dispatched (.destroyed window) ∉ log ∧ ¬ Covered log window closeSeq ∧
      (log.filterMap (FactEvent.closeOf window)).getLast? = some closeSeq := by
  constructor
  · rintro ⟨ht, hun, before, event, after, rfl, hcl, haf⟩
    refine ⟨ht, hun, ?_⟩
    rw [Increasing, filterMap_append, filterMap_cons_some hcl] at hin
    have hab := (pairwise_cons.mp (pairwise_append.mp hin).2.1).1
    -- a later close was covered when it was dispatched, and so this one is too
    have hn : after.filterMap (FactEvent.closeOf window) = [] := by
      refine eq_nil_iff_forall_not_mem.mpr fun other hm => hun ?_
      obtain ⟨later, hl, he⟩ := mem_filterMap.mp hm
      obtain ⟨mid, rest, rfl, hcov⟩ := haf.of_mem hl
      obtain ⟨acked, hle, hac⟩ := hcov other he
      refine ⟨acked, Nat.le_trans (Nat.le_of_lt (hab other hm)) hle, ?_⟩
      rw [← cons_append, ← append_assoc]
      exact mem_append_left _ hac
    rw [filterMap_append, filterMap_cons_some hcl, hn, getLast?_concat]
  · rintro ⟨ht, hun, hla⟩
    obtain ⟨closes, he⟩ := getLast?_eq_some_iff.mp hla
    obtain ⟨front, back, rfl, -, hba⟩ := filterMap_eq_append_iff.mp he
    obtain ⟨before, event, after, rfl, -, hcl, haf⟩ := filterMap_eq_cons_iff.mp hba
    refine ⟨ht, hun, front ++ before, event, after, (append_assoc ..).symm, hcl, ?_⟩
    rintro mid later rest rfl other ho
    have hn := filterMap_eq_nil_iff.mp haf later (mem_append_right _ mem_cons_self)
    cases hn.symm.trans ho

end Listed

/-! ## One window's record -/

/-- What a dispatched fact does to the record of its window. -/
def recordAfter : Option CloseRecord → WindowEvent → Option CloseRecord
  | earlier, .created window _ pendingClose =>
    let ackedThrough := earlier.bind CloseRecord.ackedThrough
    let pending := pendingClose.filter fun closeSeq => !CloseRecord.covers ackedThrough closeSeq
    some { ref := window, pending, ackedThrough }
  | none, _ => none
  | some _, .destroyed _ => none
  | some earlier, .closeRequested _ closeSeq =>
    if CloseRecord.covers earlier.ackedThrough closeSeq then some earlier
    else some { earlier with pending := some closeSeq }
  | some earlier, _ => some earlier

/-- And an acknowledgement. -/
def recordAcked (window : WindowRef) (closeSeq : ℕ) : Option CloseRecord → CloseRecord
  | none => { ref := window, pending := none, ackedThrough := some closeSeq }
  | some previous =>
    let through := max closeSeq (previous.ackedThrough.getD closeSeq)
    { previous with
      ackedThrough := some through
      pending := previous.pending.filter (through < ·) }

/-- The watermark stands for the acknowledgements. -/
def Watermark (log : List FactEvent) (window : WindowRef) (ackedThrough : Option ℕ) : Prop :=
  ∀ closeSeq, CloseRecord.covers ackedThrough closeSeq = true ↔ Covered log window closeSeq

inductive Keeps (log : List FactEvent) (window : WindowRef) : Option CloseRecord → Prop
  | gone (h : .dispatched (.destroyed window) ∈ log) : Keeps log window none
  | unseen (hacked : ∀ closeSeq, ¬ Covered log window closeSeq)
      (hnew : ∀ fact ∈ dispatched log, fact.window ≠ window) : Keeps log window none
  | kept {record : CloseRecord} (href : record.ref = window)
      (hthere : .dispatched (.destroyed window) ∉ log)
      (hacked : Watermark log window record.ackedThrough)
      (hpending : ∀ closeSeq, record.pending = some closeSeq ↔ Listed log window closeSeq) :
      Keeps log window (some record)

section Keeps

variable {log : List FactEvent} {event : FactEvent} {window : WindowRef}
  {record : Option CloseRecord}

/-- An event that the window's record does not hear of. -/
theorem Keeps.other (h : Keeps log window record)
    (hdis : ∀ fact, event = .dispatched fact → fact.window ≠ window)
    (hac : ∀ closeSeq, event ≠ .acked window closeSeq true) :
    Keeps (log ++ [event]) window record := by
  have hcov (closeSeq : ℕ) :
      Covered (log ++ [event]) window closeSeq ↔ Covered log window closeSeq := by
    rw [covered_snoc]
    exact or_iff_left fun ⟨acked, _, he⟩ => hac acked he
  have hcl : event.closeOf window = none := by
    cases event with
    | dispatched fact => exact if_neg (hdis fact rfl)
    | _ => rfl
  have hde : event ≠ .dispatched (.destroyed window) := fun he => hdis _ he rfl
  cases h with
  | gone h => exact .gone (mem_append_left _ h)
  | unseen hn hne =>
    refine .unseen (fun closeSeq => (hcov closeSeq).not.mpr (hn closeSeq)) ?_
    intro fact hm
    rcases mem_snoc.mp (mem_dispatched.mp hm) with hm | hm
    · exact hne fact (mem_dispatched.mpr hm)
    · exact hdis fact hm.symm
  | kept href ht hma hp =>
    refine .kept href ?_ (fun closeSeq => (hma closeSeq).trans (hcov closeSeq).symm) ?_
    · intro hm
      rcases mem_snoc.mp hm with hm | hm
      · exact ht hm
      · exact hde hm.symm
    · intro closeSeq
      rw [hp closeSeq, listed_snoc, hcov, hcl]
      constructor
      · exact fun h => ⟨hde, h.there, h.uncovered, .inr ⟨h.latest, nofun⟩⟩
      · rintro ⟨-, hnot, hun, hla⟩
        exact ⟨hnot, hun, (hla.resolve_left nofun).1⟩

/-- An acknowledgement that the source took. -/
theorem Keeps.acked (h : Keeps log window record) (ht : .dispatched (.destroyed window) ∉ log)
    (closeSeq : ℕ) :
    Keeps (log ++ [.acked window closeSeq true]) window
      (some (recordAcked window closeSeq record)) := by
  have hcov (other : ℕ) : Covered (log ++ [.acked window closeSeq true]) window other ↔
      Covered log window other ∨ other ≤ closeSeq := by
    rw [covered_snoc]
    refine or_congr_right ⟨?_, fun hle => ⟨closeSeq, hle, rfl⟩⟩
    rintro ⟨acked, hle, he⟩
    cases he
    exact hle
  have hnot : .dispatched (.destroyed window) ∉ log ++ [.acked window closeSeq true] := by
    intro hm
    exact ht (mem_of_snoc hm nofun)
  have hli (other : ℕ) : Listed (log ++ [.acked window closeSeq true]) window other ↔
      Listed log window other ∧ closeSeq < other := by
    rw [listed_snoc, hcov, not_or, Nat.not_le]
    constructor
    · rintro ⟨-, hin, ⟨hun, hlt⟩, hla⟩
      exact ⟨⟨hin, hun, (hla.resolve_left nofun).1⟩, hlt⟩
    · rintro ⟨h, hlt⟩
      exact ⟨nofun, h.there, ⟨h.uncovered, hlt⟩, .inr ⟨h.latest, nofun⟩⟩
  cases h with
  | gone h => exact (ht h).elim
  | unseen hn hne =>
    refine .kept rfl hnot (fun other => ?_) fun other => ?_
    · rw [hcov, or_iff_right (hn other)]
      exact decide_eq_true_iff
    · rw [hli]
      refine iff_of_false nofun fun h => ?_
      obtain ⟨fact, hm, hw, -⟩ := h.1.latest.dispatched
      exact hne fact (mem_dispatched.mpr hm) hw
  | @kept previous href hin hma hp =>
    have hth (other : ℕ) : other ≤ max closeSeq (previous.ackedThrough.getD closeSeq) ↔
        Covered log window other ∨ other ≤ closeSeq := by
      rw [← hma other, le_max_iff]
      cases previous.ackedThrough with
      | none => exact ⟨fun h => .inr (h.elim id id), fun h => .inl (h.resolve_left nofun)⟩
      | some acked =>
        rw [Or.comm]
        exact or_congr_left decide_eq_true_iff.symm
    refine .kept href hnot (fun other => ?_) fun other => ?_
    · rw [hcov, ← hth]
      exact decide_eq_true_iff
    · rw [hli, ← hp other]
      refine Option.filter_eq_some_iff.trans (and_congr_right fun hs => ?_)
      rw [decide_eq_true_iff, ← Nat.not_le, hth, not_or, Nat.not_le]
      exact and_iff_right ((hp other).mp hs).uncovered

variable {fact : WindowEvent}

theorem covered_dispatched (closeSeq : ℕ) :
    Covered (log ++ [.dispatched fact]) window closeSeq ↔ Covered log window closeSeq := by
  rw [covered_snoc]
  exact or_iff_left nofun

/-- The record that a dispatched fact of a live window leaves. -/
theorem keeps_after (hw : fact.window = window) (hf : fact ≠ .destroyed window)
    (ht : .dispatched (.destroyed window) ∉ log) {after : CloseRecord}
    (href : after.ref = window) (hma : Watermark log window after.ackedThrough)
    (hp : ∀ closeSeq, after.pending = some closeSeq ↔ ¬ Covered log window closeSeq ∧
      (fact.close? = some closeSeq ∨ (Latest log window closeSeq ∧
      ∀ other, fact.close? = some other → Covered log window other))) :
    Keeps (log ++ [.dispatched fact]) window (some after) := by
  have hcl : FactEvent.closeOf window (.dispatched fact) = fact.close? := if_pos hw
  refine .kept href ?_ (fun closeSeq => (hma closeSeq).trans (covered_dispatched _).symm) ?_
  · intro hm
    rcases mem_snoc.mp hm with hm | hm
    · exact ht hm
    · exact hf (FactEvent.dispatched.inj hm).symm
  · intro closeSeq
    rw [hp closeSeq, listed_snoc, covered_dispatched, hcl]
    exact ⟨fun h => ⟨fun he => hf (FactEvent.dispatched.inj he), ht, h⟩, fun h => h.2.2⟩

/-- The first fact of a window, with or without an acknowledgement before it. -/
theorem keeps_created {state : WindowState} {pendingClose : Option ℕ}
    (hn : ∀ fact ∈ dispatched log, fact.window ≠ window) {ackedThrough : Option ℕ}
    (hma : Watermark log window ackedThrough) :
    Keeps (log ++ [.dispatched (.created window state pendingClose)]) window
      (some {
        ref := window
        pending := pendingClose.filter fun closeSeq => !CloseRecord.covers ackedThrough closeSeq
        ackedThrough }) := by
  have hw : (WindowEvent.created window state pendingClose).window = window := rfl
  refine keeps_after hw nofun (fun hm => ?_) rfl hma fun closeSeq => ?_
  · exact hn _ (mem_dispatched.mpr hm) rfl
  · have hla : ¬ Latest log window closeSeq := by
      intro h
      obtain ⟨fact, hm, hw, -⟩ := h.dispatched
      exact hn fact (mem_dispatched.mpr hm) hw
    rw [or_iff_left fun h => hla h.1, ← hma closeSeq, and_comm]
    refine Option.filter_eq_some_iff.trans (and_congr_right fun _ => ?_)
    rw [Bool.not_eq_true', Bool.not_eq_true]

/-- A dispatched fact of the window, in its turn. -/
theorem Keeps.dispatched (h : Keeps log window record) (hext : Extends (dispatched log) fact)
    (hw : fact.window = window) :
    Keeps (log ++ [.dispatched fact]) window (recordAfter record fact) := by
  have ht : .dispatched (.destroyed window) ∉ log := fun hm =>
    hext.not_destroyed (hw ▸ mem_dispatched.mpr hm)
  cases hf : fact.isCreated with
  | true =>
    obtain ⟨state, pendingClose, he⟩ := isCreated_iff.mp hf
    have hn (earlier : WindowEvent) (hm : earlier ∈ Window.dispatched log) :
        earlier.window ≠ window := fun hs =>
      (hext.created hf).1 earlier hm (hs ▸ hw ▸ rfl)
    rw [he, hw]
    cases h with
    | gone h => exact (ht h).elim
    | unseen hno _ =>
      exact keeps_created hn fun closeSeq => iff_of_false nofun (hno closeSeq)
    | kept _ _ hma _ => exact keeps_created hn hma
  | false =>
    cases h with
    | gone h => exact (ht h).elim
    | unseen _ hn =>
      obtain ⟨state, pendingClose, hm⟩ := (hext.known hf).1
      exact (hn _ hm hw).elim
    | @kept earlier href _ hma hp =>
      -- a fact that brings no close, or a covered one, leaves what is pending
      have hs (hcov : ∀ other, fact.close? = some other → Covered log window other)
          (closeSeq : ℕ) : earlier.pending = some closeSeq ↔ ¬ Covered log window closeSeq ∧
            (fact.close? = some closeSeq ∨ (Latest log window closeSeq ∧
              ∀ other, fact.close? = some other → Covered log window other)) := by
        rw [hp closeSeq]
        constructor
        · exact fun h => ⟨h.uncovered, .inr ⟨h.latest, hcov⟩⟩
        · rintro ⟨hun, hcl | ⟨hla, -⟩⟩
          · exact (hun (hcov closeSeq hcl)).elim
          · exact ⟨ht, hun, hla⟩
      cases fact with
      | created => cases hf
      | destroyed w =>
        obtain rfl : w = window := hw
        exact .gone mem_concat_self
      | closeRequested w other =>
        rw [recordAfter]
        split_ifs with hco
        · refine keeps_after hw nofun ht href hma (hs fun _ he => ?_)
          exact Option.some.inj he ▸ (hma other).mp hco
        · refine keeps_after hw nofun ht href hma fun closeSeq => ?_
          have hun : ¬ Covered log window other := (hma other).not.mp hco
          constructor
          · intro he
            exact ⟨Option.some.inj he ▸ hun, .inl he⟩
          · rintro ⟨-, he | ⟨-, ha⟩⟩
            · exact he
            · exact (hun (ha other rfl)).elim
      | _ => exact keeps_after hw nofun ht href hma (hs nofun)

end Keeps

end Keld.Window
