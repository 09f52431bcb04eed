/-
# `Keld.Window.SourceLaw` — what the mirror accepts, and what its receipts list

`Extends` says which fact may follow a history, and `Mirrors` what a source knows
after one: it accepts exactly the facts that extend the history it has accepted.

The receipts hear of two things, a dispatched fact and an acknowledgement that
the source took.  `Listed` is the close of a window that they list, in terms of
the log: the latest one that no acknowledgement before its dispatch covered, if
none has covered it since.
-/
import Keld.Lib.Trace
import Keld.Window.FactLink

namespace Keld.Window

open Kipc List InsertMap

/-! ## Histories -/

def WindowEvent.isCreated : WindowEvent → Bool
  | .created .. => true
  | _ => false

/-- The window's `Created` is in the history. -/
def Known (history : List WindowEvent) (window : WindowRef) : Prop :=
  ∃ state pending, .created window state pending ∈ history

/-- The fact may come after these. -/
structure Extends (history : List WindowEvent) (fact : WindowEvent) : Prop where
  pair : fact.window.id ≠ 0 ∧ fact.window.incarnation ≠ 0
  /-- A `Created` is the first of its id, and there are not too many. -/
  created : fact.isCreated = true → (∀ earlier ∈ history, earlier.window.id ≠ fact.window.id) ∧
    (history.filter WindowEvent.isCreated).length < proposedMaxCumulativeWindowIds
  /-- Every other fact is about a created window that is not destroyed. -/
  known : fact.isCreated = false → Known history fact.window ∧ .destroyed fact.window ∉ history

abbrev WellFormed (history : List WindowEvent) : Prop := Always Extends history

variable {window other : WindowRef} {fact : WindowEvent}

theorem Known.mono {history more : List WindowEvent} (h : Known history window) :
    Known (history ++ more) window := by
  obtain ⟨state, pending, hm⟩ := h
  exact ⟨state, pending, mem_append_left _ hm⟩

theorem windowRef_ext (hid : window.id = other.id)
    (hin : window.incarnation = other.incarnation) : window = other := by
  cases window
  cases other
  cases hid
  cases hin
  rfl

theorem isCreated_iff :
    fact.isCreated = true ↔ ∃ state pending, fact = .created fact.window state pending := by
  cases fact with
  | created window state pending => exact iff_of_true rfl ⟨state, pending, rfl⟩
  | _ => exact iff_of_false Bool.false_ne_true nofun

theorem Extends.known_snoc {history : List WindowEvent} (h : Extends history fact) :
    Known (history ++ [fact]) fact.window := by
  cases hcre : fact.isCreated with
  | true =>
    obtain ⟨state, pending, he⟩ := isCreated_iff.mp hcre
    exact ⟨state, pending, mem_append_right _ (mem_singleton.mpr he.symm)⟩
  | false => exact (h.known hcre).1.mono

theorem Extends.not_destroyed {history : List WindowEvent} (h : Extends history fact) :
    .destroyed fact.window ∉ history := by
  intro hm
  cases hcre : fact.isCreated with
  | true => exact (h.created hcre).1 _ hm rfl
  | false => exact (h.known hcre).2 hm

theorem WellFormed.known {history : List WindowEvent} (h : WellFormed history)
    (hm : fact ∈ history) : Known history fact.window := by
  obtain ⟨before, after, rfl, hext⟩ := h.of_mem hm
  have hk : Known (before ++ [fact] ++ after) fact.window := hext.known_snoc.mono
  rwa [append_assoc] at hk

/-- One id has one incarnation. -/
theorem WellFormed.unique {history : List WindowEvent} (h : WellFormed history)
    (hwi : Known history window) (hot : Known history other) (hid : window.id = other.id) :
    window = other := by
  induction history using reverseRecOn with
  | nil =>
    obtain ⟨_, _, hm⟩ := hwi
    cases hm
  | append_singleton history fact ih =>
    obtain ⟨hhi, hext⟩ := always_snoc.mp h
    have hs {w : WindowRef} (hw : Known (history ++ [fact]) w) :
        Known history w ∨ (fact.isCreated = true ∧ fact.window = w) := by
      obtain ⟨state, pending, hm⟩ := hw
      rcases mem_snoc.mp hm with hm | hm
      · exact .inl ⟨state, pending, hm⟩
      · exact .inr (hm ▸ ⟨rfl, rfl⟩)
    have hf {w : WindowRef} (hw : Known history w) (hcre : fact.isCreated = true) :
        w.id ≠ fact.window.id := by
      obtain ⟨state, pending, hm⟩ := hw
      exact (hext.created hcre).1 _ hm
    rcases hs hwi with hw | ⟨hcre, rfl⟩
    · rcases hs hot with ho | ⟨hcre, rfl⟩
      · exact ih hhi hw ho
      · exact (hf hw hcre hid).elim
    · rcases hs hot with ho | ⟨-, rfl⟩
      · exact (hf ho hcre hid.symm).elim
      · rfl

/-! ## The source -/

/-- What the source keeps of the history it accepted. -/
structure Mirrors (source : WindowSource) (history : List WindowEvent) : Prop where
  wellFormed : WellFormed history
  unknown : ∀ id, source.windows.get? id = none ↔ ∀ fact ∈ history, fact.window.id ≠ id
  snapshot : ∀ id snapshot, source.windows.get? id = some (some snapshot) →
    snapshot.window.id = id ∧ Known history snapshot.window ∧
      (snapshot.hostDestroyed = true ↔ .destroyed snapshot.window ∈ history)
  retired : ∀ id, source.windows.get? id = some none →
    ∃ window, window.id = id ∧ Known history window ∧ .destroyed window ∈ history
  size : source.windows.size = (history.filter WindowEvent.isCreated).length

theorem mirrors_new : Mirrors .new [] where
  wellFormed := always_nil _
  unknown := fun _ => iff_of_true rfl nofun
  snapshot := nofun
  retired := nofun
  size := rfl

section Mirrors

variable {source : WindowSource} {history : List WindowEvent}

variable {window : WindowRef} {snapshot : WindowSnapshot} {fact : WindowEvent}

/-- The snapshot of a window that was created and not destroyed. -/
theorem Mirrors.get_live (h : Mirrors source history) (hk : Known history window)
    (hl : .destroyed window ∉ history) :
    ∃ snapshot, source.windows.get? window.id = some (some snapshot) ∧ snapshot.window = window ∧
      snapshot.hostDestroyed = false := by
  cases hg : source.windows.get? window.id with
  | none =>
    obtain ⟨state, pending, hm⟩ := hk
    exact ((h.unknown window.id).mp hg _ hm rfl).elim
  | some value =>
    cases value with
    | none =>
      obtain ⟨other, hid, ho, hde⟩ := h.retired window.id hg
      exact (hl (h.wellFormed.unique ho hk hid ▸ hde)).elim
    | some snapshot =>
      obtain ⟨hid, ho, hde⟩ := h.snapshot window.id snapshot hg
      have hs := h.wellFormed.unique ho hk hid
      refine ⟨snapshot, rfl, hs, eq_false_of_ne_true fun hgo => ?_⟩
      exact hl (hs ▸ hde.mp hgo)

theorem Mirrors.live_of_get (h : Mirrors source history) {id : ℕ}
    (hg : source.windows.get? id = some (some snapshot)) (hl : snapshot.hostDestroyed = false)
    :
    Known history snapshot.window ∧ .destroyed snapshot.window ∉ history := by
  obtain ⟨-, hk, hde⟩ := h.snapshot id snapshot hg
  exact ⟨hk, fun hm => Bool.false_ne_true (hl.symm.trans (hde.mpr hm))⟩

theorem reject_error (source : WindowSource) : ∃ error,
    source.reject = (.error error, { source with failure := some error }) ∧
    ∀ first, source.failure = some first → error = first := by
  obtain ⟨windows, failure⟩ := source
  cases failure with
  | none => exact ⟨hostFactRejected, rfl, nofun⟩
  | some error => exact ⟨error, rfl, fun first h => Option.some.inj h⟩

theorem Mirrors.failed (h : Mirrors source history) (failure : Option KipcError) :
    Mirrors { source with failure } history :=
  ⟨h.wellFormed, h.unknown, h.snapshot, h.retired, h.size⟩

theorem apply_failed {error : KipcError} (hflr : source.failure = some error)
    (fact : WindowEvent) : source.apply fact = (.error error, source) := by
  rw [WindowSource.apply.eq_def, hflr]

theorem apply_pair (hl : source.failure = none)
    (hpa : ¬ (fact.window.id ≠ 0 ∧ fact.window.incarnation ≠ 0)) :
    source.apply fact = source.reject := by
  rw [WindowSource.apply.eq_def, hl]
  refine if_pos ?_
  by_contra h
  exact hpa (not_or.mp h)

theorem apply_created (hl : source.failure = none)
    (hpa : window.id ≠ 0 ∧ window.incarnation ≠ 0) (state : WindowState) (pendingClose : Option ℕ)
    :
    source.apply (.created window state pendingClose) =
      if source.windows.has window.id ∨ proposedMaxCumulativeWindowIds ≤ source.windows.size
      then source.reject
      else (.ok (), source.setWindow { window, state, pendingClose, hostDestroyed := false }) := by
  rw [WindowSource.apply.eq_def, hl]
  exact if_neg fun h => h.elim hpa.1 hpa.2

/-- A fact that is not a `Created` is about a snapshot that is there. -/
theorem apply_other (hl : source.failure = none)
    (hpa : fact.window.id ≠ 0 ∧ fact.window.incarnation ≠ 0) (hf : fact.isCreated = false) :
    source.apply fact =
      match (source.windows.get? fact.window.id).join with
      | none => source.reject
      | some previous =>
        if previous.window.incarnation ≠ fact.window.incarnation ∨ previous.hostDestroyed
        then source.reject
        else (.ok (), source.setWindow
          (WindowSource.after { previous with window := fact.window } fact)) := by
  rw [WindowSource.apply.eq_def, hl]
  have hco : ¬ (fact.window.id = 0 ∨ fact.window.incarnation = 0) := fun h => h.elim hpa.1 hpa.2
  cases fact with
  | created window state pendingClose => exact (Bool.true_eq_false_eq_False hf).elim
  | _ => exact if_neg hco

theorem after_spec (previous : WindowSnapshot) (fact : WindowEvent) :
    (WindowSource.after { previous with window := fact.window } fact).window = fact.window ∧
      ((WindowSource.after { previous with window := fact.window } fact).hostDestroyed = true ↔
        previous.hostDestroyed = true ∨ fact = .destroyed fact.window) := by
  cases fact with
  | destroyed window => exact ⟨rfl, iff_of_true rfl (.inr rfl)⟩
  | _ => exact ⟨rfl, (or_iff_left nofun).symm⟩

section

variable (h : Mirrors source history)
include h

/-- The map with the fact's snapshot mirrors the history with the fact. -/
theorem Mirrors.setWindow (hext : Extends history fact) (hw : snapshot.window = fact.window)
    (hde : snapshot.hostDestroyed = true ↔ fact = .destroyed fact.window)
    (hcre : fact.isCreated = true → source.windows.get? fact.window.id = none)
    (ho : fact.isCreated = false → source.windows.get? fact.window.id ≠ none) :
    Mirrors (source.setWindow snapshot) (history ++ [fact]) where
  wellFormed := always_snoc.mpr ⟨h.wellFormed, hext⟩
  unknown := by
    intro id
    rw [WindowSource.setWindow, get?_set, hw]
    split_ifs with hid
    · refine iff_of_false nofun fun ha => ?_
      exact ha fact (mem_append_right _ mem_cons_self) hid
    · rw [h.unknown id]
      constructor
      · intro ha earlier hm
        rcases mem_snoc.mp hm with hm | hm
        · exact ha earlier hm
        · exact hm ▸ hid
      · exact fun ha earlier hm => ha earlier (mem_append_left _ hm)
  snapshot := by
    intro id value hg
    rw [WindowSource.setWindow, get?_set, hw] at hg
    split_ifs at hg with hid
    · obtain rfl := Option.some.inj (Option.some.inj hg)
      rw [hw]
      refine ⟨hid, hext.known_snoc, hde.trans ⟨fun he => ?_, fun hm => ?_⟩⟩
      · exact mem_append_right _ (mem_singleton.mpr he.symm)
      · exact (mem_singleton.mp ((mem_append.mp hm).resolve_left hext.not_destroyed)).symm
    · obtain ⟨hva, hk, hgo⟩ := h.snapshot id value hg
      refine ⟨hva, hk.mono, hgo.trans ⟨mem_append_left _, fun hm => ?_⟩⟩
      refine (mem_append.mp hm).resolve_right fun hl => hid ?_
      rw [← mem_singleton.mp hl]
      exact hva
  retired := by
    intro id hg
    rw [WindowSource.setWindow, get?_set, hw] at hg
    split_ifs at hg with hid
    · cases hg
    · obtain ⟨window, hwid, hk, hm⟩ := h.retired id hg
      exact ⟨window, hwid, hk.mono, mem_append_left _ hm⟩
  size := by
    rw [filter_append, length_append, ← h.size, WindowSource.setWindow, hw]
    cases hf : fact.isCreated with
    | true =>
      rw [filter_cons_of_pos hf]
      exact size_set_fresh (hcre hf) _
    | false =>
      rw [filter_cons_of_neg (Bool.not_eq_true _ ▸ hf)]
      exact size_set_of_mem (ho hf) _

/-- A fact that may come is accepted. -/
theorem Mirrors.apply_of_extends (hl : source.failure = none) (hext : Extends history fact) :
    ∃ next, source.apply fact = (.ok (), next) ∧ next.failure = none ∧
      Mirrors next (history ++ [fact]) := by
  cases hf : fact.isCreated with
  | true =>
    obtain ⟨state, pendingClose, he⟩ := isCreated_iff.mp hf
    obtain ⟨hfr, hro⟩ := hext.created hf
    have hn := (h.unknown fact.window.id).mpr hfr
    have hco : ¬ (source.windows.has fact.window.id ∨
        proposedMaxCumulativeWindowIds ≤ source.windows.size) := by
      rw [has, hn, h.size]
      exact fun hor => hor.elim nofun (Nat.not_le.mpr hro)
    have hap := apply_created hl hext.pair state pendingClose
    rw [← he, if_neg hco] at hap
    refine ⟨_, hap, hl, h.setWindow hext rfl ?_ (fun _ => hn) fun ho => ?_⟩
    · exact iff_of_false nofun fun hg => by
        rw [he] at hg
        cases hg
    · exact (Bool.true_eq_false_eq_False (hf.symm.trans ho)).elim
  | false =>
    obtain ⟨hk, hde⟩ := hext.known hf
    obtain ⟨previous, hge, hs, ht⟩ := h.get_live hk hde
    have hap := apply_other hl hext.pair hf
    rw [hge] at hap
    have hco : ¬ (previous.window.incarnation ≠ fact.window.incarnation ∨
        previous.hostDestroyed = true) := by
      rw [hs, ht]
      exact fun hor => hor.elim (fun hne => hne rfl) nofun
    obtain ⟨hw, hg⟩ := after_spec previous fact
    refine ⟨_, hap.trans (if_neg hco), hl,
      h.setWindow hext hw (hg.trans ?_) (fun hcre => ?_) fun _ => ?_⟩
    · rw [ht]
      exact or_iff_right Bool.false_ne_true
    · exact (Bool.true_eq_false_eq_False (hcre.symm.trans hf)).elim
    · rw [hge]
      exact nofun

/-- Every other fact is refused. -/
theorem Mirrors.apply_of_not_extends (hl : source.failure = none)
    (hext : ¬ Extends history fact) : source.apply fact = source.reject := by
  by_cases hpa : fact.window.id ≠ 0 ∧ fact.window.incarnation ≠ 0
  · cases hf : fact.isCreated with
    | true =>
      obtain ⟨state, pendingClose, he⟩ := isCreated_iff.mp hf
      rw [he, apply_created hl hpa]
      refine if_pos (Classical.or_iff_not_imp_left.mpr fun hn => ?_)
      have hfr := (h.unknown fact.window.id).mp (Option.not_isSome_iff_eq_none.mp hn)
      by_contra hro
      refine hext ⟨hpa, fun _ => ⟨hfr, h.size ▸ Nat.not_le.mp hro⟩, fun ho => ?_⟩
      exact (Bool.true_eq_false_eq_False (hf.symm.trans ho)).elim
    | false =>
      rw [apply_other hl hpa hf]
      cases hge : (source.windows.get? fact.window.id).join with
      | none => rfl
      | some previous =>
        obtain ⟨hid, hk, hg⟩ := h.snapshot _ previous (Option.join_eq_some_iff.mp hge)
        refine if_pos (Classical.or_iff_not_imp_left.mpr fun hs => ?_)
        have hw : previous.window = fact.window := windowRef_ext hid (Classical.not_not.mp hs)
        by_contra ht
        refine hext ⟨hpa, fun hcre => ?_, fun _ => ?_⟩
        · exact (Bool.true_eq_false_eq_False (hcre.symm.trans hf)).elim
        · exact hw ▸ ⟨hk, fun hm => ht (hg.mpr hm)⟩
  · exact apply_pair hl hpa

/-- The two ways a fact goes. -/
theorem Mirrors.apply_cases (fact : WindowEvent) :
    (source.failure = none ∧ Extends history fact ∧ ∃ next, source.apply fact = (.ok (), next)) ∨
      (¬ (source.failure = none ∧ Extends history fact) ∧
        ∃ error, source.apply fact = (.error error, { source with failure := some error }) ∧
          ∀ first, source.failure = some first → error = first) := by
  cases hflr : source.failure with
  | some error =>
    refine .inr ⟨nofun, error, ?_, fun first he => Option.some.inj he⟩
    rw [apply_failed hflr, ← hflr]
  | none =>
    by_cases hext : Extends history fact
    · obtain ⟨next, hap, -⟩ := h.apply_of_extends hflr hext
      exact .inl ⟨rfl, hext, next, hap⟩
    · obtain ⟨error, hre, -⟩ := reject_error source
      refine .inr ⟨fun hand => hext hand.2, error, ?_, nofun⟩
      rw [h.apply_of_not_extends hflr hext, hre]

/-- Another value for an id that is there. -/
theorem Mirrors.replace {id : ℕ} {value : Option WindowSnapshot}
    (ht : source.windows.get? id ≠ none)
    (hs : ∀ snapshot, value = some snapshot → snapshot.window.id = id ∧
      Known history snapshot.window ∧
      (snapshot.hostDestroyed = true ↔ .destroyed snapshot.window ∈ history))
    (hn : value = none →
      ∃ window, window.id = id ∧ Known history window ∧ .destroyed window ∈ history) :
    Mirrors { source with windows := source.windows.set id value } history where
  wellFormed := h.wellFormed
  unknown := by
    intro other
    rw [get?_set]
    split_ifs with hid
    · exact iff_of_false nofun fun ha => ht ((h.unknown id).mpr (hid ▸ ha))
    · exact h.unknown other
  snapshot := by
    intro other snapshot hg
    rw [get?_set] at hg
    split_ifs at hg with hid
    · exact hid ▸ hs snapshot (Option.some.inj hg)
    · exact h.snapshot other snapshot hg
  retired := by
    intro other hg
    rw [get?_set] at hg
    split_ifs at hg with hid
    · exact hid ▸ hn (Option.some.inj hg)
    · exact h.retired other hg
  size := (size_set_of_mem ht value).trans h.size

/-- The end of a callback retires the window of a `Destroyed` that was applied. -/
theorem Mirrors.retire (fact : WindowEvent) : Mirrors (source.retire fact) history := by
  cases fact with
  | destroyed window =>
    rw [WindowSource.retire]
    cases hge : (source.windows.get? window.id).join with
    | none => exact h
    | some current =>
      dsimp only
      split_ifs with hco
      · have hs := Option.join_eq_some_iff.mp hge
        obtain ⟨hid, hk, hg⟩ := h.snapshot _ current hs
        refine h.replace ?_ nofun fun _ => ⟨current.window, hid, hk, hg.mp hco.1⟩
        rw [hs]
        exact nofun
      · exact h
  | _ => exact h

end

theorem target_eq_some :
    source.target window = some snapshot ↔ source.failure = none ∧
      source.windows.get? window.id = some (some snapshot) ∧
      snapshot.window.incarnation = window.incarnation ∧ snapshot.hostDestroyed = false := by
  rw [WindowSource.target]
  cases hflr : source.failure with
  | some error => exact iff_of_false nofun nofun
  | none =>
    rw [if_neg nofun, Option.filter_eq_some_iff, Option.join_eq_some_iff]
    simp only [Bool.and_eq_true, decide_eq_true_eq, Bool.not_eq_true', true_and]

/-- The windows that an acknowledgement is taken for. -/
theorem Mirrors.target_isSome (h : Mirrors source history) :
    (source.target window).isSome ↔
      source.failure = none ∧ Known history window ∧ .destroyed window ∉ history := by
  rw [Option.isSome_iff_exists]
  constructor
  · rintro ⟨snapshot, htgt⟩
    obtain ⟨hl, hg, hs, ht⟩ := target_eq_some.mp htgt
    obtain ⟨hid, -⟩ := h.snapshot _ snapshot hg
    have hw : snapshot.window = window := windowRef_ext hid hs
    exact ⟨hl, hw ▸ h.live_of_get hg ht⟩
  · rintro ⟨hl, hk, hde⟩
    obtain ⟨snapshot, hg, hs, ht⟩ := h.get_live hk hde
    exact ⟨snapshot, target_eq_some.mpr ⟨hl, hg, congrArg _ hs, ht⟩⟩

theorem Mirrors.acceptHostCloseReply (h : Mirrors source history) (window : WindowRef)
    (closeSeq : ℕ) : Mirrors (source.acceptHostCloseReply window closeSeq).2 history := by
  rw [WindowSource.acceptHostCloseReply]
  cases htgt : source.target window with
  | none => exact h
  | some previous =>
    dsimp only
    split_ifs
    · obtain ⟨-, hge, hs, ht⟩ := target_eq_some.mp htgt
      obtain ⟨hid, hk, hg⟩ := h.snapshot _ previous hge
      have hw : previous.window = window := windowRef_ext hid hs
      rw [ht, hw] at hg
      rw [hw] at hk
      refine h.replace ?_ ?_ nofun
      · rw [hge]
        exact nofun
      · intro snapshot he
        cases he
        exact ⟨rfl, hk, hg⟩
    · exact h

theorem accept_fst (window : WindowRef) (closeSeq : ℕ) :
    (source.acceptHostCloseReply window closeSeq).1 = (source.target window).isSome := by
  rw [WindowSource.acceptHostCloseReply]
  cases source.target window <;> rfl

theorem accept_failure (window : WindowRef) (closeSeq : ℕ) :
    (source.acceptHostCloseReply window closeSeq).2.failure = source.failure := by
  rw [WindowSource.acceptHostCloseReply]
  cases source.target window with
  | none => rfl
  | some previous =>
    dsimp only
    split_ifs <;> rfl

theorem retire_failure (fact : WindowEvent) : (source.retire fact).failure = source.failure := by
  cases fact with
  | destroyed window =>
    rw [WindowSource.retire]
    cases (source.windows.get? window.id).join with
    | none => rfl
    | some current =>
      dsimp only
      split_ifs <;> rfl
  | _ => rfl

/-- The close that an acknowledgement settles in the mirror. -/
abbrev Settles (source : WindowSource) (window : WindowRef) (closeSeq : ℕ)
    (snapshot : WindowSnapshot) : Prop :=
  source.failure = none ∧ snapshot.window = window ∧ snapshot.hostDestroyed = false ∧
    snapshot.pendingClose = some closeSeq

/-- It clears a close that is exactly its own, and changes nothing else. -/
theorem Mirrors.acceptHostCloseReply_get (h : Mirrors source history) (window : WindowRef)
    (closeSeq id : ℕ) :
    (source.acceptHostCloseReply window closeSeq).2.windows.get? id =
      (source.windows.get? id).map (Option.map fun snapshot =>
        if Settles source window closeSeq snapshot then { snapshot with pendingClose := none }
        else snapshot) := by
  have hs (hnot : ∀ snapshot, source.windows.get? id = some (some snapshot) →
      ¬ Settles source window closeSeq snapshot) :
      source.windows.get? id = (source.windows.get? id).map (Option.map fun snapshot =>
        if Settles source window closeSeq snapshot then { snapshot with pendingClose := none }
        else snapshot) := by
    cases hg : source.windows.get? id with
    | none => rfl
    | some value =>
      cases value with
      | none => rfl
      | some snapshot => exact congrArg (some ∘ some) (if_neg (hnot snapshot hg)).symm
  -- a snapshot that it settles is the one of `target`
  have htarget_of {snapshot : WindowSnapshot} (hg : source.windows.get? id = some (some snapshot))
      (hse : Settles source window closeSeq snapshot) :
      id = window.id ∧ source.target window = some snapshot := by
    obtain ⟨hl, rfl, ht, -⟩ := hse
    obtain ⟨rfl, -⟩ := h.snapshot id snapshot hg
    exact ⟨rfl, target_eq_some.mpr ⟨hl, hg, rfl, ht⟩⟩
  rw [WindowSource.acceptHostCloseReply]
  cases htgt : source.target window with
  | none =>
    refine hs fun snapshot hg hse => ?_
    cases htgt.symm.trans (htarget_of hg hse).2
  | some previous =>
    dsimp only
    split_ifs with hp
    · obtain ⟨hl, hg, hin, ht⟩ := target_eq_some.mp htgt
      obtain ⟨hid, -⟩ := h.snapshot _ previous hg
      have hw : previous.window = window := windowRef_ext hid hin
      rw [WindowSource.setWindow, get?_set]
      by_cases he : window.id = id
      · have hse : Settles source window closeSeq previous := ⟨hl, hw, ht, hp⟩
        rw [if_pos he, ← he, hg, Option.map_some, Option.map_some, if_pos hse, ← hw, ← ht]
      · rw [if_neg he]
        exact hs fun snapshot hg hse => he (htarget_of hg hse).1.symm
    · refine hs fun snapshot hg hse => hp ?_
      obtain rfl := Option.some.inj (htgt.symm.trans (htarget_of hg hse).2)
      exact hse.2.2.2

end Mirrors

end Keld.Window
