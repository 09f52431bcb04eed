/-
# `Keld.Window.Calls` — every window call is answered once, or dropped with its owner

A `Create` that mints a window is answered by the build, by its failure or by the
session end; a `Destroy` by the release of its window, with every other one admitted
for it.  A role loss drops what the lost owner still waits for.

The ledger is read off the window's log alone (`pendingCreates`, `pendingDestroys`).
Against it stand the places where the registry keeps its calls, the `Opening` phase
and `destroy_calls` (`CreateInv`, `DestroyInv`); `CreateFate` and `DestroyFate` are
what follows for a whole log.

`Routed` is the router's check: it refuses a call whose correlation is pending.  With
it no two pending calls are equal.
-/
import Keld.Window.Invariant

namespace Keld.Window

open WindowRegistry List Note Entry Phase

/-! ## The ledger of one window -/

/-- The admitted `Create` calls of a log. -/
def mintCalls (l : List Note) : List PendingWindowCall :=
  l.filterMap fun
    | .minted call => some call
    | _ => none

/-- The answers to a `Create`. -/
def createAnswers (l : List Note) : List (CreateAnswer × PendingWindowCall) :=
  l.filterMap fun
    | .createAnswered answer call => some (answer, call)
    | _ => none

/-- The admitted `Destroy` calls, in admission order. -/
def destroyAdmissions (l : List Note) : List PendingWindowCall :=
  l.filterMap fun
    | .destroyAdmitted call => some call
    | _ => none

/-- The `destroy_calls` of each release. -/
def destroyAnswers (l : List Note) : List (List PendingWindowCall) :=
  l.filterMap fun
    | .destroysAnswered calls => some calls
    | _ => none

/-- How one note changes the `Create` calls that wait. -/
def createPending (pending : List PendingWindowCall) : Note → List PendingWindowCall
  | .minted call => pending ++ [call]
  | .createAnswered _ call => pending.erase call
  | .ownerLost o => pending.filter (fun call => call.owner ≠ o)
  | _ => pending

/-- How one note changes the `Destroy` calls that wait. -/
def destroyPending (pending : List PendingWindowCall) : Note → List PendingWindowCall
  | .destroyAdmitted call => pending ++ [call]
  | .destroysAnswered calls => pending.filter (fun call => call ∉ calls)
  | .ownerLost o => pending.filter (fun call => call.owner ≠ o)
  | _ => pending

/-- The `Create` calls admitted and neither answered nor dropped. -/
def pendingCreates (l : List Note) : List PendingWindowCall := l.foldl createPending []

/-- The `Destroy` calls admitted and neither answered nor dropped. -/
def pendingDestroys (l : List Note) : List PendingWindowCall := l.foldl destroyPending []

/-- What becomes of the `Create` that minted a window. -/
inductive CreateFate (call : PendingWindowCall) (l : List Note) : Prop
  | pending : createAnswers l = [] → pendingCreates l = [call] → .ownerLost call.owner ∉ l →
      CreateFate call l
  | answered {answer} : createAnswers l = [(answer, call)] → pendingCreates l = [] →
      CreateFate call l
  | dropped : createAnswers l = [] → pendingCreates l = [] → .ownerLost call.owner ∈ l →
      CreateFate call l

/-- A loss of `o` that finds every admitted `Destroy` waiting, and after which none is answered. -/
structure DestroysDropped (o : WindowOwner) (before after l : List Note) : Prop where
  split : l = before ++ .ownerLost o :: after
  pending : pendingDestroys before = destroyAdmissions l
  nonempty : destroyAdmissions l ≠ []
  owned : ∀ call ∈ destroyAdmissions l, call.owner = o
  unanswered : ∀ calls ∈ destroyAnswers l, calls = []

/-- What becomes of the `Destroy` calls admitted for a window. -/
inductive DestroyFate (l : List Note) : Prop
  | pending : destroyAnswers l = [] → pendingDestroys l = destroyAdmissions l → DestroyFate l
  | answered : destroyAnswers l = [destroyAdmissions l] → pendingDestroys l = [] → DestroyFate l
  | dropped {o before after} : DestroysDropped o before after l → pendingDestroys l = [] →
      DestroyFate l

@[simp] theorem mintCalls_append (l m : List Note) :
    mintCalls (l ++ m) = mintCalls l ++ mintCalls m := by
  simp [mintCalls]

@[simp] theorem createAnswers_append (l m : List Note) :
    createAnswers (l ++ m) = createAnswers l ++ createAnswers m := by
  simp [createAnswers]

@[simp] theorem destroyAdmissions_append (l m : List Note) :
    destroyAdmissions (l ++ m) = destroyAdmissions l ++ destroyAdmissions m := by
  simp [destroyAdmissions]

@[simp] theorem destroyAnswers_append (l m : List Note) :
    destroyAnswers (l ++ m) = destroyAnswers l ++ destroyAnswers m := by
  simp [destroyAnswers]

/-- A note that says nothing about a `Create`. -/
def Note.createFree : Note → Bool
  | .minted _ | .createAnswered _ _ | .ownerLost _ => false
  | _ => true

/-- A note that says nothing about a `Destroy`. -/
def Note.destroyFree : Note → Bool
  | .destroyAdmitted _ | .destroysAnswered _ | .ownerLost _ => false
  | _ => true

def Note.callFree (n : Note) : Bool := n.createFree && n.destroyFree

theorem createFree_notes {notes : List Note} (h : ∀ n ∈ notes, n.createFree = true) :
    mintCalls notes = [] ∧ createAnswers notes = [] ∧ (∀ o, .ownerLost o ∉ notes) ∧
      ∀ p, notes.foldl createPending p = p := by
  induction notes with
  | nil => simp [mintCalls, createAnswers]
  | cons n notes ih =>
    have hn := h n mem_cons_self
    obtain ⟨h1, h2, h3, h4⟩ := ih (fun m hm => h m (mem_cons_of_mem _ hm))
    simp only [mintCalls, createAnswers] at h1 h2 ⊢
    cases n <;> simp [createFree] at hn <;> simp [h1, h2, h3, h4, createPending]

theorem destroyFree_notes {notes : List Note} (h : ∀ n ∈ notes, n.destroyFree = true) :
    destroyAdmissions notes = [] ∧ destroyAnswers notes = [] ∧
      ∀ p, notes.foldl destroyPending p = p := by
  induction notes with
  | nil => simp [destroyAdmissions, destroyAnswers]
  | cons n notes ih =>
    have hn := h n mem_cons_self
    obtain ⟨h1, h2, h3⟩ := ih (fun m hm => h m (mem_cons_of_mem _ hm))
    simp only [destroyAdmissions, destroyAnswers] at h1 h2 ⊢
    cases n <;> simp [destroyFree] at hn <;> simp [h1, h2, h3, destroyPending]

theorem createFree_of_callFree {notes : List Note} (h : ∀ n ∈ notes, n.callFree = true) :
    ∀ n ∈ notes, n.createFree = true := by
  intro n hn
  have := h n hn
  simp only [callFree, Bool.and_eq_true] at this
  exact this.1

theorem destroyFree_of_callFree {notes : List Note} (h : ∀ n ∈ notes, n.callFree = true) :
    ∀ n ∈ notes, n.destroyFree = true := by
  intro n hn
  have := h n hn
  simp only [callFree, Bool.and_eq_true] at this
  exact this.2

theorem callFree_facts (facts : List OwnedWindowEvent) :
    ∀ n ∈ facts.map fact, n.callFree = true := by
  intro n hn
  obtain ⟨fact, -, rfl⟩ := mem_map.mp hn
  rfl

theorem callFree_request (seq : ℕ) (fact : Option OwnedWindowEvent) :
    ∀ n ∈ requestNotes seq fact, n.callFree = true := by
  intro n hn
  rcases mem_cons.mp hn with rfl | hn
  · rfl
  · exact callFree_facts _ n hn

theorem callFree_factNotes (e : Entry) (event : Option WindowEvent) :
    ∀ n ∈ e.factNotes event, n.callFree = true := by
  intro n hn
  unfold factNotes at hn
  split_ifs at hn
  · obtain ⟨event, -, rfl⟩ := mem_map.mp hn
    rfl
  · cases hn

/-! ## What a step means to the ledger -/

/-- The `Create` call an entry holds. -/
def Entry.createCalls (e : Entry) : List PendingWindowCall :=
  match e.phase with
  | .opening call => [call]
  | _ => []

variable {e e' : Entry} {r r' : WindowRegistry} {op : WindowOp} {cur : Option WindowOwner} {k : ℕ}
  {l : List Note} {ops : List WindowOp} {c : CorrelationId}

theorem createCalls_eq_nil (h : e.phase.isOpening = false) : e.createCalls = [] := by
  cases hp : e.phase <;> simp_all [createCalls, isOpening]

theorem createCalls_loseRole (e : Entry) : (loseRole e).createCalls = [] := by
  refine createCalls_eq_nil ?_
  cases hp : e.phase <;> simp [loseRole, hp, isOpening]

/-- A step of an entry, seen from the calls it holds. -/
inductive CallStep (op : WindowOp) (e e' : Entry) : List Note → Prop
  | quiet {notes} : (∀ n ∈ notes, n.callFree = true) → e'.createCalls = e.createCalls →
      e'.destroyCalls = e.destroyCalls → CallStep op e e' notes
  | createAnswered {p answer call} : (∀ n ∈ p, n.callFree = true) → e.createCalls = [call] →
      e'.createCalls = [] → e.destroyCalls = [] → e'.destroyCalls = [] →
      CallStep op e e' (p ++ [.createAnswered answer call])
  | destroyAdmitted {p q call} : (∀ n ∈ p, n.callFree = true) →
      (∀ n ∈ q, n.callFree = true) → op = .destroy call.owner e.window call.correlation →
      e.ownerLive = true → e.phase.isDestroyed = false →
      e'.createCalls = e.createCalls → e'.destroyCalls = e.destroyCalls ++ [call] →
      CallStep op e e' (p ++ .destroyAdmitted call :: q)
  | destroysAnswered {pre} : (∀ n ∈ pre, n.callFree = true) → e.phase.isDestroyed = false →
      e'.phase.isDestroyed = true → e'.createCalls = e.createCalls → e'.destroyCalls = [] →
      CallStep op e e' (pre ++ [.destroysAnswered e.destroyCalls])
  | lost {pre o} : (∀ n ∈ pre, n.callFree = true) → e.owner = o → e.ownerLive = true →
      e' = loseRole e → CallStep op e e' (pre ++ [.ownerLost o])
  | spared {o} : losesRole o e = false → e' = e → CallStep op e e' [.ownerLost o]

theorem EntryStep.callStep {notes : List Note} (h : EntryStep r op e e' notes)
    (hi : EntryInv r.ending cur k e) : CallStep op e e' notes := by
  -- an entry whose phase is known not to be `Opening`, before and after
  have hno : ∀ {p p' : Phase} (e' : Entry), e.phase = p → e'.phase = p' →
      p.isOpening = false → p'.isOpening = false → e'.createCalls = e.createCalls := by
    intro p p' e' hp hp' ho ho'
    rw [createCalls_eq_nil (hp' ▸ ho'), createCalls_eq_nil (hp ▸ ho)]
  cases h with
  | keep | claim | takeOver | factClosing => exact .quiet (by simp) rfl rfl
  | adopt _ _ _ => exact .quiet (by simp [callFree, createFree, destroyFree]) rfl rfl
  | requestClose _ hp _ | nativeClose hp _ _ =>
    exact .quiet (callFree_request _ _) (hno _ hp rfl rfl rfl) rfl
  | veto _ hp | allow _ hp | cleanup _ hp =>
    exact .quiet (by simp [callFree, createFree, destroyFree]) (hno _ hp rfl rfl rfl) rfl
  | @destroyOpen _ _ _ _ native ha hp _ =>
    exact .destroyAdmitted (p := []) (q := [.teardown native.view]) (by simp)
      (by simp [callFree, createFree, destroyFree]) (by rw [ha.window_eq])
      ha.live ha.notDestroyed (hno _ hp rfl rfl rfl) rfl
  | @destroyPending _ _ _ _ native seq ha hp _ =>
    exact .destroyAdmitted (p := [.closeSettled seq .abandoned]) (q := [.teardown native.view])
      (by simp [callFree, createFree, destroyFree])
      (by simp [callFree, createFree, destroyFree]) (by rw [ha.window_eq])
      ha.live ha.notDestroyed (hno _ hp rfl rfl rfl) rfl
  | destroyClosing ha hp _ =>
    exact .destroyAdmitted (p := []) (q := []) (by simp) (by simp)
      (by rw [ha.window_eq]) ha.live ha.notDestroyed rfl rfl
  | @built _ view state _ call _ hp =>
    obtain ⟨-, -, -, -, hc, -⟩ := hi.opening _ hp
    exact .createAnswered (p := [.fact ⟨call.owner, .created e.window state none⟩])
      (by simp [callFree, createFree, destroyFree])
      (by simp [createCalls, hp]) rfl hc hc
  | failed _ hp =>
    obtain ⟨-, hli, -, -, hc, he⟩ := hi.opening _ hp
    rw [hli, he]
    exact .createAnswered (p := []) (by simp) (by simp [createCalls, hp]) rfl hc hc
  | failedLate _ hp => exact .quiet (by simp) (hno _ hp rfl rfl rfl) rfl
  | fact hp _ | factPending hp _ => exact .quiet (callFree_factNotes _ _) (hno _ hp rfl rfl rfl) rfl
  | released hp _ =>
    exact .destroysAnswered (callFree_facts _) (by simp [hp, isDestroyed]) rfl
      (hno _ hp rfl rfl rfl) rfl
  | lost hl =>
    simp only [losesRole, Bool.and_eq_true, beq_iff_eq] at hl
    refine .lost ?_ hl.1 hl.2 rfl
    intro n hn
    obtain ⟨seq, -, rfl⟩ := mem_map.mp hn
    rfl
  | spared hl => exact .spared hl rfl
  | ended =>
    cases hp : e.phase with
    | opening call =>
      obtain ⟨-, -, -, -, hc, -⟩ := hi.opening _ hp
      simp only [endEffects, hp]
      exact .createAnswered (p := []) (by simp) (by simp [createCalls, hp])
        (by simp [createCalls, endEntry, hp]) hc hc
    | opened native | closePending native seq | closing native | destroyed view =>
      refine .quiet ?_ ?_ rfl
      · simp [endEffects, hp, SessionEffect.note, callFree, createFree, destroyFree]
      · simp [createCalls, endEntry, hp]

/-! ## The `Create` of a window -/

/-- The window was minted by one `Create`; the registry holds it exactly while it waits. -/
structure CreateInv (e : Entry) (l : List Note) : Prop where
  held : pendingCreates l = e.createCalls
  fate : ∃ call, mintCalls l = [call] ∧ CreateFate call l

theorem pendingCreates_append (l m : List Note) :
    pendingCreates (l ++ m) = m.foldl createPending (pendingCreates l) := by
  simp [pendingCreates]

theorem CreateFate.quiet {call : PendingWindowCall} {notes : List Note} (h : CreateFate call l)
    (hf : ∀ n ∈ notes, n.createFree = true) :
    CreateFate call (l ++ notes) := by
  obtain ⟨-, hans, hlo, hfo⟩ := createFree_notes hf
  have hans' : createAnswers (l ++ notes) = createAnswers l := by simp [hans]
  have hp : pendingCreates (l ++ notes) = pendingCreates l := by
    rw [pendingCreates_append, hfo]
  cases h with
  | pending h1 h2 h3 =>
    exact .pending (hans'.trans h1) (hp.trans h2) (by simp [h3, hlo])
  | answered h1 h2 => exact .answered (hans'.trans h1) (hp.trans h2)
  | dropped h1 h2 h3 =>
    exact .dropped (hans'.trans h1) (hp.trans h2) (mem_append_left _ h3)

/-- Losing an owner drops its waiting `Create` and touches no other. -/
theorem CreateFate.ownerLost {call : PendingWindowCall} (o : WindowOwner) (h : CreateFate call l) :
    CreateFate call (l ++ [.ownerLost o]) := by
  have hans : createAnswers (l ++ [.ownerLost o]) = createAnswers l := by
    simp [createAnswers]
  cases h with
  | pending h1 h2 h3 =>
    by_cases ho : call.owner = o
    · exact .dropped (hans.trans h1) (by simp [pendingCreates_append, createPending, h2, ho])
        (by simp [ho])
    · refine .pending (hans.trans h1) (by simp [pendingCreates_append, createPending, h2, ho]) ?_
      simp only [mem_append, mem_singleton, ownerLost.injEq, not_or]
      exact ⟨h3, ho⟩
  | answered h1 h2 =>
    exact .answered (hans.trans h1) (by simp [pendingCreates_append, createPending, h2])
  | dropped h1 h2 h3 =>
    exact .dropped (hans.trans h1) (by simp [pendingCreates_append, createPending, h2])
      (mem_append_left _ h3)

theorem CreateFate.answer {call : PendingWindowCall} (answer : CreateAnswer) (h : CreateFate call l)
    (hp : pendingCreates l = [call]) :
    CreateFate call (l ++ [.createAnswered answer call]) := by
  cases h with
  | pending h1 _ _ =>
    have hans : createAnswers (l ++ [.createAnswered answer call]) = [(answer, call)] := by
      rw [createAnswers_append, h1]
      rfl
    exact .answered hans (by simp [pendingCreates_append, createPending, hp])
  | answered _ h2 | dropped _ h2 _ => simp [h2] at hp

theorem CreateFate.unique {call call' : PendingWindowCall} (h : CreateFate call l)
    (hp : pendingCreates l = [call']) : call = call' := by
  cases h with
  | pending _ h2 _ => simpa [hp] using h2.symm
  | answered _ h2 | dropped _ h2 _ => simp [h2] at hp

theorem CreateInv.quiet {notes : List Note} (hc : CreateInv e l)
    (hf : ∀ n ∈ notes, n.createFree = true) (hcr : e'.createCalls = e.createCalls) :
    CreateInv e' (l ++ notes) := by
  obtain ⟨call, hmi, hfa⟩ := hc.fate
  obtain ⟨hm, -, -, hfo⟩ := createFree_notes hf
  exact ⟨by rw [pendingCreates_append, hfo, hc.held, hcr], call, by simp [hmi, hm], hfa.quiet hf⟩

theorem CreateInv.ownerLost {o : WindowOwner} (hc : CreateInv e l)
    (hcr : e'.createCalls = e.createCalls.filter (fun call => call.owner ≠ o)) :
    CreateInv e' (l ++ [.ownerLost o]) := by
  obtain ⟨call, hmi, hfa⟩ := hc.fate
  refine ⟨?_, call, ?_, hfa.ownerLost o⟩
  · simp [pendingCreates_append, createPending, hc.held, hcr]
  · rw [mintCalls_append, hmi]
    rfl

theorem CreateInv.step {notes : List Note} (hc : CreateInv e l) (hi : EntryInv r.ending cur k e)
    (h : EntryStep r op e e' notes) : CreateInv e' (l ++ notes) := by
  have how : ∀ call ∈ e.createCalls, call.owner = e.owner ∧ e.ownerLive = true := by
    intro call hm
    cases hp : e.phase with
    | opening call' =>
      rw [createCalls, hp, mem_singleton] at hm
      obtain ⟨h1, h2, -⟩ := hi.opening call' hp
      exact ⟨hm ▸ h1, h2⟩
    | _ => simp [createCalls, hp] at hm
  cases h.callStep hi with
  | quiet hf hcr _ => exact hc.quiet (createFree_of_callFree hf) hcr
  | @createAnswered pre answer call' hf hh hcr _ _ =>
    have hpre : CreateInv e (l ++ pre) := hc.quiet (createFree_of_callFree hf) rfl
    obtain ⟨call, hmi, hfa⟩ := hpre.fate
    have hpe : pendingCreates (l ++ pre) = [call'] := hpre.held.trans hh
    obtain rfl := hfa.unique hpe
    rw [← append_assoc]
    refine ⟨?_, call, ?_, hfa.answer answer hpe⟩
    · rw [pendingCreates_append, hpe, hcr]
      simp [createPending]
    · rw [mintCalls_append, hmi]
      rfl
  | @destroyAdmitted pre post call' hpre hpo _ _ _ hcr _ =>
    refine hc.quiet ?_ hcr
    intro n hn
    rcases mem_append.mp hn with hn | hn
    · exact createFree_of_callFree hpre n hn
    · rcases mem_cons.mp hn with rfl | hn
      · rfl
      · exact createFree_of_callFree hpo n hn
  | destroysAnswered hf _ _ hcr _ =>
    refine hc.quiet ?_ hcr
    intro n hn
    rcases mem_snoc.mp hn with hn | he
    · exact createFree_of_callFree hf n hn
    · cases he
      rfl
  | @lost pre o hf ho _ he =>
    have hcr : e'.createCalls = [] := by
      rw [he]
      exact createCalls_loseRole e
    have hpre : CreateInv e (l ++ pre) := hc.quiet (createFree_of_callFree hf) rfl
    rw [← append_assoc]
    refine hpre.ownerLost ?_
    rw [hcr, eq_comm, filter_eq_nil_iff]
    intro call hm
    simp [(how call hm).1, ho]
  | @spared o hl he =>
    subst he
    refine hc.ownerLost ?_
    rw [eq_comm, filter_eq_self]
    intro call hm
    obtain ⟨h1, h2⟩ := how call hm
    simpa [losesRole, h1, h2] using hl

/-! ## The `Destroy` calls of a window -/

/-- A window of a lost generation that no owner can take over. -/
def Entry.orphaned (e : Entry) : Prop :=
  e.ownerLive = false ∧ e.phase.isOpening = false ∧ e.phase.isLive = false

theorem EntryStep.orphaned {notes : List Note} (h : EntryStep r op e e' notes) (ho : e.orphaned) :
    e'.orphaned := by
  obtain ⟨hli, hopg, hsc⟩ := ho
  have hde : ∀ {o w}, ¬ Admitted r o w e := fun had => by
    have := had.live
    simp [hli] at this
  cases h with
  | keep _ | spared _ => exact ⟨hli, hopg, hsc⟩
  | claim had _ | requestClose had _ _ | veto had _ | allow had _ | destroyOpen had _ _
  | destroyPending had _ _ | destroyClosing had _ _ => exact absurd had hde
  | adopt _ _ ha => simp [adoptableBy, hli] at ha
  | built _ hp | failed _ hp => simp [hp, isOpening] at hopg
  | cleanup _ _ | failedLate _ _ | released _ _ => exact ⟨hli, rfl, rfl⟩
  | fact hp _ | factPending hp _ | nativeClose hp _ _ => simp [hp, isLive] at hsc
  | factClosing hp _ => exact ⟨hli, hopg, hsc⟩
  | lost hl => simp [losesRole, hli] at hl
  | takeOver hs => simp [survives, hsc] at hs
  | ended =>
    refine ⟨hli, ?_, ?_⟩ <;>
      cases hp : e.phase <;> simp_all [endEntry, isOpening, isLive]

/-- Where the `Destroy` calls of a window stand, with the entry that holds them. -/
inductive DestroyStand (e : Entry) (l : List Note) : Prop
  | pending : destroyAnswers l = [] → destroyAdmissions l = e.destroyCalls → DestroyStand e l
  | answered : destroyAnswers l = [destroyAdmissions l] → e.phase.isDestroyed = true →
      DestroyStand e l
  | dropped {o before after} : DestroysDropped o before after l → e.orphaned → DestroyStand e l

structure DestroyInv (e : Entry) (l : List Note) : Prop where
  held : pendingDestroys l = e.destroyCalls
  stand : DestroyStand e l

theorem pendingDestroys_append (l m : List Note) :
    pendingDestroys (l ++ m) = m.foldl destroyPending (pendingDestroys l) := by
  simp [pendingDestroys]

/-- Notes that admit nothing and answer at most an empty list keep a drop a drop. -/
theorem DestroysDropped.append {o : WindowOwner} {before after notes : List Note}
    (h : DestroysDropped o before after l) (ha : destroyAdmissions notes = [])
    (hans : ∀ calls ∈ destroyAnswers notes, calls = []) :
    DestroysDropped o before (after ++ notes) (l ++ notes) where
  split := by simp [h.split]
  pending := by simp [ha, h.pending]
  nonempty := by simpa [ha] using h.nonempty
  owned := by simpa [ha] using h.owned
  unanswered := by
    intro calls hc
    rw [destroyAnswers_append, mem_append] at hc
    rcases hc with hc | hc
    · exact h.unanswered calls hc
    · exact hans calls hc

theorem DestroyStand.quiet {notes notes' : List Note} (hs : DestroyStand e l)
    (h : EntryStep r op e e' notes') (ha : destroyAdmissions notes = [])
    (hans : destroyAnswers notes = []) (hc : e'.destroyCalls = e.destroyCalls) :
    DestroyStand e' (l ++ notes) := by
  cases hs with
  | pending h1 h2 => exact .pending (by simp [h1, hans]) (by simp [h2, ha, hc])
  | answered h1 h2 => exact .answered (by simp [h1, ha, hans]) (h.destroyed h2)
  | dropped hd ho => exact .dropped (hd.append ha (by simp [hans])) (h.orphaned ho)

theorem DestroyInv.step {notes : List Note} (hd : DestroyInv e l) (hi : EntryInv r.ending cur k e)
    (h : EntryStep r op e e' notes) : DestroyInv e' (l ++ notes) := by
  -- calls are held for a live owner only
  have hon : ∀ call ∈ e.destroyCalls, call.owner = e.owner ∧ e.ownerLive = true := by
    intro call hm
    obtain ⟨-, hli, hal⟩ := hi.destroyCalls (ne_nil_of_mem hm)
    exact ⟨hal call hm, hli⟩
  cases h.callStep hi with
  | quiet hf _ hca =>
    obtain ⟨ha, hans, hfo⟩ := destroyFree_notes (destroyFree_of_callFree hf)
    exact ⟨by rw [pendingDestroys_append, hfo, hd.held, hca], hd.stand.quiet h ha hans hca⟩
  | @createAnswered pre answer call hf _ _ hca hca' =>
    have hnt : ∀ n ∈ pre ++ [.createAnswered answer call], n.destroyFree = true := by
      intro n hn
      rcases mem_snoc.mp hn with hn | he
      · exact destroyFree_of_callFree hf n hn
      · cases he
        rfl
    obtain ⟨ha, hans, hfo⟩ := destroyFree_notes hnt
    exact ⟨by rw [pendingDestroys_append, hfo, hd.held, hca, hca'],
      hd.stand.quiet h ha hans (hca'.trans hca.symm)⟩
  | @destroyAdmitted pre post call hpre hpo _ hli hnot _ hca =>
    obtain ⟨ha, hans, hfo⟩ := destroyFree_notes (destroyFree_of_callFree hpre)
    obtain ⟨ha', hans', hfo'⟩ := destroyFree_notes (destroyFree_of_callFree hpo)
    have had : destroyAdmissions (pre ++ .destroyAdmitted call :: post) = [call] := by
      rw [destroyAdmissions_append, ha]
      simpa [destroyAdmissions] using ha'
    have han : destroyAnswers (pre ++ .destroyAdmitted call :: post) = [] := by
      rw [destroyAnswers_append, hans]
      simpa [destroyAnswers] using hans'
    refine ⟨?_, ?_⟩
    · rw [pendingDestroys_append, foldl_append, foldl_cons, hfo, hfo', hd.held, hca]
      rfl
    · cases hd.stand with
      | pending h1 h2 =>
        exact .pending (by rw [destroyAnswers_append, h1, han]; rfl)
          (by rw [destroyAdmissions_append, h2, had, hca])
      | answered _ h2 => simp [h2] at hnot
      | dropped _ ho => simp [ho.1] at hli
  | @destroysAnswered pre hf hnot hde _ hca =>
    obtain ⟨ha, hans, hfo⟩ := destroyFree_notes (destroyFree_of_callFree hf)
    have had : destroyAdmissions (pre ++ [.destroysAnswered e.destroyCalls]) = [] := by
      rw [destroyAdmissions_append, ha]
      rfl
    have han : destroyAnswers (pre ++ [.destroysAnswered e.destroyCalls]) = [e.destroyCalls] := by
      rw [destroyAnswers_append, hans]
      rfl
    refine ⟨?_, ?_⟩
    · rw [pendingDestroys_append, foldl_append, hfo, hd.held, hca]
      simp [destroyPending]
    · cases hd.stand with
      | pending h1 h2 =>
        refine .answered ?_ hde
        rw [destroyAnswers_append, destroyAdmissions_append, h1, h2, had, han]
        simp
      | answered _ h2 => simp [h2] at hnot
      | dropped hdr ho =>
        refine .dropped (hdr.append had ?_) (h.orphaned ho)
        intro calls hc
        rw [han, mem_singleton] at hc
        rw [hc]
        by_contra hne
        simp [ho.1] at hon
        exact hne (eq_nil_iff_forall_not_mem.mpr hon)
  | @lost pre o hf ho hli he =>
    obtain ⟨ha, hans, hfo⟩ := destroyFree_notes (destroyFree_of_callFree hf)
    have had : destroyAdmissions (pre ++ [.ownerLost o]) = [] := by
      rw [destroyAdmissions_append, ha]
      rfl
    have han : destroyAnswers (pre ++ [.ownerLost o]) = [] := by
      rw [destroyAnswers_append, hans]
      rfl
    refine ⟨?_, ?_⟩
    · rw [pendingDestroys_append, foldl_append, hfo, hd.held, he]
      refine filter_eq_nil_iff.mpr (fun call hm => ?_)
      simp [(hon call hm).1, ho]
    · cases hd.stand with
      | pending h1 h2 =>
        by_cases hno : e.destroyCalls = []
        · refine .pending ?_ ?_
          · rw [destroyAnswers_append, h1, han]
            rfl
          · rw [destroyAdmissions_append, h2, had, hno, he]
            rfl
        · obtain ⟨⟨native, hp⟩, -, -⟩ := hi.destroyCalls hno
          have hs : destroyAdmissions (l ++ (pre ++ [.ownerLost o])) = e.destroyCalls := by
            rw [destroyAdmissions_append, had, h2, append_nil]
          have hdr : DestroysDropped o (l ++ pre) [] (l ++ (pre ++ [.ownerLost o])) := by
            refine ⟨by simp, ?_, ?_, ?_, ?_⟩
            · rw [hs, pendingDestroys_append, hfo, hd.held]
            · rwa [hs]
            · rw [hs]
              exact fun call hm => (hon call hm).1.trans ho
            · simp [destroyAnswers_append l, h1, han]
          refine .dropped hdr ?_
          rw [he]
          exact ⟨rfl, by simp [loseRole, hp, isOpening], by simp [loseRole, hp, isLive]⟩
      | answered h1 h2 =>
        refine .answered ?_ (h.destroyed h2)
        rw [destroyAnswers_append, destroyAdmissions_append, h1, had, han]
        simp
      | dropped hdr hor =>
        exact .dropped (hdr.append had (by simp [han])) (h.orphaned hor)
  | @spared o hl he =>
    subst he
    refine ⟨?_, hd.stand.quiet h rfl rfl rfl⟩
    rw [pendingDestroys_append, hd.held]
    refine filter_eq_self.mpr (fun call hm => ?_)
    obtain ⟨h1, h2⟩ := hon call hm
    simpa [losesRole, h1, h2] using hl

/-! ## Every run -/

theorem DestroyInv.fate {ending : Bool} (hd : DestroyInv e l) (hi : EntryInv ending cur k e) :
    DestroyFate l := by
  cases hd.stand with
  | pending h1 h2 => exact .pending h1 (hd.held.trans h2.symm)
  | answered h1 h2 =>
    refine .answered h1 (hd.held.trans ?_)
    cases hp : e.phase with
    | destroyed view => exact (hi.destroyed_facts hp).2
    | _ => simp [hp, isDestroyed] at h2
  | dropped hdr ho =>
    refine .dropped hdr (hd.held.trans ?_)
    by_contra hne
    have := (hi.destroyCalls hne).2.1
    simp [ho.1] at this

/-- The calls of a registry, by the window that holds them. -/
theorem hasPendingCall_iff {o : WindowOwner} :
    r.hasPendingCall o c = true ↔
      ∃ k e, r.entries.get? k = some e ∧ ⟨o, c⟩ ∈ e.createCalls ++ e.destroyCalls := by
  rw [hasPendingCall, OrdMap.values_any_iff]
  have hiff : ∀ e : Entry, ((match e.phase with
        | .opening call => call.owner == o && call.correlation == c
        | _ => false) ||
      e.destroyCalls.any (fun call => call.owner == o && call.correlation == c)) = true ↔
      (⟨o, c⟩ : PendingWindowCall) ∈ e.createCalls ++ e.destroyCalls := by
    intro e
    have hc : ∀ call : PendingWindowCall,
        (call.owner == o && call.correlation == c) = true ↔ call = ⟨o, c⟩ := by
      intro call
      cases call
      simp
    rw [Bool.or_eq_true, mem_append, any_eq_true]
    refine or_congr ?_ ?_
    · cases hp : e.phase with
      | opening call =>
        simp only [createCalls, hp, mem_singleton]
        exact (hc call).trans eq_comm
      | _ => simp [createCalls, hp]
    · simp only [hc]
      exact ⟨fun ⟨call, hm, heq⟩ => heq ▸ hm, fun hm => ⟨_, hm, rfl⟩⟩
  constructor
  · rintro ⟨k, e, hk, he⟩
    exact ⟨k, e, hk, (hiff e).mp he⟩
  · rintro ⟨k, e, hk, he⟩
    exact ⟨k, e, hk, (hiff e).mpr he⟩

/-- The call an operation may leave waiting. -/
def WindowOp.call : WindowOp → Option PendingWindowCall
  | .create o c _ _ _ _ => some ⟨o, c⟩
  | .destroy o _ c => some ⟨o, c⟩
  | _ => none

/-- No two waiting calls of the registry are equal. -/
structure CallsDistinct (r : WindowRegistry) : Prop where
  within : ∀ k e, r.entries.get? k = some e → (e.createCalls ++ e.destroyCalls).Nodup
  across : ∀ k k' e e' call, r.entries.get? k = some e → r.entries.get? k' = some e' →
    call ∈ e.createCalls ++ e.destroyCalls → call ∈ e'.createCalls ++ e'.destroyCalls → k = k'

/-- A step gives an entry no call but the `Destroy` it admits for that window. -/
theorem EntryStep.calls {notes : List Note} (h : EntryStep r op e e' notes)
    (hi : EntryInv r.ending cur k e) :
    (e'.createCalls ++ e'.destroyCalls).Sublist (e.createCalls ++ e.destroyCalls) ∨
      ∃ call, op = .destroy call.owner e.window call.correlation ∧
        e'.createCalls ++ e'.destroyCalls = e.createCalls ++ e.destroyCalls ++ [call] := by
  cases h.callStep hi with
  | quiet _ h1 h2 =>
    left
    rw [h1, h2]
  | createAnswered _ _ h1 _ h3 =>
    left
    simp [h1, h3]
  | destroyAdmitted _ _ hop _ _ h1 h2 =>
    right
    exact ⟨_, hop, by simp [h1, h2]⟩
  | destroysAnswered _ _ _ h1 h2 =>
    left
    simp [h1, h2]
  | lost _ _ _ he =>
    left
    rw [he, createCalls_loseRole]
    simp [loseRole]
  | spared _ he =>
    left
    rw [he]

theorem CallsDistinct.step {out : WindowOutcome} (hd : CallsDistinct r) (hi : RepInv cur r)
    (h : Step r op r' out)
    (hro : ∀ call, op.call = some call → r.hasPendingCall call.owner call.correlation = false) :
    CallsDistinct r' := by
  -- the call an operation brings waits nowhere before it
  have hf : ∀ call, op.call = some call → ∀ k e, r.entries.get? k = some e →
      call ∉ e.createCalls ++ e.destroyCalls := by
    intro call hc k e hk hm
    have := hro call hc
    rw [hasPendingCall_iff.mpr ⟨k, e, hk, hm⟩] at this
    cases this
  -- an entry's calls after the step are its old ones or the one the operation brings
  have ho : ∀ k e', r'.entries.get? k = some e' → ∀ call ∈ e'.createCalls ++ e'.destroyCalls,
      (∃ e, r.entries.get? k = some e ∧ call ∈ e.createCalls ++ e.destroyCalls) ∨
        op.call = some call ∧
          (k = r.lastId + 1 ∧ (∃ o c wd ht x y, op = .create o c wd ht x y) ∨
            ∃ e o c, r.entries.get? k = some e ∧ op = .destroy o e.window c) := by
    intro k e' hk call hm
    rcases step_key h hk with
      ⟨e, he⟩ | ⟨rfl, -, -, -, o, c, wd, ht, x, y, rfl, -, -, rfl⟩
    · obtain ⟨e'', he'', hs⟩ := step_entry h hi.keyed he
      cases he''.symm.trans hk
      rcases hs.calls (hi.entry k e he) with hsu | ⟨call', hop, heq⟩
      · exact .inl ⟨e, he, hsu.subset hm⟩
      · rw [heq, mem_append, mem_singleton] at hm
        rcases hm with hm | rfl
        · exact .inl ⟨e, he, hm⟩
        · exact .inr ⟨by rw [hop]; rfl, .inr ⟨e, _, _, he, hop⟩⟩
    · have hc : call = ⟨o, c⟩ := by simpa [openingEntry, createCalls] using hm
      exact .inr ⟨by rw [hc]; rfl, .inl ⟨rfl, o, c, wd, ht, x, y, rfl⟩⟩
  constructor
  · intro k e' hk
    rcases step_key h hk with
      ⟨e, he⟩ | ⟨rfl, -, -, -, o, c, wd, ht, x, y, rfl, -, -, rfl⟩
    · obtain ⟨e'', he'', hs⟩ := step_entry h hi.keyed he
      cases he''.symm.trans hk
      rcases hs.calls (hi.entry k e he) with hsu | ⟨call, hop, heq⟩
      · exact (hd.within k e he).sublist hsu
      · rw [heq, nodup_append]
        refine ⟨hd.within k e he, by simp, ?_⟩
        intro a ha b hb
        rw [mem_singleton] at hb
        rintro rfl
        exact hf call (by rw [hop]; rfl) k e he (hb ▸ ha)
    · simp [openingEntry, createCalls]
  · intro k k' e e' call hk hk' hm hm'
    rcases ho k e hk call hm with ⟨d, hdk, hmd⟩ | ⟨hc, hke⟩
    · rcases ho k' e' hk' call hm' with ⟨d', hdk', hmd'⟩ | ⟨hc, -⟩
      · exact hd.across k k' d d' call hdk hdk' hmd hmd'
      · exact absurd hmd (hf call hc k d hdk)
    · rcases ho k' e' hk' call hm' with ⟨d', hdk', hmd'⟩ | ⟨-, hke'⟩
      · exact absurd hmd' (hf call hc k' d' hdk')
      · -- both entries got the one call: they are one window
        rcases hke with ⟨rfl, o, c, wd, ht, x, y, rfl⟩ | ⟨d, o, c, hdk, rfl⟩
        · rcases hke' with ⟨rfl, -⟩ | ⟨d', o', c', -, hop⟩
          · rfl
          · cases hop
        · rcases hke' with ⟨-, o', c', wd, ht, x, y, hop⟩ | ⟨d', o', c', hdk', hop⟩
          · cases hop
          · have hw : d.window = d'.window := (WindowOp.destroy.inj hop).2.1
            have hid := congrArg WindowRef.id hw
            rwa [hi.keyed.id_eq k d hdk, hi.keyed.id_eq k' d' hdk'] at hid

end Keld.Window
