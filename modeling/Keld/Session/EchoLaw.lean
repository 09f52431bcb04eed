/-
# `Keld.Session.EchoLaw` — an echo call settles once

What a reader loaded without the lock stays true for as long as its generation
is the current one and the session runs: nobody but this reader answers the
call, and whoever retires it takes the generation first.  So a frame that was
admitted finds its call, or its reader is no longer the current one.
-/
import Keld.Lib.Trace
import Keld.Session.Echo
import Mathlib.Data.List.Induction
import Mathlib.Data.List.Nodup

namespace Keld.Session

open List

/-! ## The invariant -/

/-- What the atomics hold, correlation first, while the lock is where it is. -/
def stored : Option EchoSection → Option EchoCall → ℕ × ℕ
  | none, some call | some .posted, some call => (call.correlation, call.attempt)
  | some .stamped, some call | some (.clearing ..), some call => (0, call.attempt)
  | _, _ => (0, 0)

namespace Echo

/-- The pending call is the one that the reader of `attempt` was admitted for. -/
def Held (s : Echo) (attempt correlation : ℕ) : Prop :=
  s.running = true → s.current = some attempt →
    ∃ call, s.pending = some call ∧ call.attempt = attempt ∧ call.correlation = correlation

def Gone (s : Echo) (attempt : ℕ) : Prop := s.running = true → s.current ≠ some attempt

end Echo

def EchoReader.Reading : EchoReader → Prop
  | .loaded _ | .admitted _ => True
  | _ => False

def ReaderOk (s : Echo) (attempt : ℕ) : EchoReader → Prop
  | .loaded correlation => correlation ≠ 0 → s.Held attempt correlation
  | .admitted correlation => s.Held attempt correlation
  | .failing .orphaned | .concluding .orphaned | .judging .orphaned => s.Gone attempt
  | .quitting | .closing | .ended (some .orphaned) => s.running = false
  | _ => True

/-- A pending call that is being settled. -/
structure Clearing (s : Echo) (call : EchoCall) (outcome : EchoOutcome) (owner : Option ℕ) :
    Prop where
  own : ∀ attempt correlation ok, outcome = .answered attempt correlation ok →
    call.attempt = attempt ∧ call.correlation = correlation
  held : owner = none → s.holder ≠ none
  reader : ∀ attempt, owner = some attempt →
    call.attempt = attempt ∧ ∀ r, s.readers attempt = some r → ¬ r.Reading

def EchoSection.Posting : EchoSection → Prop
  | .begun | .stamped | .posted => True
  | _ => False

structure EchoInv (s : Echo) : Prop where
  atomics : (s.correlation, s.attempt) = stored s.inside s.pending
  inside : s.inside ≠ none → s.pending ≠ none
  minted : ∀ call, s.pending = some call → call.correlation ≠ 0
  calls : (s.settled.map Prod.fst ++ s.pending.toList).Perm s.calls
  serials : s.calls.map EchoCall.serial = List.range s.calls.length
  own : ∀ call attempt correlation ok, (call, .answered attempt correlation ok) ∈ s.settled →
    call.attempt = attempt ∧ call.correlation = correlation
  clearing : ∀ call outcome owner, s.pending = some call →
    s.inside = some (.clearing outcome owner) ∨ s.inside = some (.cleared outcome owner) →
      Clearing s call outcome owner
  posting : ∀ call place, s.pending = some call → s.inside = some place → place.Posting →
    s.holder = some .calling ∧ s.current = some call.attempt
  pendingCurrent : ∀ call, s.pending = some call → s.running = true →
    s.current = some call.attempt ∨ s.holder = some (.retiring call.attempt)
  retiring : ∀ attempt, s.holder = some (.retiring attempt) → s.current = none
  last : ∀ attempt, s.current = some attempt → attempt ≤ s.lastAttempt
  readers : ∀ attempt r, s.readers attempt = some r → attempt ≤ s.lastAttempt ∧ ReaderOk s attempt r
  stopped : s.stopped = true → s.pending = none ∧ s.current = none

section Steps

variable {s s' : Echo}

/-! ## Readers -/

variable {attempt : ℕ} {before reader : EchoReader} {outcome : EchoOutcome} {owner : Option ℕ}

/-- A reader goes on believing what it did, where its generation was live before. -/
theorem ReaderOk.of_live {r : EchoReader} (h : ReaderOk s attempt r)
    (hru : s'.running = true → s.running = true)
    (hl : s'.running = true → s'.current = some attempt → s.current = some attempt ∧
      (r.Reading → s'.pending = s.pending)) :
    ReaderOk s' attempt r := by
  have hh : ∀ correlation, r.Reading → s.Held attempt correlation → s'.Held attempt correlation := by
    intro correlation hrdg hh hr hc
    obtain ⟨hb, hp⟩ := hl hr hc
    rw [hp hrdg]
    exact hh (hru hr) hb
  have hg : s.Gone attempt → s'.Gone attempt := fun hg hr hc => hg (hru hr) (hl hr hc).1
  have hov : s.running = false → s'.running = false := fun hov =>
    eq_false_of_ne_true fun hr => nomatch hov.symm.trans (hru hr)
  cases r with
  | loaded correlation => exact fun hne => hh correlation trivial (h hne)
  | admitted correlation => exact hh correlation trivial h
  | failing fault | concluding fault | judging fault => cases fault with
    | orphaned => exact hg h
    | _ => trivial
  | ended result =>
    cases result with
    | none => trivial
    | some fault => cases fault with
      | orphaned => exact hov h
      | _ => trivial
  | quitting | closing => exact hov h
  | idle => trivial

theorem setReader_self (s : Echo) (attempt : ℕ) (reader : EchoReader) :
    (s.setReader attempt reader).readers attempt = some reader := if_pos rfl

theorem setReader_of_ne (s : Echo) {other : ℕ} (reader : EchoReader) (h : other ≠ attempt) :
    (s.setReader attempt reader).readers other = s.readers other := if_neg h

/-- One reader goes on; what it believes now has to be shown. -/
theorem EchoInv.setReader (h : EchoInv s) (hb : s.readers attempt = some before)
    (hok : ReaderOk s attempt reader)
    (ho : ∀ call outcome, s.pending = some call → reader.Reading →
      s.inside ≠ some (.clearing outcome (some attempt)) ∧
      s.inside ≠ some (.cleared outcome (some attempt))) :
    EchoInv (s.setReader attempt reader) := by
  refine ⟨h.atomics, h.inside, h.minted, h.calls, h.serials, h.own, ?_, h.posting,
    h.pendingCurrent, h.retiring, h.last, ?_, h.stopped⟩
  · intro call outcome owner hp hins
    obtain ⟨hown, hh, hrdr⟩ := h.clearing call outcome owner hp hins
    refine ⟨hown, hh, ?_⟩
    rintro other rfl
    refine ⟨(hrdr other rfl).1, fun r hr hrdg => ?_⟩
    by_cases hs : other = attempt
    · subst hs
      rw [setReader_self] at hr
      cases hr
      obtain ⟨hcl, hclr⟩ := ho call outcome hp hrdg
      rcases hins with hins | hins
      · exact hcl hins
      · exact hclr hins
    · rw [setReader_of_ne s reader hs] at hr
      exact (hrdr other rfl).2 r hr hrdg
  · intro other r hr
    by_cases hs : other = attempt
    · subst hs
      rw [setReader_self] at hr
      cases hr
      exact ⟨(h.readers other before hb).1, hok⟩
    · rw [setReader_of_ne s reader hs] at hr
      exact h.readers other r hr

theorem EchoInv.outside (h : EchoInv s) (ho : s.outside attempt = true) (outcome : EchoOutcome) :
    s.inside ≠ some (.clearing outcome (some attempt)) ∧
      s.inside ≠ some (.cleared outcome (some attempt)) := by
  unfold Echo.outside at ho
  constructor
  · intro hins
    rw [hins] at ho
    simp at ho
  · intro hins
    rw [hins] at ho
    simp at ho

/-! ## The lock of the pending call -/

/-- The holder of the lock goes on, and the atomics with it. -/
theorem EchoInv.advance (h : EchoInv s) {call : EchoCall} {correlation : ℕ} {place : EchoSection}
    (hp : s.pending = some call)
    (hatom : (correlation, attempt) = stored (some place) (some call))
    (hcl : ∀ outcome owner, place = .clearing outcome owner ∨ place = .cleared outcome owner →
      Clearing s call outcome owner)
    (hps : place.Posting → s.holder = some .calling ∧ s.current = some call.attempt) :
    EchoInv { s with
      attempt := attempt
      correlation := correlation
      inside := some place } := by
  refine ⟨?_, ?_, h.minted, h.calls, h.serials, h.own, ?_, ?_, h.pendingCurrent, h.retiring, h.last,
    ?_, h.stopped⟩
  · rw [hp]
    exact hatom
  · intro _
    rw [hp]
    simp
  · intro call' outcome owner hp' hpl
    cases hp.symm.trans hp'
    obtain ⟨hown, hh, hrdr⟩ := hcl outcome owner (hpl.imp Option.some.inj Option.some.inj)
    exact ⟨hown, hh, hrdr⟩
  · intro call' place' hp' hpl hpo
    cases hp.symm.trans hp'
    cases hpl
    exact hps hpo
  · exact fun other r hr =>
      ⟨(h.readers other r hr).1, (h.readers other r hr).2.of_live id fun _ hc => ⟨hc, fun _ => rfl⟩⟩

/-- The pending call is about to be settled; what its owner reads is over. -/
theorem EchoInv.startClearing (h : EchoInv s) {call : EchoCall} (hpe : s.pending = some call)
    (hatt : s.attempt = call.attempt) (hcl : Clearing s call outcome owner) :
    EchoInv { s with
      correlation := 0
      inside := some (.clearing outcome owner) } := by
  refine h.advance hpe ?_ ?_ (fun hp => hp.elim)
  · rw [hatt]
    rfl
  · rintro outcome' owner' (hpl | hpl)
    · cases hpl
      exact hcl
    · exact nomatch hpl

theorem EchoInv.attempt_of_free (h : EchoInv s) {call : EchoCall} (hp : s.pending = some call)
    (hins : s.inside = none) : s.attempt = call.attempt := by
  have hatom := h.atomics
  rw [hins, hp] at hatom
  exact (Prod.mk.inj hatom).2

/-- What `fail_pending_echo` does. -/
theorem failPending_cases (s : Echo) (attempt owner : Option ℕ) :
    s.failPending attempt owner = s ∧
        (∀ call, s.pending = some call → attempt ≠ none ∧ attempt ≠ some call.attempt) ∨
      ∃ call, s.pending = some call ∧ (attempt = none ∨ attempt = some call.attempt) ∧
        s.failPending attempt owner = { s with
          correlation := 0
          inside := some (.clearing .retired owner) } := by
  unfold Echo.failPending
  cases hp : s.pending with
  | none => exact .inl ⟨rfl, nofun⟩
  | some call =>
    by_cases ho : attempt ≠ none ∧ attempt ≠ some call.attempt
    · refine .inl ⟨if_pos ho, ?_⟩
      rintro call' hc
      cases hc
      exact ho
    · refine .inr ⟨call, rfl, ?_, if_neg ho⟩
      rcases not_and_or.mp ho with hn | hs
      · exact .inl (not_not.mp hn)
      · exact .inr (not_not.mp hs)

/-- A reader's thread fails the pending call of its generation and goes on elsewhere. -/
theorem EchoInv.failOwn (h : EchoInv s) (hins : s.inside = none)
    (hb : s.readers attempt = some before) (hq : ¬ reader.Reading)
    (hok : ∀ s' : Echo, s'.running = s.running → s'.current = s.current →
      ReaderOk s' attempt reader) :
    EchoInv ((s.failPending (some attempt) (some attempt)).setReader attempt reader) := by
  have hset : EchoInv (s.setReader attempt reader) := by
    refine h.setReader hb (hok s rfl rfl) ?_
    exact fun _ _ _ hrdg => absurd hrdg hq
  rcases failPending_cases s (some attempt) (some attempt) with
    ⟨hsa, -⟩ | ⟨call, hp, hatt, hf⟩
  · rw [hsa]
    exact hset
  · rw [hf]
    have hp' : (s.setReader attempt reader).pending = some call := hp
    refine hset.startClearing hp' (h.attempt_of_free hp hins) ⟨?_, ?_, ?_⟩
    · exact nofun
    · exact nofun
    · rintro other ho
      cases ho
      have hc : call.attempt = attempt := by
        rcases hatt with hn | hs
        · exact nomatch hn
        · exact (Option.some.inj hs).symm
      refine ⟨hc, fun r hr hrdg => ?_⟩
      rw [setReader_self] at hr
      cases hr
      exact hq hrdg

theorem EchoInv.release (h : EchoInv s) {call : EchoCall} (hp : s.pending = some call)
    (hins : s.inside = some (.cleared outcome owner)) :
    EchoInv (s.release call outcome owner) := by
  obtain ⟨hown, hh, hrdr⟩ := h.clearing call outcome owner hp (.inr hins)
  have hatom := h.atomics
  rw [hins, hp] at hatom
  have hca : ((s.settled ++ [(call, outcome)]).map Prod.fst ++ []).Perm s.calls := by
    have hb := h.calls
    rw [hp] at hb
    rw [map_append, append_nil]
    exact hb
  have hse : ∀ call' attempt correlation ok,
      (call', .answered attempt correlation ok) ∈ s.settled ++ [(call, outcome)] →
        call'.attempt = attempt ∧ call'.correlation = correlation := by
    intro call' attempt correlation ok hm
    rcases mem_snoc.mp hm with hol | he
    · exact h.own call' attempt correlation ok hol
    · cases he
      exact hown attempt correlation ok rfl
  cases owner with
  | some attempt =>
    refine ⟨hatom, fun hne => absurd rfl hne, nofun, hca, h.serials, hse, nofun, nofun,
      nofun, h.retiring, h.last, ?_, fun hs => ⟨rfl, (h.stopped hs).2⟩⟩
    intro other r hr
    obtain ⟨hl, hok⟩ := h.readers other r hr
    refine ⟨hl, ?_⟩
    -- the reader that the call belongs to is the owner, and reads no longer
    have hun : ∀ correlation, r.Reading → s.Held other correlation →
        s.running = true → s.current ≠ some other := by
      intro correlation hrdg hh' hru hc
      obtain ⟨call', hcall', hatt, -⟩ := hh' hru hc
      cases hp.symm.trans hcall'
      obtain ⟨ho, hq⟩ := hrdr attempt rfl
      have hsa : attempt = other := ho.symm.trans hatt
      exact hq r (hsa ▸ hr) hrdg
    cases r with
    | loaded correlation =>
      exact fun hne hru hc =>
        absurd hc (hun correlation trivial (hok hne) hru)
    | admitted correlation =>
      exact fun hru hc => absurd hc (hun correlation trivial hok hru)
    | _ =>
      exact hok.of_live id fun _ hc =>
        ⟨hc, fun hrdg => hrdg.elim⟩
  | none =>
    have hn := hh rfl
    unfold Echo.release
    rw [if_neg (by simp)]
    cases hho : s.holder with
    | none => exact absurd hho hn
    | some holder =>
      cases holder with
      | calling =>
        refine ⟨hatom, fun hne => absurd rfl hne, nofun, hca, h.serials, hse, nofun,
          nofun, nofun, fun _ _ => rfl, nofun,
          ?_, fun _ => ⟨rfl, rfl⟩⟩
        exact fun other r hr => ⟨(h.readers other r hr).1,
          (h.readers other r hr).2.of_live id nofun⟩
      | retiring attempt =>
        have hc := h.retiring attempt hho
        refine ⟨hatom, fun hne => absurd rfl hne, nofun, hca, h.serials, hse, nofun,
          nofun, nofun, nofun, h.last, ?_,
          fun _ => ⟨rfl, hc⟩⟩
        exact fun other r hr => ⟨(h.readers other r hr).1,
          (h.readers other r hr).2.of_live id fun _ hc' => nomatch hc.symm.trans hc'⟩
      | ending stop =>
        refine ⟨hatom, fun hne => absurd rfl hne, nofun, hca, h.serials, hse, nofun,
          nofun, nofun, nofun,
          nofun, ?_, fun _ => ⟨rfl, rfl⟩⟩
        exact fun other r hr => ⟨(h.readers other r hr).1,
          (h.readers other r hr).2.of_live id nofun⟩

/-- The call is begun, and its caller leaves the locks. -/
theorem EchoInv.posted (h : EchoInv s) {call : EchoCall} (hp : s.pending = some call)
    (hins : s.inside = some .posted) :
    EchoInv { s with
      inside := none
      holder := none } := by
  have hatom := h.atomics
  rw [hins, hp] at hatom
  obtain ⟨-, hc⟩ := h.posting call .posted hp hins trivial
  refine ⟨?_, fun hne => absurd rfl hne, h.minted, h.calls, h.serials, h.own, ?_,
    nofun, ?_, nofun, h.last, ?_,
    h.stopped⟩
  · rw [hp]
    exact hatom
  · rintro _ _ _ - (hpl | hpl) <;> exact nomatch hpl
  · intro call' hp' _
    cases hp.symm.trans hp'
    exact .inl hc
  · exact fun other r hr =>
      ⟨(h.readers other r hr).1, (h.readers other r hr).2.of_live id fun _ hl => ⟨hl, fun _ => rfl⟩⟩

theorem EchoInv.proceed (h : EchoInv s) (written : Bool) : EchoInv (s.proceed written) := by
  have hse : ∀ {place : EchoSection} {call : EchoCall}, s.pending = some call →
      s.inside = some place → (s.correlation, s.attempt) = stored (some place) (some call) := by
    intro place call hp hins
    rw [← hp, ← hins]
    exact h.atomics
  have hq : ∀ {place : EchoSection} {outcome : EchoOutcome} {owner : Option ℕ},
      place = .clearing outcome owner ∨ place = .cleared outcome owner → ¬ place.Posting := by
    rintro place outcome owner (rfl | rfl) hpo <;> exact hpo
  unfold Echo.proceed
  split
  · rename_i call hp hins
    obtain ⟨hco, -⟩ := Prod.mk.inj (hse hp hins)
    refine h.advance hp ?_ (fun _ _ hpl => absurd trivial (hq hpl))
      fun _ => h.posting call _ hp hins trivial
    rw [hco]
    rfl
  · rename_i call hp hins
    obtain ⟨-, hatt⟩ := Prod.mk.inj (hse hp hins)
    refine h.advance hp ?_ (fun _ _ hpl => absurd trivial (hq hpl))
      fun _ => h.posting call _ hp hins trivial
    rw [hatt]
    rfl
  · rename_i call hp hins
    split
    · exact h.posted hp hins
    · obtain ⟨-, hatt⟩ := Prod.mk.inj (hse hp hins)
      have hho := (h.posting call _ hp hins trivial).1
      refine h.startClearing hp hatt ⟨nofun, ?_, ?_⟩
      · exact fun _ => hho ▸ (by simp)
      · exact nofun
  · rename_i call outcome owner hp hins
    obtain ⟨hco, -⟩ := Prod.mk.inj (hse hp hins)
    refine h.advance hp ?_ ?_ (fun hpo => hpo.elim)
    · rw [hco]
      rfl
    · rintro outcome' owner' (hpl | hpl)
      · exact nomatch hpl
      · cases hpl
        exact h.clearing call outcome owner hp (.inl hins)
  · rename_i call outcome owner hp hins
    exact h.release hp hins
  · exact h

/-! ## Generations -/

theorem EchoInv.install (h : EchoInv s) (attempt : ℕ) : EchoInv (s.install attempt) := by
  unfold Echo.install
  split
  · rename_i hgu
    obtain ⟨hho, hru, hstpd, hc, hla⟩ := hgu
    have hi : s.pending = none := by
      cases hp : s.pending with
      | none => rfl
      | some call =>
        rcases h.pendingCurrent call hp hru with hl | hrtr
        · exact nomatch hc.symm.trans hl
        · exact nomatch hho.symm.trans hrtr
    refine ⟨h.atomics, h.inside, h.minted, h.calls, h.serials, h.own, ?_, ?_, ?_, ?_, ?_, ?_, ?_⟩
    · exact fun _ _ _ hp => nomatch hi.symm.trans hp
    · exact fun _ _ hp => nomatch hi.symm.trans hp
    · exact fun _ hp => nomatch hi.symm.trans hp
    · exact fun _ hrtr => nomatch hho.symm.trans hrtr
    · intro other ho
      cases ho
      exact Nat.le_refl _
    · intro other r hr
      by_cases hs : other = attempt
      · subst hs
        cases (setReader_self _ _ _).symm.trans hr
        exact ⟨Nat.le_refl _, trivial⟩
      · have hol := (setReader_of_ne _ _ hs).symm.trans hr
        obtain ⟨hle, hok⟩ := h.readers other r hol
        refine ⟨Nat.le_trans hle (Nat.le_of_lt hla), hok.of_live id fun _ ho => ?_⟩
        exact absurd (Option.some.inj ho).symm hs
    · exact fun hst => absurd hst hstpd
  · exact h

theorem mint_ne_zero (next : ℕ) : (Echo.mint next).1 ≠ 0 := by
  unfold Echo.mint
  split
  · exact Nat.one_ne_zero
  · assumption

section

variable (h : EchoInv s)
include h

theorem EchoInv.call : EchoInv s.call := by
  unfold Echo.call
  split
  · exact h
  rename_i attempt hcu
  split
  · rename_i hgu
    obtain ⟨hho, hins, hru, hi⟩ := hgu
    have hatom := h.atomics
    rw [hins, hi] at hatom
    refine ⟨hatom, fun _ => by simp, ?_, ?_, ?_, h.own, ?_, ?_, ?_, ?_, h.last, ?_, ?_⟩
    · intro call hc
      cases hc
      exact mint_ne_zero _
    · have hca := h.calls
      rw [hi, Option.toList_none, append_nil] at hca
      exact hca.append_right _
    · rw [map_append, h.serials, length_append, length_singleton, range_succ]
      rfl
    · rintro _ _ _ - (hpl | hpl) <;> exact nomatch hpl
    · intro call place hc _ _
      cases hc
      exact ⟨rfl, hcu⟩
    · intro call hc _
      cases hc
      exact .inl hcu
    · exact nofun
    · intro other r hr
      obtain ⟨hle, hok⟩ := h.readers other r hr
      refine ⟨hle, ?_⟩
      -- whoever reads for the current generation would have a pending call
      have hun : ∀ correlation, s.Held other correlation → s.current ≠ some other := by
        intro correlation hh hl
        obtain ⟨_, hp, -⟩ := hh hru hl
        exact nomatch hi.symm.trans hp
      cases r with
      | loaded correlation => exact fun hne _ hl => absurd hl (hun _ (hok hne))
      | admitted correlation => exact fun _ hl => absurd hl (hun _ hok)
      | _ => exact hok.of_live id fun _ hl => ⟨hl, fun hrdg => hrdg.elim⟩
    · exact fun hs => nomatch (h.stopped hs).2.symm.trans hcu
  · exact h

/-- The current generation goes, and with it what its reader believed. -/
theorem EchoInv.takeCurrent {holder : Option EchoHolder}
    (hpe : ∀ call, s.pending = some call → s.running = true →
      holder = some (.retiring call.attempt))
    (hh : s.inside ≠ none → s.holder ≠ none → holder ≠ none)
    (hi : s.inside ≠ none → s.holder ≠ some .calling) :
    EchoInv { s with
      current := none
      holder := holder } := by
  refine ⟨h.atomics, h.inside, h.minted, h.calls, h.serials, h.own, ?_, ?_, ?_, fun _ _ => rfl,
    nofun, ?_, fun hs => ⟨(h.stopped hs).1, rfl⟩⟩
  · intro call outcome owner hc hpl
    obtain ⟨hown, hb, hrdr⟩ := h.clearing call outcome owner hc hpl
    refine ⟨hown, fun ho => hh ?_ (hb ho), hrdr⟩
    rcases hpl with hpl | hpl <;> rw [hpl] <;> simp
  · intro call place hc hpl hp
    have hca := (h.posting call place hc hpl hp).1
    exact absurd hca (hi (by rw [hpl]; simp))
  · exact fun call hc hru => .inr (hpe call hc hru)
  · exact fun other r hr => ⟨(h.readers other r hr).1, (h.readers other r hr).2.of_live id nofun⟩

theorem EchoInv.retire : EchoInv s.retire := by
  unfold Echo.retire
  split
  · exact h
  rename_i attempt hc
  split
  · rename_i hgu
    obtain ⟨hho, hru⟩ := hgu
    refine h.takeCurrent ?_ (fun _ _ => by simp) (fun _ => by simp [hho])
    intro call hp _
    rcases h.pendingCurrent call hp hru with hl | hrtr
    · rw [Option.some.inj (hc.symm.trans hl)]
    · exact nomatch hho.symm.trans hrtr
  · exact h

theorem EchoInv.dropHolder (hins : s.inside = none)
    (hi : ∀ call, s.pending = some call → s.running = true → s.current = some call.attempt) :
    EchoInv { s with holder := none } := by
  refine ⟨h.atomics, h.inside, h.minted, h.calls, h.serials, h.own, ?_, ?_, ?_,
    nofun, h.last, ?_, h.stopped⟩
  · rintro _ _ _ - (hpl | hpl) <;> exact nomatch hins.symm.trans hpl
  · exact fun _ _ _ hpl => nomatch hins.symm.trans hpl
  · exact fun call hp hru => .inl (hi call hp hru)
  · exact fun other r hr => ⟨(h.readers other r hr).1, (h.readers other r hr).2.of_live
      id fun _ hc => ⟨hc, fun _ => rfl⟩⟩

theorem EchoInv.retireEcho : EchoInv s.retireEcho := by
  unfold Echo.retireEcho
  split
  · exact h
  rename_i hfr
  have hins : s.inside = none := not_not.mp hfr
  cases hho : s.holder with
  | none => exact h
  | some holder =>
    have hcl : ∀ call, Clearing s call .retired none := fun call =>
      ⟨nofun, fun _ => by simp [hho], nofun⟩
    have hf : ∀ {attempt : Option ℕ}, (s.failPending attempt none).inside ≠ none →
        EchoInv (s.failPending attempt none) := by
      intro attempt hne
      rcases failPending_cases s attempt none with ⟨hs, -⟩ | ⟨call, hp, -, hf⟩
      · rw [hs]
        exact h
      · rw [hf]
        exact h.startClearing hp (h.attempt_of_free hp hins) (hcl call)
    cases holder with
    | calling => exact h
    | retiring attempt =>
      dsimp only
      split
      · rename_i hne
        exact hf hne
      · rename_i hn
        refine h.dropHolder hins fun call hp hru => ?_
        rcases h.pendingCurrent call hp hru with hl | hrtr
        · exact hl
        · cases hho.symm.trans hrtr
          rcases failPending_cases s (some call.attempt) none with ⟨-, ho⟩ | ⟨_, _, _, hf⟩
          · exact absurd rfl (ho call hp).2
          · rw [hf] at hn
            exact absurd (by simp) hn
    | ending stop =>
      dsimp only
      split
      · rename_i hne
        exact hf hne
      · rename_i hn
        have hi : s.pending = none := by
          rcases failPending_cases s none none with ⟨-, ho⟩ | ⟨_, _, _, hf⟩
          · cases hp : s.pending with
            | none => rfl
            | some call => exact absurd rfl (ho call hp).1
          · rw [hf] at hn
            exact absurd (by simp) hn
        have ht : EchoInv { s with
            current := none
            holder := none } :=
          h.takeCurrent (fun _ hp => nomatch hi.symm.trans hp)
            (fun hne => absurd hins hne) (fun hne => absurd hins hne)
        exact ⟨ht.atomics, ht.inside, ht.minted, ht.calls, ht.serials,
          ht.own, (fun _ _ _ hp => nomatch hi.symm.trans hp), ht.posting,
          ht.pendingCurrent, ht.retiring, ht.last, fun other r hr =>
            ⟨(ht.readers other r hr).1, (ht.readers other r hr).2.of_live
              id nofun⟩, fun _ => ⟨hi, rfl⟩⟩

theorem EchoInv.finish (stop : Bool) : EchoInv (s.finish stop) := by
  unfold Echo.finish
  split
  · rename_i hgu
    have hho := hgu.1
    refine ⟨h.atomics, h.inside, h.minted, h.calls, h.serials, h.own, ?_, ?_, ?_,
      nofun, h.last, ?_, h.stopped⟩
    · intro call outcome owner hp hpl
      obtain ⟨hown, -, hrdr⟩ := h.clearing call outcome owner hp hpl
      exact ⟨hown, fun _ => by simp, hrdr⟩
    · intro call place hp hpl hpo
      exact nomatch hho.symm.trans (h.posting call place hp hpl hpo).1
    · intro call hp hru
      rcases h.pendingCurrent call hp hru with hl | hrtr
      · exact .inl hl
      · exact nomatch hho.symm.trans hrtr
    · exact fun other r hr => ⟨(h.readers other r hr).1, (h.readers other r hr).2.of_live
        id fun _ hc => ⟨hc, fun _ => rfl⟩⟩
  · exact h

theorem EchoInv.stopRunning : EchoInv { s with running := false } := by
  refine ⟨h.atomics, h.inside, h.minted, h.calls, h.serials, h.own, ?_, h.posting,
    nofun, h.retiring, h.last, ?_, h.stopped⟩
  · intro call outcome owner hp hpl
    obtain ⟨hown, hh, hrdr⟩ := h.clearing call outcome owner hp hpl
    exact ⟨hown, hh, hrdr⟩
  · exact fun other r hr => ⟨(h.readers other r hr).1, (h.readers other r hr).2.of_live nofun nofun⟩

theorem EchoInv.reserve (quit : Option ℕ) : EchoInv (s.reserve quit) := by
  unfold Echo.reserve
  split
  · cases quit with
    | none => exact h.stopRunning
    | some attempt =>
      dsimp only
      split
      · rename_i hqu
        obtain ⟨-, -, hrdr⟩ := hqu
        have hb : ({ s with running := false } : Echo).readers attempt = some .idle := hrdr
        exact h.stopRunning.setReader hb rfl fun _ _ _ hrdg => hrdg.elim
      · exact h
  · exact h

/-! ## The threads of the readers -/

theorem EchoInv.quit (attempt : ℕ) : EchoInv (s.quit attempt) := by
  unfold Echo.quit
  split
  · exact h
  split
  · rename_i hrdr
    have hov : s.running = false := (h.readers attempt _ hrdr).2
    split
    · exact h
    · rename_i hf
      refine h.failOwn (not_not.mp hf) hrdr id fun s' hru _ => ?_
      exact hru.trans hov
  · rename_i hrdr
    have hov : s.running = false := (h.readers attempt _ hrdr).2
    split
    · exact h
    · rename_i hho
      have hn : s.holder = none := not_not.mp hho
      have ht : EchoInv { s with
          current := none
          holder := s.holder } :=
        h.takeCurrent (fun _ _ hr => nomatch hov.symm.trans hr) (fun _ hne => hne)
          fun _ => by simp [hn]
      exact ht.setReader hrdr trivial fun _ _ _ hrdg => hrdg.elim
  · exact h

theorem EchoInv.loadCorrelation (attempt : ℕ) : EchoInv (s.loadCorrelation attempt) := by
  unfold Echo.loadCorrelation
  split
  · rename_i hgu
    obtain ⟨ho, hrdr⟩ := hgu
    refine h.setReader hrdr ?_ fun call outcome _ _ => h.outside ho outcome
    intro hne hr hc
    have hatom := h.atomics
    cases hp : s.pending with
    | none =>
      rw [hp] at hatom
      have hz : s.correlation = 0 := by
        cases hins : s.inside with
        | none =>
          rw [hins] at hatom
          exact (Prod.mk.inj hatom).1
        | some place => exact absurd hp (h.inside (by rw [hins]; simp))
      exact absurd hz hne
    | some call =>
      have hco : s.correlation = call.correlation := by
        rw [hp] at hatom
        cases hins : s.inside with
        | none =>
          rw [hins] at hatom
          exact (Prod.mk.inj hatom).1
        | some place =>
          rw [hins] at hatom
          cases place with
          | posted => exact (Prod.mk.inj hatom).1
          | _ => exact absurd (Prod.mk.inj hatom).1 hne
      refine ⟨call, rfl, ?_, hco.symm⟩
      rcases h.pendingCurrent call hp hr with hl | hrtr
      · exact Option.some.inj (hl.symm.trans hc)
      · exact nomatch (h.retiring _ hrtr).symm.trans hc
  · exact h

theorem EchoInv.admission (attempt correlation : ℕ) :
    EchoInv (s.admission attempt correlation) := by
  unfold Echo.admission
  split
  · rename_i pending hrdr
    split
    · rename_i hm
      have hh := (h.readers attempt _ hrdr).2 hm.1
      refine h.setReader hrdr hh fun call outcome hp _ => ?_
      -- a reader that reads holds no lock
      constructor <;> intro hpl
      · have hrdg := (h.clearing call outcome _ hp (.inl hpl)).reader attempt rfl
        exact absurd trivial (hrdg.2 _ hrdr)
      · have hrdg := (h.clearing call outcome _ hp (.inr hpl)).reader attempt rfl
        exact absurd trivial (hrdg.2 _ hrdr)
    · exact h.setReader hrdr trivial fun _ _ _ hrdg => hrdg.elim
  · exact h

theorem EchoInv.otherFrame (attempt : ℕ) : EchoInv (s.otherFrame attempt) := by
  unfold Echo.otherFrame
  split
  · rename_i hrdr
    exact h.setReader hrdr trivial fun _ _ _ hrdg => hrdg.elim
  · exact h

theorem EchoInv.settle (attempt : ℕ) (ok decodes : Bool) :
    EchoInv (s.settle attempt ok decodes) := by
  unfold Echo.settle
  split
  · rename_i correlation hrdr
    have hh : s.Held attempt correlation := (h.readers attempt _ hrdr).2
    have hor : s.Gone attempt → EchoInv (s.setReader attempt (.failing .orphaned)) :=
      fun hg => h.setReader hrdr hg fun _ _ _ hrdg => hrdg.elim
    split
    · exact h.setReader hrdr trivial fun _ _ _ hrdg => hrdg.elim
    · split
      · exact h
      · rename_i hf
        have hins : s.inside = none := not_not.mp hf
        split
        · rename_i hi
          refine hor fun hru hc => ?_
          obtain ⟨_, hp, -⟩ := hh hru hc
          exact nomatch hi.symm.trans hp
        · rename_i waiter hp
          split
          · rename_i ho
            refine hor fun hru hc => ?_
            obtain ⟨call, hca, hatt, hco⟩ := hh hru hc
            cases hp.symm.trans hca
            rcases ho with hne | hne
            · exact hne hatt
            · exact hne hco
          · rename_i hs
            obtain ⟨hatt, hco⟩ := not_or.mp hs
            have hset : EchoInv (s.setReader attempt .idle) :=
              h.setReader hrdr trivial fun _ _ _ hrdg => hrdg.elim
            have hp' : (s.setReader attempt .idle).pending = some waiter := hp
            refine hset.startClearing hp' (h.attempt_of_free hp hins) ⟨?_, ?_, ?_⟩
            · intro attempt' correlation' ok' he
              cases he
              exact ⟨not_not.mp hatt, not_not.mp hco⟩
            · exact nofun
            · rintro other ho
              cases ho
              refine ⟨not_not.mp hatt, fun r hr hrdg => ?_⟩
              rw [setReader_self] at hr
              cases hr
              exact hrdg
  · exact h

theorem EchoInv.leave (attempt : ℕ) : EchoInv (s.leave attempt) := by
  unfold Echo.leave
  split
  · split
    · rename_i hrdr
      exact h.setReader hrdr trivial fun _ _ _ hrdg => hrdg.elim
    · rename_i hrdr
      exact h.setReader hrdr trivial fun _ _ _ hrdg => hrdg.elim
    · rename_i hrdr
      exact h.setReader hrdr trivial fun _ _ _ hrdg => hrdg.elim
    · exact h
  · exact h

theorem EchoInv.disconnect (attempt : ℕ) : EchoInv (s.disconnect attempt) := by
  unfold Echo.disconnect
  split
  · rename_i hgu
    obtain ⟨hins, -, hrdr⟩ := hgu
    exact h.failOwn hins hrdr id fun _ _ _ => trivial
  · exact h

theorem EchoInv.linkFault (attempt : ℕ) : EchoInv (s.linkFault attempt) := by
  unfold Echo.linkFault
  split
  · split
    · rename_i hrdr
      exact h.setReader hrdr trivial fun _ _ _ hrdg => hrdg.elim
    · rename_i hrdr
      exact h.setReader hrdr trivial fun _ _ _ hrdg => hrdg.elim
    · exact h
  · exact h

theorem EchoInv.conclude (attempt : ℕ) : EchoInv (s.conclude attempt) := by
  unfold Echo.conclude
  split
  · exact h
  split
  · rename_i fault hrdr
    have hok := (h.readers attempt _ hrdr).2
    split
    · exact h
    · rename_i hf
      refine h.failOwn (not_not.mp hf) hrdr id fun s' hru hc => ?_
      cases fault with
      | orphaned =>
        intro hr hl
        have hg : s.Gone attempt := hok
        exact hg (hru ▸ hr) (hc ▸ hl)
      | _ => trivial
  · rename_i fault hrdr
    have hok := (h.readers attempt _ hrdr).2
    split
    · exact h
    · split
      · rename_i hc
        refine h.setReader hrdr ?_ fun _ _ _ hrdg => hrdg.elim
        cases fault with
        | orphaned =>
          have hg : s.Gone attempt := hok
          exact eq_false_of_ne_true fun hr => hg hr hc
        | _ => trivial
      · refine h.setReader hrdr ?_ fun _ _ _ hrdg => hrdg.elim
        cases fault with
        | orphaned => exact hok
        | _ => trivial
  · rename_i fault hrdr
    refine h.setReader hrdr ?_ fun _ _ _ hrdg => hrdg.elim
    cases hru : s.running with
    | true => trivial
    | false =>
      cases fault with
      | orphaned => exact hru
      | _ => trivial
  · exact h

end

end Steps

/-! ## Runs -/

theorem EchoInv.step {s : Echo} (h : EchoInv s) (event : EchoEvent) : EchoInv (s.step event) := by
  cases event with
  | install attempt => exact h.install attempt
  | call => exact h.call
  | proceed written => exact h.proceed written
  | loadCorrelation attempt => exact h.loadCorrelation attempt
  | admission attempt correlation => exact h.admission attempt correlation
  | otherFrame attempt => exact h.otherFrame attempt
  | settle attempt ok decodes => exact h.settle attempt ok decodes
  | leave attempt => exact h.leave attempt
  | disconnect attempt => exact h.disconnect attempt
  | linkFault attempt => exact h.linkFault attempt
  | conclude attempt => exact h.conclude attempt
  | retire => exact h.retire
  | retireEcho => exact h.retireEcho
  | reserve quit => exact h.reserve quit
  | quit attempt => exact h.quit attempt
  | finish stop => exact h.finish stop

theorem echoInv_start : EchoInv {} := by
  refine ⟨rfl, fun hne => absurd rfl hne, nofun, .nil, rfl, nofun, nofun, nofun, nofun,
    nofun, nofun,
    nofun, nofun⟩

theorem echoInv_run (events : List EchoEvent) : EchoInv (Echo.run events) := by
  induction events using reverseRecOn with
  | nil => exact echoInv_start
  | append_singleton events event ih =>
    have hr : Echo.run (events ++ [event]) = (Echo.run events).step event := by
      unfold Echo.run
      rw [foldl_append]
      rfl
    rw [hr]
    exact ih.step event

/-! ## The law -/

/-- What the atomics hold while nobody is inside the lock, correlation first. -/
def mirror : Option EchoCall → ℕ × ℕ
  | none => (0, 0)
  | some call => (call.correlation, call.attempt)

/-- What holds after a run. -/
structure EchoLaw (s : Echo) : Prop where
  mirrored : s.inside = none → (s.correlation, s.attempt) = mirror s.pending
  minted : ∀ call, s.pending = some call → call.correlation ≠ 0
  /-- A call is the pending one or has its one outcome. -/
  once : (s.settled.map Prod.fst ++ s.pending.toList).Perm s.calls ∧ s.calls.Nodup
  own : ∀ call attempt correlation ok, (call, .answered attempt correlation ok) ∈ s.settled →
    call.attempt = attempt ∧ call.correlation = correlation
  /-- After `stop_and_join` every call has its outcome. -/
  stopped : s.stopped = true → (s.settled.map Prod.fst).Perm s.calls
  /-- While the session runs, no frame that was admitted makes its reader fail. -/
  inert : s.running = true → ∀ attempt, s.readers attempt ≠ some (.ended (some .orphaned))

theorem echo_law (events : List EchoEvent) : EchoLaw (Echo.run events) := by
  have h := echoInv_run events
  refine ⟨?_, h.minted, ⟨h.calls, ?_⟩, h.own, ?_, ?_⟩
  · intro hins
    have hatom := h.atomics
    rw [hins] at hatom
    rw [hatom]
    cases (Echo.run events).pending <;> rfl
  · refine List.Nodup.of_map EchoCall.serial ?_
    rw [h.serials]
    exact nodup_range
  · intro hs
    have hc := h.calls
    rw [(h.stopped hs).1, Option.toList_none, append_nil] at hc
    exact hc
  · intro hru attempt hrdr
    exact nomatch hru.symm.trans (h.readers attempt _ hrdr).2

/-- A call of the first generation, whose reader has admitted the header of its Reply. -/
def admittedReply : List EchoEvent :=
  [.install 1, .call, .proceed true, .proceed true, .proceed true, .loadCorrelation 1,
    .admission 1 1]

/-- The session's cause is reserved, and the forced tail retires the call before its reader comes to
settle it. -/
def forcedTail : List EchoEvent :=
  [.reserve none, .finish false, .retireEcho, .proceed true, .proceed true, .settle 1 true true,
    .conclude 1, .conclude 1, .conclude 1]

/-- The reader of an admitted frame fails, and the failure stays. -/
theorem forced_tail_orphans :
    (Echo.run admittedReply).pending = some ⟨0, 1, 1⟩ ∧
      (Echo.run admittedReply).readers 1 = some (.admitted 1) ∧
        (Echo.run (admittedReply ++ forcedTail)).readers 1 = some (.ended (some .orphaned)) := by
  decide

end Keld.Session
