/-
# `Keld.Auth.BrokerSteps` — what a session keeps

`BrokerInv` says that the answered operations and those that are yet to be make
up the ones handed out, and that the table goes with the registry.  Each call is
answers to open operations (`BrokerInv.answers`), after which a job may be gone
(`BrokerInv.drain`) or a new one pushed (`BrokerInv.hand`).
-/
import Keld.Auth.BrokerPolls

namespace Keld.Auth

open List BrokerSession

/-! ## Logs -/

section Log

variable {log facts : List BrokerFact}

@[simp] theorem handed_append : handed (log ++ facts) = handed log ++ handed facts :=
  filterMap_append ..

@[simp] theorem answered_append : answered (log ++ facts) = answered log ++ answered facts :=
  filterMap_append ..

@[simp] theorem answered_eventFacts (events : List ResponseEvent) :
    answered (eventFacts events) = events.map Prod.fst := by
  unfold answered eventFacts
  rw [filterMap_map]
  exact congrFun filterMap_eq_map events

@[simp] theorem handed_eventFacts (events : List ResponseEvent) :
    handed (eventFacts events) = [] := by
  unfold handed eventFacts
  rw [filterMap_map, filterMap_eq_nil_iff]
  exact fun _ _ => rfl

theorem drained_notMem_eventFacts {events : List ResponseEvent} {serial : ℕ} :
    .drained serial ∉ eventFacts events := by
  intro hm
  obtain ⟨event, -, he⟩ := mem_map.mp hm
  cases he

/-- Answers to operations that are handed out and open are permitted. -/
theorem permitted_responses (h : Always BrokerPermitted log) (events : List ResponseEvent)
    (ho : ∀ serial ∈ events.map Prod.fst,
      serial ∈ handed log ∧ serial ∉ answered log ∧ .drained serial ∉ log)
    (hno : (events.map Prod.fst).Nodup) :
    Always BrokerPermitted (log ++ eventFacts events) := by
  induction events using reverseRecOn with
  | nil => rwa [eventFacts, map_nil, append_nil]
  | append_singleton events event ih =>
    rw [map_append] at ho hno
    obtain ⟨hevs, -, hf⟩ := nodup_append.mp hno
    have hea := ih (fun serial hser => ho serial (mem_append_left _ hser)) hevs
    have hc : eventFacts (events ++ [event]) =
        eventFacts events ++ [.response event.1 event.2] := map_append ..
    obtain ⟨hha, hans, hdrn⟩ := ho event.1 mem_concat_self
    rw [hc, ← append_assoc, always_snoc]
    refine ⟨hea, ?_, ?_, ?_⟩
    · simpa using hha
    · rw [answered_append, answered_eventFacts, mem_append, not_or]
      exact ⟨hans, fun hm => hf _ hm _ (mem_singleton_self _) rfl⟩
    · rw [mem_append, not_or]
      exact ⟨hdrn, drained_notMem_eventFacts⟩

end Log

/-! ## The invariant -/

structure BrokerInv (s : BrokerSession) : Prop where
  table : TableInv s.broker.registry s.broker.jobs
  accounted : (answered s.log ++ openOperations s.broker.jobs).Perm (handed s.log)
  handedOnce : (handed s.log).Nodup
  bound : ∀ serial ∈ handed s.log, serial ≤ s.broker.nextOperation
  distinct : (s.broker.jobs.map Prod.fst).Nodup
  owned : ∀ serial ∈ s.broker.jobs.map Prod.fst, serial ∈ handed s.log
  filled : ∀ slot ∈ s.broker.jobs, slot.2.isSome = true
  gone : ∀ serial, .drained serial ∈ s.log → serial ∉ s.broker.jobs.map Prod.fst
  permitted : Always BrokerPermitted s.log

theorem slotOpen_some (serial : ℕ) (job : Job) :
    slotOpen (serial, some job) = if job.isDone = true then none else some serial := rfl

theorem openOperations_subset {jobs : List Slot} {serial : ℕ} (h : serial ∈ openOperations jobs) :
    serial ∈ jobs.map Prod.fst := by
  obtain ⟨⟨n, job⟩, hm, hs⟩ := mem_filterMap.mp h
  cases job with
  | none => cases hs
  | some job =>
    rw [slotOpen_some] at hs
    split_ifs at hs
    cases hs
    exact mem_map_of_mem hm

namespace BrokerInv

variable {s : BrokerSession}

variable {serial : ℕ} {registry : SessionRegistry}

section

variable (h : BrokerInv s)
include h

theorem open_unanswered (ho : serial ∈ openOperations s.broker.jobs) :
    serial ∈ handed s.log ∧ serial ∉ answered s.log := by
  refine ⟨h.accounted.mem_iff.mp (mem_append_right _ ho), fun hans => ?_⟩
  exact (nodup_append.mp (h.accounted.nodup_iff.mpr h.handedOnce)).2.2 serial hans serial ho rfl

theorem answered_of_closed (hha : serial ∈ handed s.log)
    (hcl : serial ∉ openOperations s.broker.jobs) : serial ∈ answered s.log := by
  rcases mem_append.mp (h.accounted.mem_iff.mpr hha) with hans | ho
  · exact hans
  · exact absurd ho hcl

/-- Open operations are answered, and the table and the registry change with them. -/
theorem answers {jobs : List Slot} {events : List ResponseEvent} (ht : TableInv registry jobs)
    (hse : ∀ serial ∈ jobs.map Prod.fst, serial ∈ s.broker.jobs.map Prod.fst)
    (hdi : (jobs.map Prod.fst).Nodup) (hfi : ∀ slot ∈ jobs, slot.2.isSome = true)
    (hop : (openOperations s.broker.jobs).Perm (events.map Prod.fst ++ openOperations jobs))
    :
    BrokerInv (s.note
      { s.broker with
        registry := registry
        jobs := jobs } (eventFacts events)) where
  table := ht
  accounted := by
    change (answered (s.log ++ _) ++ openOperations jobs).Perm (handed (s.log ++ _))
    rw [answered_append, answered_eventFacts, handed_append, handed_eventFacts, append_nil,
      append_assoc]
    exact (hop.symm.append_left _).trans h.accounted
  handedOnce := by
    change (handed (s.log ++ _)).Nodup
    rw [handed_append, handed_eventFacts, append_nil]
    exact h.handedOnce
  bound serial hser := by
    change serial ∈ handed (s.log ++ _) at hser
    rw [handed_append, handed_eventFacts, append_nil] at hser
    exact h.bound serial hser
  distinct := hdi
  owned serial hser := by
    change serial ∈ handed (s.log ++ _)
    rw [handed_append]
    exact mem_append_left _ (h.owned serial (hse serial hser))
  filled := hfi
  gone serial hdrn hm := by
    rcases mem_append.mp hdrn with hb | hev
    · exact h.gone serial hb (hse serial hm)
    · exact drained_notMem_eventFacts hev
  permitted := by
    refine permitted_responses h.permitted events (fun serial hser => ?_) ?_
    · have ho : serial ∈ openOperations s.broker.jobs := hop.mem_iff.mpr (mem_append_left _ hser)
      obtain ⟨hha, hans⟩ := h.open_unanswered ho
      exact ⟨hha, hans, fun hdrn =>
        h.gone serial hdrn (openOperations_subset ho)⟩
    · have hno := (nodup_append.mp (h.accounted.nodup_iff.mpr h.handedOnce)).2.1
      exact (nodup_append.mp (hop.nodup_iff.mp hno)).1

/-- A note that says nothing of answers. -/
theorem quiet {facts : List BrokerFact} (hha : handed facts = []) (hans : answered facts = [])
    (hg : ∀ serial, .drained serial ∈ facts → serial ∉ s.broker.jobs.map Prod.fst)
    (hp : Always BrokerPermitted (s.log ++ facts)) :
    BrokerInv (s.note s.broker facts) := { h with
  accounted := by
    change (answered (s.log ++ facts) ++ _).Perm (handed (s.log ++ facts))
    rw [answered_append, handed_append, hha, hans, append_nil, append_nil]
    exact h.accounted
  handedOnce := by
    change (handed (s.log ++ facts)).Nodup
    rw [handed_append, hha, append_nil]
    exact h.handedOnce
  bound serial hser := by
    change serial ∈ handed (s.log ++ facts) at hser
    rw [handed_append, hha, append_nil] at hser
    exact h.bound serial hser
  owned serial hser := by
    change serial ∈ handed (s.log ++ facts)
    rw [handed_append]
    exact mem_append_left _ (h.owned serial hser)
  gone serial hdrn := by
    rcases mem_append.mp hdrn with hb | hf
    · exact h.gone serial hb
    · exact hg serial hf
  permitted := hp }

theorem drain (hha : serial ∈ handed s.log) (hg : serial ∉ s.broker.jobs.map Prod.fst) :
    BrokerInv (s.note s.broker [.drained serial]) := by
  have hcl : serial ∉ openOperations s.broker.jobs := fun ho =>
    hg (openOperations_subset ho)
  refine h.quiet rfl rfl (fun other hot => ?_) (always_snoc.mpr
    ⟨h.permitted, hha, h.answered_of_closed hha hcl⟩)
  cases mem_singleton.mp hot
  exact hg

theorem fault (serial : ℕ) (fault : HostFault) :
    BrokerInv (s.note s.broker [.faulted serial fault]) :=
  h.quiet rfl rfl (fun _ hm => nomatch mem_singleton.mp hm) (always_snoc.mpr ⟨h.permitted, trivial⟩)

theorem follow (ho : serial ∈ openOperations s.broker.jobs) :
    BrokerInv (s.note s.broker [.followed serial]) :=
  h.quiet rfl rfl (fun _ hm => nomatch mem_singleton.mp hm)
    (always_snoc.mpr ⟨h.permitted, h.open_unanswered ho⟩)

/-- Nothing happened but that a number was taken. -/
theorem skip {next : ℕ} (hn : s.broker.nextOperation ≤ next) :
    BrokerInv (s.note { s.broker with nextOperation := next } []) := by
  have hl : s.log ++ [] = s.log := append_nil _
  exact
    { table := h.table
      accounted := by
        change (answered (s.log ++ []) ++ _).Perm (handed (s.log ++ []))
        rw [hl]
        exact h.accounted
      handedOnce := by
        change (handed (s.log ++ [])).Nodup
        rw [hl]
        exact h.handedOnce
      bound := fun serial hser => by
        change serial ∈ handed (s.log ++ []) at hser
        rw [hl] at hser
        exact (h.bound serial hser).trans hn
      distinct := h.distinct
      owned := fun serial hser => by
        change serial ∈ handed (s.log ++ [])
        rw [hl]
        exact h.owned serial hser
      filled := h.filled
      gone := fun serial hdrn => by
        change _ ∈ s.log ++ [] at hdrn
        rw [hl] at hdrn
        exact h.gone serial hdrn
      permitted := by
        change Always BrokerPermitted (s.log ++ [])
        rw [hl]
        exact h.permitted }

/-- An operation is handed out, and its job is open. -/
theorem hand {job : Job} (ht : TableInv registry (s.broker.jobs ++ [(serial, some job)]))
    (hser : s.broker.nextOperation < serial) (hop : job.isDone = false) :
    BrokerInv (s.note
      { s.broker with
        registry := registry
        nextOperation := serial
        jobs := s.broker.jobs ++ [(serial, some job)] } [.pending serial]) := by
  have hf : serial ∉ handed s.log := fun hm => (h.bound serial hm).not_gt hser
  have hha : handed (s.log ++ [BrokerFact.pending serial]) = handed s.log ++ [serial] :=
    handed_append
  exact
    { table := ht
      accounted := by
        have hs : openOperations [(serial, some job)] = [serial] := by
          unfold openOperations
          rw [filterMap_cons_some (by rw [slotOpen_some, hop]; rfl), filterMap_nil]
        change (answered (s.log ++ _) ++ openOperations (_ ++ _)).Perm (handed (s.log ++ _))
        unfold openOperations at hs ⊢
        rw [hha, answered_append, filterMap_append, hs, ← append_assoc]
        refine List.Perm.append_right [serial] ?_
        rw [show answered [BrokerFact.pending serial] = [] from rfl, append_nil]
        exact h.accounted
      handedOnce := by
        change (handed (s.log ++ _)).Nodup
        rw [hha]
        refine nodup_append.mpr ⟨h.handedOnce, nodup_singleton _, ?_⟩
        rintro a ha b hb rfl
        rw [mem_singleton.mp hb] at ha
        exact hf ha
      bound := fun other ho => by
        change other ∈ handed (s.log ++ _) at ho
        rw [hha] at ho
        rcases mem_snoc.mp ho with hol | hn
        · exact (h.bound other hol).trans hser.le
        · exact hn.le
      distinct := by
        change ((s.broker.jobs ++ [(serial, some job)]).map Prod.fst).Nodup
        rw [map_append]
        refine nodup_append.mpr ⟨h.distinct, nodup_singleton _, ?_⟩
        rintro a ha b hb rfl
        rw [mem_singleton.mp hb] at ha
        exact hf (h.owned _ ha)
      owned := fun other ho => by
        change other ∈ (s.broker.jobs ++ [(serial, some job)]).map Prod.fst at ho
        rw [map_append] at ho
        change other ∈ handed (s.log ++ _)
        rw [hha]
        rcases mem_append.mp ho with hol | hn
        · exact mem_append_left _ (h.owned other hol)
        · exact mem_append_right _ hn
      filled := fun slot hs => by
        rcases mem_snoc.mp hs with hol | he
        · exact h.filled slot hol
        · cases he
          rfl
      gone := fun other ho hm => by
        have hol := mem_of_snoc ho nofun
        change other ∈ (s.broker.jobs ++ [(serial, some job)]).map Prod.fst at hm
        rw [map_append] at hm
        rcases mem_append.mp hm with hjob | hjob
        · exact h.gone other hol hjob
        · -- What drained was handed out, and this one is new.
          obtain ⟨before, after, hl, hhand, -⟩ := h.permitted.of_mem hol
          cases mem_singleton.mp hjob
          refine hf ?_
          rw [hl, handed_append]
          exact mem_append_left _ hhand
      permitted := always_snoc.mpr ⟨h.permitted, hf⟩ }

end

end BrokerInv

end Keld.Auth
