/-
# `Keld.Auth.BrokerSafety` — each call keeps the invariant

A poll takes its job out of its slot and puts it back, or closes the gap with
the last slot; up to the order of the slots the job is in front either way
(`settle_perm`).
-/
import Keld.Auth.BrokerSteps
import Mathlib.Data.List.Perm.Basic

namespace Keld.Auth

open List AuthBroker BrokerSession TableInv SessionRegistry

/-! ## Slots -/

/-- The slots once a job is put back. -/
def Progress.keeps (slot : Slot) (rest : List Slot) : Progress → List Slot
  | .drained => rest
  | _ => slot :: rest

theorem swapRemove_perm {α : Type} {l : List α} {index : ℕ} (h : index < l.length) :
    (swapRemove l index).Perm (l.eraseIdx index) := by
  obtain ⟨front, last, rfl⟩ : ∃ front last, l = front ++ [last] := by
    rcases eq_nil_or_concat l with rfl | hco
    · exact absurd h (Nat.not_lt_zero _)
    · simpa only [concat_eq_append] using hco
  unfold swapRemove
  rw [getLast?_concat]
  dsimp only
  -- The last element is still there after the set, so that dropping it leaves the rest.
  have hset : ∃ front', (front ++ [last]).set index last = front' ++ [last] := by
    by_cases hfr : index < front.length
    · exact ⟨front.set index last, set_append_left _ _ hfr⟩
    · refine ⟨front, ?_⟩
      have hin : index = front.length := by
        rw [length_append, length_singleton] at h
        omega
      rw [set_append_right _ _ (Nat.le_of_not_lt hfr), hin, Nat.sub_self]
      rfl
  obtain ⟨front', hfr'⟩ := hset
  have hp := set_perm_cons_eraseIdx h last
  rw [hfr'] at hp ⊢
  rw [dropLast_concat]
  exact ((perm_append_singleton last front').symm.trans hp).cons_inv

namespace AuthBroker

variable {b : AuthBroker}

variable {serial : ℕ}

theorem position_spec {index : ℕ} (h : b.position serial = some index) :
    ∃ job, b.jobs[index]? = some (serial, job) := by
  obtain ⟨hin, hs, -⟩ := findIdx?_eq_some_iff_getElem.mp h
  refine ⟨b.jobs[index].2, ?_⟩
  rw [List.getElem?_eq_getElem hin]
  have hser : b.jobs[index].1 = serial := by simpa using hs
  rw [← hser]

theorem position_none (h : b.position serial = none) : serial ∉ b.jobs.map Prod.fst := by
  unfold position at h
  rw [findIdx?_eq_none_iff] at h
  intro hm
  obtain ⟨slot, hs, he⟩ := mem_map.mp hm
  simpa [he] using h slot hs

theorem slots_perm {jobs : List Slot} {index : ℕ} {slot : Slot} (h : jobs[index]? = some slot) :
    jobs.Perm (slot :: jobs.eraseIdx index) := by
  obtain ⟨hin, he⟩ := List.getElem?_eq_some_iff.mp h
  rw [← he]
  exact (getElem_cons_eraseIdx_perm hin).symm

theorem settle_perm {index : ℕ} (serial : ℕ) (job : Job) (progress : Progress)
    (hin : index < b.jobs.length) :
    (b.settle index serial job progress).jobs.Perm
      (progress.keeps (serial, some job) (b.jobs.eraseIdx index)) := by
  cases progress with
  | pending | hostFault => exact set_perm_cons_eraseIdx hin _
  | drained => exact swapRemove_perm hin

theorem poll_begin {id : OperationId} {owners : Owners} {index : ℕ} {job : BeginJob}
    {result : (Progress × BeginJob × List ReadyResponse) × SessionRegistry}
    (ho : id.owner = b.owner) (hhe : b.position id.serial = some index)
    (hs : b.jobs[index]? = some (id.serial, some (.begin job)))
    (hres : pollBegin b.registry id job owners = result) :
    b.poll id owners =
      (result.1.1, result.1.2.2.map fun response => (id.serial, response),
        ({ b with
          registry := result.2
          jobs := b.jobs.set index (id.serial, none) } : AuthBroker).settle index id.serial
            (.begin result.1.2.1) result.1.1) := by
  subst hres
  unfold poll
  rw [if_neg (not_not.mpr ho), hhe]
  dsimp only
  rw [hs]

theorem poll_token {id : OperationId} {owners : Owners} {index : ℕ} {job : TokenJob}
    {result : Progress × TokenPoll} (ho : id.owner = b.owner)
    (hhe : b.position id.serial = some index)
    (hs : b.jobs[index]? = some (id.serial, some (.token job)))
    (hres : ({ registry := b.registry
               jobs := b.jobs.set index (id.serial, none)
               job := job } : TokenPoll).poll id.serial owners = result) :
    b.poll id owners =
      (result.1, result.2.events,
        ({ b with
          registry := result.2.registry
          jobs := result.2.jobs } : AuthBroker).settle index id.serial (.token result.2.job)
            result.1) := by
  subst hres
  unfold poll
  rw [if_neg (not_not.mpr ho), hhe]
  dsimp only
  rw [hs]

theorem settle_eq (index serial : ℕ) (job : Job) (progress : Progress) :
    b.settle index serial job progress =
      { b with
        registry := progress.leaves b.registry
        jobs := (b.settle index serial job progress).jobs } := by
  cases progress <;> rfl

end AuthBroker

theorem BrokerSession.note_note (s : BrokerSession) (broker broker' : AuthBroker)
    (facts facts' : List BrokerFact) :
    (s.note broker facts).note broker' facts' = s.note broker' (facts ++ facts') := by
  unfold note
  rw [append_assoc]

namespace BrokerInv

variable {s : BrokerSession}

variable {serial : ℕ} {jobs : List Slot} {registry : SessionRegistry} {flight : FlightId}

/-- A job was polled: what it answered, what it is now, and what is left of the others. -/
theorem settled (h : BrokerInv s) {index : ℕ} {job job' : Job} {events : List ResponseEvent}
    {progress : Progress} (hs : s.broker.jobs[index]? = some (serial, some job))
    (hse : jobs.map Prod.fst = s.broker.jobs.map Prod.fst)
    (hfi : ∀ slot ∈ jobs.eraseIdx index, slot.2.isSome = true)
    (ht : TableInv (progress.leaves registry)
      (progress.keeps (serial, some job') (jobs.eraseIdx index)))
    (hop : (openOperations s.broker.jobs).Perm
      (events.map Prod.fst ++ openOperations (progress.keeps (serial, some job') (jobs.eraseIdx index)))) :
    BrokerInv (s.note
      (({ s.broker with
        registry := registry
        jobs := jobs } : AuthBroker).settle index serial job' progress)
      (eventFacts events ++ progress.facts serial)) := by
  have hl : index < jobs.length := by
    rw [← length_map Prod.fst, hse, length_map]
    exact (List.getElem?_eq_some_iff.mp hs).1
  have hser : jobs[index].1 = serial := by
    have hmap : (jobs.map Prod.fst)[index]? = some serial := by
      rw [hse, getElem?_map, hs]
      rfl
    rw [getElem?_map, List.getElem?_eq_getElem hl] at hmap
    simpa using hmap
  have ha : (serial :: (jobs.eraseIdx index).map Prod.fst).Perm (s.broker.jobs.map Prod.fst) := by
    have hpi := (getElem_cons_eraseIdx_perm hl).map Prod.fst
    rwa [map_cons, hser, hse] at hpi
  have hno := ha.nodup_iff.mpr h.distinct
  have hk : ∀ other ∈ (progress.keeps (serial, some job') (jobs.eraseIdx index)).map Prod.fst,
      other ∈ serial :: (jobs.eraseIdx index).map Prod.fst := by
    intro other ho
    cases progress with
    | drained => exact mem_cons_of_mem _ ho
    | pending | hostFault => exact ho
  -- Up to their order the slots are those that are kept.
  have hp := settle_perm (b := { s.broker with
    registry := registry
    jobs := jobs }) serial job' progress hl
  rw [settle_eq]
  generalize (settle { s.broker with
    registry := registry
    jobs := jobs } index serial job' progress).jobs = jobs' at hp ⊢
  have han := h.answers (ht.perm hp.symm)
    (fun other ho => ha.mem_iff.mp (hk other ((hp.map Prod.fst).mem_iff.mp ho)))
    (by
      rw [(hp.map Prod.fst).nodup_iff]
      cases progress with
      | drained => exact (nodup_cons.mp hno).2
      | pending => exact hno
      | hostFault _ => exact hno)
    (fun slot hm => by
      have hke := hp.mem_iff.mp hm
      cases progress with
      | drained => exact hfi slot hke
      | pending =>
        rcases mem_cons.mp hke with rfl | hr
        · rfl
        · exact hfi slot hr
      | hostFault _ =>
        rcases mem_cons.mp hke with rfl | hr
        · rfl
        · exact hfi slot hr)
    (hop.trans ((hp.filterMap slotOpen).symm.append_left _))
  cases progress with
  | pending => rwa [show Progress.facts serial .pending = [] from rfl, append_nil]
  | drained =>
    rw [← note_note]
    refine han.drain ?_ ?_
    · change serial ∈ handed (s.log ++ _)
      rw [handed_append]
      exact mem_append_left _ (h.owned serial (ha.mem_iff.mp mem_cons_self))
    · intro hm
      exact (nodup_cons.mp hno).1 ((hp.map Prod.fst).mem_iff.mp hm)
  | hostFault fault =>
    rw [← note_note]
    exact han.fault serial fault

/-- What a poll of a begin job answers comes out of the open operations. -/
theorem operations_begin {job : BeginJob} {rest : List Slot}
    {result : Progress × BeginJob × List ReadyResponse}
    (hpo : BeginPolled job.logicalDone result) :
    (openOperations ((serial, some (.begin job)) :: rest)).Perm
      ((result.2.2.map fun response => (serial, response)).map Prod.fst ++
        openOperations (result.1.keeps (serial, some (.begin result.2.1)) rest)) := by
  have hc : ∀ other : BeginJob, openOperations ((serial, some (.begin other)) :: rest) =
      (if other.logicalDone = true then [] else [serial]) ++ openOperations rest := by
    intro other
    unfold openOperations
    by_cases hd : other.logicalDone = true
    · rw [if_pos hd, filterMap_cons_none (by rw [slotOpen_some]; exact if_pos hd)]
      rfl
    · rw [if_neg hd, filterMap_cons_some (by rw [slotOpen_some]; exact if_neg hd)]
      rfl
  have hke : openOperations (result.1.keeps (serial, some (.begin result.2.1)) rest) =
      (if result.2.1.logicalDone = true then [] else [serial]) ++ openOperations rest := by
    cases hpr : result.1 with
    | drained =>
      rw [if_pos (hpo.drained hpr)]
      rfl
    | pending | hostFault => exact hc _
  rw [hc, hke]
  rcases hpo.responses with ⟨hre, hd⟩ | ⟨response, hre, hd, hd'⟩
  · rw [hre, hd]
    exact List.Perm.refl _
  · rw [hre, hd, hd']
    exact List.Perm.refl _

theorem filled_rest (h : BrokerInv s) (index : ℕ) :
    ∀ slot ∈ s.broker.jobs.eraseIdx index, slot.2.isSome = true :=
  fun slot hs => h.filled slot (mem_of_mem_eraseIdx hs)

/-- The slots while a job is in hand have the same operations. -/
theorem serials_set {index : ℕ} {job : Option Job} (hs : jobs[index]? = some (serial, job)) :
    (jobs.set index (serial, none)).map Prod.fst = jobs.map Prod.fst := by
  obtain ⟨hin, he⟩ := List.getElem?_eq_some_iff.mp hs
  rw [map_set]
  refine ext_getElem (length_set ..) fun i hi hi' => ?_
  rw [getElem_set]
  split_ifs with hsa
  · subst hsa
    rw [getElem_map, he]
  · rfl

section

variable (h : BrokerInv s)
include h

theorem polled_begin {index : ℕ} {id : OperationId} {job : BeginJob}
    (hs : s.broker.jobs[index]? = some (id.serial, some (.begin job))) (owners : Owners)
    (hhe : s.broker.position id.serial = some index) (ho : id.owner = s.broker.owner) :
    BrokerInv (s.note (s.broker.poll id owners).2.2
      (eventFacts (s.broker.poll id owners).2.1 ++
        (s.broker.poll id owners).1.facts id.serial)) := by
  have hcut := h.table.perm (slots_perm hs)
  obtain ⟨hr, hb⟩ := cons_begin_iff.mp hcut
  have hpo := pollBegin_polled owners s.broker.registry id rfl hb
  have ht := pollBegin_table hr id job owners
  rw [poll_begin ho hhe hs rfl]
  generalize pollBegin s.broker.registry id job owners = result at hpo ht ⊢
  obtain ⟨⟨progress, job', responses⟩, registry⟩ := result
  refine h.settled hs (serials_set hs) ?_ ?_ ?_
  · rw [eraseIdx_set_eq]
    exact h.filled_rest index
  · rw [eraseIdx_set_eq]
    cases progress with
    | drained => exact ht
    | pending => exact cons_begin_iff.mpr ⟨ht, hpo.begun nofun⟩
    | hostFault _ =>
      exact (cons_begin_iff.mpr ⟨ht, hpo.begun nofun⟩).closeAdmission
  · rw [eraseIdx_set_eq]
    exact ((slots_perm hs).filterMap slotOpen).trans (operations_begin hpo)

theorem polled_token {index : ℕ} {id : OperationId} {job : TokenJob}
    (hs : s.broker.jobs[index]? = some (id.serial, some (.token job))) (owners : Owners)
    (hhe : s.broker.position id.serial = some index) (ho : id.owner = s.broker.owner)
    (hen : ¬ (s.broker.registry.stopping = true ∧ job.Ends owners)) :
    BrokerInv (s.note (s.broker.poll id owners).2.2
      (eventFacts (s.broker.poll id owners).2.1 ++
        (s.broker.poll id owners).1.facts id.serial)) := by
  rw [poll_token ho hhe hs rfl]
  -- The job that is polled in front of its own empty slot.
  have hin := (List.getElem?_eq_some_iff.mp hs).1
  have hset : (s.broker.jobs.set index (id.serial, none)).Perm
      ((id.serial, none) :: s.broker.jobs.eraseIdx index) := set_perm_cons_eraseIdx hin _
  have hfr : s.broker.jobs.Perm ((id.serial, some (.token job)) ::
      s.broker.jobs.eraseIdx index) := slots_perm hs
  have hsl : ((id.serial, none) :: (id.serial, some (.token job)) ::
      s.broker.jobs.eraseIdx index).Perm
        ((id.serial, some (.token job)) :: s.broker.jobs.set index (id.serial, none)) :=
    (List.Perm.swap _ _ _).trans (hset.symm.cons _)
  have hop : (openOperations s.broker.jobs).Perm (openOperations
      ((id.serial, some (.token job)) :: s.broker.jobs.set index (id.serial, none))) :=
    (hfr.filterMap slotOpen).trans (hsl.filterMap slotOpen)
  have ht := (cons_none_iff.mpr (h.table.perm hfr)).perm hsl
  have hpo := TokenPoll.poll_polled (p :=
    { registry := s.broker.registry
      jobs := s.broker.jobs.set index (id.serial, none)
      job := job }) ht hen
  generalize ({ registry := s.broker.registry
                jobs := s.broker.jobs.set index (id.serial, none)
                job := job } : TokenPoll).poll id.serial owners = result at hpo ⊢
  obtain ⟨progress, p⟩ := result
  obtain ⟨ht', ⟨events, hevs, hopns⟩, hse, hfi, hdrn⟩ := hpo
  have hso : p.jobs.map (fun slot => slot.2.isSome) =
      (s.broker.jobs.set index (id.serial, none)).map (fun slot => slot.2.isSome) :=
    (List.cons.inj hfi).2
  have hse' : p.jobs.map Prod.fst = s.broker.jobs.map Prod.fst :=
    (List.cons.inj hse).2.trans (serials_set hs)
  have he : ∃ serial, p.jobs[index]? = some (serial, none) := by
    have hn : (p.jobs.map fun slot => slot.2.isSome)[index]? = some false := by
      rw [hso, getElem?_map, getElem?_set_self hin]
      rfl
    rw [getElem?_map] at hn
    obtain ⟨⟨serial, job'⟩, hg, hjob⟩ := Option.map_eq_some_iff.mp hn
    cases Option.not_isSome_iff_eq_none.mp (Bool.eq_false_iff.mp hjob)
    exact ⟨serial, hg⟩
  obtain ⟨serial, he⟩ := he
  -- The empty slot goes, and what is left is what the broker keeps.
  have hba : (p.slots id.serial).Perm ((serial, none) :: (id.serial, some (.token p.job)) ::
      p.jobs.eraseIdx index) :=
    ((slots_perm he).cons _).trans (List.Perm.swap _ _ _)
  have hk := cons_none_iff.mp (ht'.perm hba)
  have hni : events = p.events := hevs.symm
  subst hni
  refine h.settled hs hse' ?_ ?_ ?_
  · intro slot hm
    have heq : (p.jobs.eraseIdx index).map (fun slot => slot.2.isSome) =
        (s.broker.jobs.eraseIdx index).map (fun slot => slot.2.isSome) := by
      rw [← eraseIdx_map, hso, eraseIdx_map, eraseIdx_set_eq]
    have hm' : slot.2.isSome ∈ (s.broker.jobs.eraseIdx index).map fun slot => slot.2.isSome := by
      rw [← heq]
      exact mem_map_of_mem hm
    obtain ⟨other, hot, hsa⟩ := mem_map.mp hm'
    rw [← hsa]
    exact h.filled_rest index other hot
  · cases progress with
    | drained => exact hk.tail (hdrn rfl)
    | pending | hostFault => exact hk
  · refine hop.trans (hopns.trans (List.Perm.append_left _ ?_))
    refine (hba.filterMap slotOpen).trans ?_
    cases progress with
    | drained =>
      have hd : slotOpen (id.serial, some (.token p.job)) = none := by
        rw [slotOpen_some]
        exact if_pos (hdrn rfl)
      rw [filterMap_cons_none (by rfl), filterMap_cons_none hd]
      exact List.Perm.refl _
    | pending | hostFault => exact List.Perm.refl _

theorem polled (id : OperationId) (owners : Owners)
    (hha : id.owner = s.broker.owner → id.serial ∈ handed s.log)
    (hok : ¬ s.broker.Strands id owners) :
    BrokerInv (s.note (s.broker.poll id owners).2.2
      (eventFacts (s.broker.poll id owners).2.1 ++
        (s.broker.poll id owners).1.facts id.serial)) := by
  by_cases ho : id.owner = s.broker.owner
  · cases hhe : s.broker.position id.serial with
    | none =>
      have hpo : s.broker.poll id owners = (.drained, [], s.broker) := by
        unfold poll
        rw [if_neg (not_not.mpr ho), hhe]
      rw [hpo]
      exact h.drain (hha ho) (position_none hhe)
    | some index =>
      obtain ⟨slot, hs⟩ := position_spec hhe
      cases slot with
      | none => exact nomatch h.filled _ (mem_of_getElem? hs)
      | some job =>
        cases job with
        | begin job => exact h.polled_begin hs owners hhe ho
        | token job =>
          refine h.polled_token hs owners hhe ho fun he => hok ?_
          exact ⟨ho, he.1, index, job, hhe, hs, he.2⟩
  · have hpo : s.broker.poll id owners = (.hostFault .ownerMismatch, [], s.broker) := by
      unfold poll
      rw [if_pos ho]
    rw [hpo]
    exact h.fault id.serial .ownerMismatch

theorem note_nil : BrokerInv (s.note s.broker []) := h.skip le_rfl

theorem cancelled (id : OperationId) (terminal : CallError) :
    BrokerInv (s.note (s.broker.cancel id terminal).2 []) := by
  unfold cancel
  split_ifs with how
  · exact h.note_nil
  · cases hhe : s.broker.position id.serial with
    | none => exact h.note_nil
    | some index =>
      obtain ⟨slot, hs⟩ := position_spec hhe
      dsimp only
      rw [hs]
      cases slot with
      | none => exact nomatch h.filled _ (mem_of_getElem? hs)
      | some job =>
        have hin := (List.getElem?_eq_some_iff.mp hs).1
        have hfr := slots_perm hs
        have hset : (s.broker.jobs.set index (id.serial, some (cancelJob terminal job))).Perm
              ((id.serial, some (cancelJob terminal job)) ::
                s.broker.jobs.eraseIdx index) := set_perm_cons_eraseIdx hin _
        have hke := List.Forall₂.cons (cancelJob_keeps id.serial terminal job)
          (forall₂_same.mpr fun slot (_ : slot ∈ s.broker.jobs.eraseIdx index) =>
            SlotKeeps.refl slot)
        have hse := (hset.map Prod.fst).trans (hfr.map Prod.fst).symm
        have ho : slotOpen (id.serial, some (cancelJob terminal job)) =
            slotOpen (id.serial, some job) := by cases job <;> rfl
        change BrokerInv (s.note _ (eventFacts []))
        refine h.answers (((h.table.perm hfr).keeps hke).perm hset.symm)
          (fun serial => hse.mem_iff.mp) (hse.nodup_iff.mpr h.distinct) ?_ ?_
        · intro slot hm
          rcases mem_cons.mp (hset.mem_iff.mp hm) with rfl | hr
          · rfl
          · exact h.filled_rest index slot hr
        · refine (hfr.filterMap slotOpen).trans (List.Perm.trans ?_ (hset.filterMap slotOpen).symm)
          rw [filterMap_cons, filterMap_cons, ho]

end

/-- What the host tail answers of the begin jobs comes out of the open operations. -/
theorem operations_stop (jobs : List Slot) :
    (openOperations jobs).Perm
      (((jobs.map stopJob).flatMap Prod.snd).map Prod.fst ++
        openOperations ((jobs.map stopJob).map Prod.fst)) := by
  induction jobs with
  | nil => exact List.Perm.refl _
  | cons slot rest ih =>
    have hs : (slotOpen slot).toList =
        (stopJob slot).2.map Prod.fst ++ (slotOpen (stopJob slot).1).toList := by
      obtain ⟨serial, job⟩ := slot
      cases job with
      | none => rfl
      | some job =>
        cases job with
        | begin job =>
          rw [slotOpen_some]
          unfold stopJob
          dsimp only
          rw [slotOpen_some, Job.isDone]
          by_cases hd : job.logicalDone = true
          · rw [if_pos hd, if_pos hd]
            rfl
          · rw [if_neg hd, if_neg hd]
            rfl
        | token job => rfl
    have hc : ∀ (head : Slot) (tail : List Slot),
        openOperations (head :: tail) = (slotOpen head).toList ++ openOperations tail := by
      intro head tail
      unfold openOperations
      cases hh : slotOpen head with
      | none => rw [filterMap_cons_none hh]; rfl
      | some serial => rw [filterMap_cons_some hh]; rfl
    rw [map_cons, flatMap_cons, map_cons, map_append, hc, hc, hs, append_assoc, append_assoc]
    refine List.Perm.append_left _ ?_
    refine (ih.append_left _).trans ?_
    rw [← append_assoc, ← append_assoc]
    exact perm_append_comm.append_right _

theorem stopped (h : BrokerInv s) :
    BrokerInv (s.note s.broker.stopForHostTail.2 (eventFacts s.broker.stopForHostTail.1)) := by
  have hco := completes_tail h.table.wf
  have hcl := h.table.closeAdmission
  have han := emitEach_answers s.broker.registry.stopForHostTail.1 hcl.distinct
    (hcl.completes_open hco)
  have ht := hcl.completes hco han
  have hke : List.Forall₂ SlotKeeps (emitEach s.broker.jobs s.broker.registry.stopForHostTail.1).1
      (((emitEach s.broker.jobs s.broker.registry.stopForHostTail.1).1.map
        stopJob).map Prod.fst) := by
    rw [map_map, forall₂_map_right_iff]
    exact forall₂_same.mpr fun slot _ => stopJob_keeps slot
  have hse := (SlotKeeps.map_eq hke fun _ _ h => h.serial).trans han.marked.serials
  have hfi := (SlotKeeps.map_eq hke fun _ _ h => h.filled).trans han.marked.filled
  refine h.answers (ht.keeps hke) (fun serial hm => ?_) ?_ (fun slot hm => ?_) ?_
  · rwa [hse] at hm
  · rw [hse]
    exact h.distinct
  · have hm' : slot.2.isSome ∈ s.broker.jobs.map fun slot => slot.2.isSome := by
      rw [← hfi]
      exact mem_map_of_mem hm
    obtain ⟨other, ho, hs⟩ := mem_map.mp hm'
    rw [← hs]
    exact h.filled other ho
  · have hevs : s.broker.stopForHostTail.1 =
        (emitEach s.broker.jobs s.broker.registry.stopForHostTail.1).2 ++
          ((emitEach s.broker.jobs s.broker.registry.stopForHostTail.1).1.map
            stopJob).flatMap Prod.snd := rfl
    rw [hevs, map_append, append_assoc]
    exact han.operations.trans ((operations_stop _).append_left _)

theorem registry_changed (h : BrokerInv s) (ht : TableInv registry s.broker.jobs) :
    BrokerInv (s.note { s.broker with registry := registry } []) := by
  change BrokerInv (s.note _ (eventFacts []))
  exact h.answers ht (fun _ hm => hm) h.distinct h.filled (List.Perm.refl _)

theorem prelude_quiet (checks : BeginChecks) (registry : SessionRegistry) :
    ErrorsOf (fun state => state.facts = []) (checks.prelude registry) := by
  refine .bind (.require rfl) fun _ => .bind (.mapError fun _ => rfl) fun _ =>
    .bind (.mapError fun _ => rfl) fun _ => .bind (.require rfl) fun _ =>
    .bind (.mapError fun _ => rfl) fun _ => .bind (.mapError fun _ => rfl) fun _ =>
    .bind (.mapError fun _ => rfl) fun presents => ?_
  split_ifs
  · exact .bind (.orElseError rfl) fun _ => .ok _
  · exact .bind (.mapError fun _ => rfl) fun _ => .bind (.orElseError rfl) fun _ => .ok _

theorem makePhase_quiet (checks : BeginChecks) (presents : Bool) :
    ErrorsOf (fun state => state.facts = []) (checks.makePhase presents) := by
  unfold BeginChecks.makePhase
  split_ifs
  · exact .bind (.require rfl) fun _ => .bind (.mapError fun _ => rfl) fun _ =>
      .bind (.require rfl) fun _ => .ok _
  · split
    · exact .ok _
    · rintro _ ⟨⟩
      rfl
    · rintro _ ⟨⟩
      rfl

theorem nextId_eq {b b' : AuthBroker} {id : OperationId} (h : b.nextId = some (id, b')) :
    id = ⟨b.owner, b.nextOperation + 1⟩ ∧ b' = { b with nextOperation := b.nextOperation + 1 } := by
  obtain ⟨serial, hser, he⟩ := Option.map_eq_some_iff.mp h
  rw [checkedSucc_eq hser] at he
  obtain ⟨rfl, rfl⟩ := Prod.mk.inj he
  exact ⟨rfl, rfl⟩

theorem began (h : BrokerInv s) (scopes : Option (List Text)) (checks : BeginChecks) :
    BrokerInv (s.note (s.broker.begin scopes checks).2 (s.broker.begin scopes checks).1.facts) := by
  have hsk : BrokerInv (s.note
      { s.broker with nextOperation := s.broker.nextOperation + 1 } []) := h.skip (Nat.le_succ _)
  unfold begin
  cases hpr : checks.prelude s.broker.registry with
  | error state =>
    rw [prelude_quiet checks _ state hpr]
    exact h.note_nil
  | ok admitted =>
    obtain ⟨profile, presents, deadline⟩ := admitted
    split_ifs with ha
    · cases hn : s.broker.nextId with
      | none => exact h.note_nil
      | some next =>
        obtain ⟨id, b⟩ := next
        obtain ⟨rfl, rfl⟩ := nextId_eq hn
        dsimp only
        split
        · exact hsk
        · rename_i state hgenerate hph
          rw [makePhase_quiet checks presents state hph]
          exact hsk
        · refine h.hand ?_ (Nat.lt_succ_self _) rfl
          refine perm (cons_begin_iff.mpr ⟨h.table, ?_⟩) (perm_append_singleton _ _).symm
          exact fun hd => absurd hd Bool.false_ne_true
    · exact h.note_nil

theorem tokenSlot_spec {b : AuthBroker} (h : b.tokenSlot flight = some serial) :
    ∃ job, (serial, some (Job.token job)) ∈ b.jobs ∧ job.flight = flight := by
  obtain ⟨⟨n, job⟩, hm, hs⟩ := exists_of_findSome?_eq_some h
  cases job with
  | none => cases hs
  | some job =>
    cases job with
    | begin job => cases hs
    | token job =>
      dsimp only at hs
      split_ifs at hs with hfl
      cases hs
      exact ⟨job, hm, hfl⟩

/-- The job of a live flight is found, and is open. -/
theorem tokenSlot_live (h : BrokerInv s) (hl : flight ∈ s.broker.registry.live) :
    ∃ serial, s.broker.tokenSlot flight = some serial ∧ serial ∈ openOperations s.broker.jobs := by
  have ho : flight ∈ openFlights s.broker.jobs := h.table.flights.mem_iff.mpr hl
  cases hs : s.broker.tokenSlot flight with
  | none =>
    obtain ⟨⟨n, job⟩, hm, hs'⟩ := mem_filterMap.mp (openFlights_subset ho)
    have hn := findSome?_eq_none_iff.mp hs _ hm
    cases job with
    | none => cases hs'
    | some job =>
      cases job with
      | begin job => cases hs'
      | token job =>
        cases hs'
        simp at hn
  | some serial =>
    obtain ⟨job, hm, rfl⟩ := tokenSlot_spec hs
    refine ⟨serial, rfl, mem_filterMap.mpr ⟨_, hm, ?_⟩⟩
    have hd := (h.table.live_iff hm).mp hl
    rw [slotOpen_some, Job.isDone, hd]
    rfl

/-- A leader that gets no job. -/
theorem withdrawn (h : BrokerInv s) {next : ℕ} (hle : s.broker.registry.Leads registry flight)
    (hn : s.broker.nextOperation ≤ next) (error : CallError) :
    BrokerInv (s.note
      (({ s.broker with
        registry := registry
        nextOperation := next } : AuthBroker).withdraw flight error) []) := by
  have hl : flight ∈ registry.live := hle.live.mem_iff.mpr mem_cons_self
  obtain ⟨-, hco⟩ := abandon_live hle.wf hl error
  have hch := (h.registry_changed (h.table.withdraws hle hco)).skip hn
  rwa [note_note] at hch

/-- A leader gets its job, unless its exchange cannot be prepared. -/
theorem led (h : BrokerInv s) {accountId : Text} (ha : flight.accountId = accountId)
    (hle : s.broker.registry.Leads registry flight) {scopes : Option (List Text)}
    {checks : TokenChecks}
    (hreq : s.broker.registry.tokenRequest accountId scopes
      (if checks.admits then some () else none) checks.now = (.ok (.leader flight ()), registry)) :
    BrokerInv (s.note (s.broker.tokenAllowed accountId scopes checks).2
      (s.broker.tokenAllowed accountId scopes checks).1.facts) := by
  have hwi : ∀ (next : ℕ) (error : CallError), s.broker.nextOperation ≤ next → BrokerInv (s.note
        (({ s.broker with
          registry := registry
          nextOperation := next } : AuthBroker).withdraw flight error) []) :=
    fun next error hn => h.withdrawn hle hn error
  unfold tokenAllowed
  rw [hreq]
  dsimp only
  cases hn : nextId { s.broker with registry := registry } with
  | none => exact hwi s.broker.nextOperation _ le_rfl
  | some next =>
    obtain ⟨id, b⟩ := next
    obtain ⟨rfl, rfl⟩ := nextId_eq hn
    dsimp only
    split
    · exact hwi _ _ (Nat.le_succ _)
    · -- The account of a flight that was just led is there.
      rename_i hpr
      obtain ⟨account, hg⟩ := Option.isSome_iff_exists.mp hle.account
      rw [ha] at hg
      unfold profileFor at hpr
      rw [hg] at hpr
      cases hpr
    · exact hwi _ _ (Nat.le_succ _)
    · refine h.hand ?_ (Nat.lt_succ_self _) rfl
      exact perm (h.table.leads hle rfl rfl rfl) (perm_append_singleton _ _).symm

theorem requested (h : BrokerInv s) (accountId : Text) (scopes : Option (List Text))
    (checks : TokenChecks) :
    BrokerInv (s.note (s.broker.token accountId scopes checks).2
      (s.broker.token accountId scopes checks).1.facts) := by
  unfold token
  split_ifs with hve
  · split
    · exact h.note_nil
    · exact h.note_nil
    · exact h.note_nil
    · have hre := tokenRequest_requests h.table.wf accountId scopes
        (if checks.admits then some () else none) checks.now
      generalize hreq : s.broker.registry.tokenRequest accountId scopes
        (if checks.admits then some () else none) checks.now = requested at hre
      cases hre with
      | refused result hfl hle =>
        unfold tokenAllowed
        rw [hreq]
        cases result with
        | error fault => exact h.note_nil
        | ok plan =>
          cases plan with
          | unresolved | atCapacity | ready => exact h.note_nil
          | inFlight flight => exact absurd rfl (hfl flight)
          | leader flight admission => exact absurd rfl (hle flight admission)
      | inFlight flight hl =>
        obtain ⟨serial, hs, ho⟩ := h.tokenSlot_live hl
        unfold tokenAllowed
        rw [hreq]
        dsimp only
        rw [hs]
        exact h.follow ho
      | leader flight registry ha hld => exact h.led ha hld hreq
  · exact h.note_nil

end BrokerInv

end Keld.Auth
