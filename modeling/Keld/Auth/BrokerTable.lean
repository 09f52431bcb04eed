/-
# `Keld.Auth.BrokerTable` — the table of a broker and its registry

The flights of the unanswered token jobs are the live flights of the registry,
each once (`TableInv.flights`).  An operation that completes flights takes them
out of both: the registry gives the completions, and the table answers them
(`emitEach_answers`).
-/
import Keld.Auth.BrokerRuns
import Keld.Auth.RegistryCompletes

namespace Keld.Auth

open List

/-! ## Answering completions -/

/-- The table after some answers: the jobs are those that were there, some now answered. -/
structure Marked (jobs jobs' : List Slot) : Prop where
  serials : jobs'.map Prod.fst = jobs.map Prod.fst
  filled : jobs'.map (fun slot => slot.2.isSome) = jobs.map (fun slot => slot.2.isSome)
  leads : jobFlights jobs' = jobFlights jobs
  begin : ∀ serial job, (serial, some (Job.begin job)) ∈ jobs' → (serial, some (.begin job)) ∈ jobs
  token : ∀ serial job, (serial, some (Job.token job)) ∈ jobs' → job.logicalDone = false →
    (serial, some (.token job)) ∈ jobs

theorem Marked.refl (jobs : List Slot) : Marked jobs jobs := ⟨rfl, rfl, rfl, fun _ _ h => h, fun _ _ h _ => h⟩

variable {jobs'' : List Slot} {flights : List FlightId} {events : List ResponseEvent}

theorem Marked.trans {jobs jobs' : List Slot} (h : Marked jobs jobs') (h' : Marked jobs' jobs'') :
    Marked jobs jobs'' where
  serials := h'.serials.trans h.serials
  filled := h'.filled.trans h.filled
  leads := h'.leads.trans h.leads
  begin serial job hm := h.begin serial job (h'.begin serial job hm)
  token serial job hm ho := h.token serial job (h'.token serial job hm ho) ho

theorem Marked.cons {jobs jobs' : List Slot} (h : Marked jobs jobs') (slot : Slot) :
    Marked (slot :: jobs) (slot :: jobs') where
  serials := by rw [map_cons, map_cons, h.serials]
  filled := by rw [map_cons, map_cons, h.filled]
  leads := by
    have hle := h.leads
    unfold jobFlights at hle ⊢
    rw [filterMap_cons, filterMap_cons, hle]
  begin serial job hm := by
    rcases mem_cons.mp hm with rfl | hr
    · exact mem_cons_self
    · exact mem_cons_of_mem _ (h.begin serial job hr)
  token serial job hm ho := by
    rcases mem_cons.mp hm with rfl | hr
    · exact mem_cons_self
    · exact mem_cons_of_mem _ (h.token serial job hr ho)

/-- The events answer exactly the jobs of these flights. -/
structure Answers (jobs jobs' : List Slot) (flights : List FlightId) (events : List ResponseEvent) :
    Prop where
  marked : Marked jobs jobs'
  flights : (openFlights jobs).Perm (flights ++ openFlights jobs')
  operations : (openOperations jobs).Perm (events.map Prod.fst ++ openOperations jobs')

theorem Answers.refl (jobs : List Slot) : Answers jobs jobs [] [] :=
  ⟨.refl jobs, List.Perm.refl _, List.Perm.refl _⟩

theorem Answers.trans {jobs jobs' : List Slot} {flights' : List FlightId}
    {events' : List ResponseEvent} (h : Answers jobs jobs' flights events)
    (h' : Answers jobs' jobs'' flights' events') :
    Answers jobs jobs'' (flights ++ flights') (events ++ events') where
  marked := h.marked.trans h'.marked
  flights := by
    rw [append_assoc]
    exact h.flights.trans (h'.flights.append_left _)
  operations := by
    rw [map_append, append_assoc]
    exact h.operations.trans (h'.operations.append_left _)

theorem Answers.cons {jobs jobs' : List Slot} (h : Answers jobs jobs' flights events) (slot : Slot)
    :
    Answers (slot :: jobs) (slot :: jobs') flights events where
  marked := h.marked.cons slot
  flights := by
    have hfls := h.flights
    unfold openFlights at hfls ⊢
    cases hs : slotFlight slot with
    | none => rwa [filterMap_cons_none hs, filterMap_cons_none hs]
    | some flight =>
      rw [filterMap_cons_some hs, filterMap_cons_some hs]
      exact (hfls.cons flight).trans perm_middle.symm
  operations := by
    have hop := h.operations
    unfold openOperations at hop ⊢
    cases hs : slotOpen slot with
    | none => rwa [filterMap_cons_none hs, filterMap_cons_none hs]
    | some serial =>
      rw [filterMap_cons_some hs, filterMap_cons_some hs]
      exact (hop.cons serial).trans perm_middle.symm

theorem slotFlight_token (serial : ℕ) (job : TokenJob) :
    slotFlight (serial, some (.token job)) =
      if job.logicalDone = true then none else some job.flight := rfl

theorem openFlights_subset {jobs : List Slot} {flight : FlightId} (h : flight ∈ openFlights jobs) :
    flight ∈ jobFlights jobs := by
  obtain ⟨⟨serial, job⟩, hm, hs⟩ := mem_filterMap.mp h
  refine mem_filterMap.mpr ⟨(serial, job), hm, ?_⟩
  cases job with
  | none => cases hs
  | some job =>
    cases job with
    | begin job => cases hs
    | token job =>
      rw [slotFlight_token] at hs
      split_ifs at hs
      exact hs

/-- A completion of an open flight answers its job. -/
theorem emitSlots_answers (completion : Completion) :
    ∀ {jobs : List Slot}, (jobFlights jobs).Nodup → completion.flight ∈ openFlights jobs →
      Answers jobs (emitSlots completion jobs).1 [completion.flight] (emitSlots completion jobs).2
  | [], _, h => by cases h
  | (serial, none) :: rest, hno, h => by
    have hr : completion.flight ∈ openFlights rest := h
    exact (emitSlots_answers completion (show (jobFlights rest).Nodup from hno) hr).cons _
  | (serial, some (.begin job)) :: rest, hno, h => by
    have hr : completion.flight ∈ openFlights rest := h
    exact (emitSlots_answers completion (show (jobFlights rest).Nodup from hno) hr).cons _
  | (serial, some (.token job)) :: rest, hno, h => by
    have hh : job.flight ∉ jobFlights rest := (nodup_cons.mp hno).1
    unfold emitSlots
    split_ifs with hfl hd
    · -- The flight is that of an answered job, but it is open and no other job leads it.
      have ho : completion.flight ∈ openFlights rest := by
        unfold openFlights at h ⊢
        rwa [filterMap_cons_none (by simp [slotFlight, hd])] at h
      rw [hfl] at hh
      exact absurd (openFlights_subset ho) hh
    · refine ⟨⟨rfl, rfl, rfl, fun n other hm => ?_, fun n other hm ho => ?_⟩, ?_, ?_⟩
      · rcases mem_cons.mp hm with he | hr
        · cases he
        · exact mem_cons_of_mem _ hr
      · rcases mem_cons.mp hm with he | hr
        · cases he
          cases ho
        · exact mem_cons_of_mem _ hr
      · have hb : slotFlight (serial, some (.token job)) = some completion.flight := by
          simp [slotFlight, hd, hfl]
        unfold openFlights
        rw [filterMap_cons_some hb, filterMap_cons_none (by rfl)]
        exact List.Perm.refl _
      · have hb : slotOpen (serial, some (.token job)) = some serial := by
          simp [slotOpen, Job.isDone, hd]
        unfold openOperations
        rw [filterMap_cons_some hb, filterMap_cons_none (by rfl)]
        exact List.Perm.refl _
    · have ho : completion.flight ∈ openFlights rest := by
        unfold openFlights at h ⊢
        cases hs : slotFlight (serial, some (.token job)) with
        | none => rwa [filterMap_cons_none hs] at h
        | some flight =>
          rw [filterMap_cons_some hs] at h
          rcases mem_cons.mp h with he | hr
          · rw [slotFlight_token] at hs
            split_ifs at hs
            cases hs
            exact absurd he.symm hfl
          · exact hr
      exact (emitSlots_answers completion (nodup_cons.mp hno).2 ho).cons _

/-- Completions of open flights answer the jobs of these. -/
theorem emitEach_answers : ∀ (completions : List Completion) {jobs : List Slot}
    {others : List FlightId}, (jobFlights jobs).Nodup →
      (openFlights jobs).Perm (completions.map Completion.flight ++ others) →
        Answers jobs (AuthBroker.emitEach jobs completions).1 (completions.map Completion.flight)
          (AuthBroker.emitEach jobs completions).2
  | [], jobs, _, _, _ => .refl jobs
  | completion :: rest, jobs, others, hno, hp => by
    have hm : completion.flight ∈ openFlights jobs := hp.mem_iff.mpr mem_cons_self
    have hf := emitSlots_answers completion hno hm
    have hr : (openFlights (emitSlots completion jobs).1).Perm
        (rest.map Completion.flight ++ others) :=
      (hf.flights.symm.trans hp).cons_inv
    have hno' : (jobFlights (emitSlots completion jobs).1).Nodup := by
      rw [hf.marked.leads]
      exact hno
    exact hf.trans (emitEach_answers rest hno' hr)

/-! ## Jobs that are forced -/

/-- A slot that leads what it led, with its job forced perhaps. -/
structure SlotKeeps (slot slot' : Slot) : Prop where
  serial : slot'.1 = slot.1
  filled : slot'.2.isSome = slot.2.isSome
  flight : slotFlight slot' = slotFlight slot
  leads : slotLeads slot' = slotLeads slot
  token : ∀ job', slot'.2 = some (.token job') → ∃ job, slot.2 = some (.token job) ∧
    job.flight = job'.flight ∧ job.http = job'.http ∧ job.logicalDone = job'.logicalDone
  begin : ∀ job', slot'.2 = some (.begin job') → job'.logicalDone = true →
    job'.forced.isSome = true ∨ ∃ job, slot.2 = some (.begin job) ∧ job.logicalDone = true ∧
      job.forced = job'.forced

namespace SlotKeeps

variable {jobs jobs' : List Slot}

theorem refl (slot : Slot) : SlotKeeps slot slot :=
  ⟨rfl, rfl, rfl, rfl, fun job h => ⟨job, h, rfl, rfl, rfl⟩, fun job h hd =>
    .inr ⟨job, h, hd, rfl⟩⟩

variable {β : Type}

theorem filterMap_eq {f : Slot → Option β} (h : List.Forall₂ SlotKeeps jobs jobs')
    (hf : ∀ slot slot', SlotKeeps slot slot' → f slot' = f slot) :
    jobs'.filterMap f = jobs.filterMap f := by
  induction h with
  | nil => rfl
  | cons hs _ ih => rw [filterMap_cons, filterMap_cons, hf _ _ hs, ih]

theorem map_eq {f : Slot → β} (h : List.Forall₂ SlotKeeps jobs jobs')
    (hf : ∀ slot slot', SlotKeeps slot slot' → f slot' = f slot) : jobs'.map f = jobs.map f := by
  induction h with
  | nil => rfl
  | cons hs _ ih => rw [map_cons, map_cons, hf _ _ hs, ih]

theorem of_mem (h : List.Forall₂ SlotKeeps jobs jobs') {slot' : Slot} (hm : slot' ∈ jobs') :
    ∃ slot ∈ jobs, SlotKeeps slot slot' := by
  induction h with
  | nil => cases hm
  | cons hs _ ih =>
    rcases mem_cons.mp hm with rfl | hr
    · exact ⟨_, mem_cons_self, hs⟩
    · obtain ⟨slot, hs', hke⟩ := ih hr
      exact ⟨slot, mem_cons_of_mem _ hs', hke⟩

end SlotKeeps

/-- A cancelled job. -/
theorem cancelJob_keeps (serial : ℕ) (error : CallError) (job : Job) :
    SlotKeeps (serial, some job) (serial, some (AuthBroker.cancelJob error job)) where
  serial := rfl
  filled := rfl
  flight := by cases job <;> rfl
  leads := by cases job <;> rfl
  token job' he := by
    cases job with
    | begin job => cases he
    | token job =>
      cases he
      exact ⟨job, rfl, rfl, rfl, rfl⟩
  begin job' he _ := by
    cases job with
    | begin job =>
      cases he
      left
      cases job.forced <;> simp
    | token job => cases he

theorem stopJob_keeps (slot : Slot) : SlotKeeps slot (AuthBroker.stopJob slot).1 := by
  obtain ⟨serial, job⟩ := slot
  cases job with
  | none => exact .refl _
  | some job =>
    cases job with
    | begin job =>
      exact
        { serial := rfl
          filled := rfl
          flight := rfl
          leads := rfl
          token := nofun
          begin := fun _ he _ => by
            cases he
            left
            cases job.forced <;> simp }
    | token job => exact cancelJob_keeps serial stoppingError (.token job)

/-! ## The table and the registry -/

structure TableInv (r : SessionRegistry) (jobs : List Slot) : Prop where
  wf : r.Wf
  flights : (openFlights jobs).Perm r.live
  distinct : (jobFlights jobs).Nodup
  bound : ∀ flight ∈ jobFlights jobs, flight.serial ≤ r.nextFlight
  active : r.stopping = false → ∀ serial job, (serial, some (Job.token job)) ∈ jobs →
    job.logicalDone = false → (job.http = true ↔ r.Active job.flight)
  begun : ∀ serial job, (serial, some (Job.begin job)) ∈ jobs → job.logicalDone = true →
    job.forced.isSome = true

namespace TableInv

variable {r r' : SessionRegistry} {jobs jobs' : List Slot}

theorem perm (h : TableInv r jobs) (hp : jobs.Perm jobs') : TableInv r jobs' where
  wf := h.wf
  flights := (hp.filterMap slotFlight).symm.trans h.flights
  distinct := (hp.filterMap slotLeads).nodup_iff.mp h.distinct
  bound flight hfl := h.bound flight ((hp.filterMap slotLeads).mem_iff.mpr hfl)
  active hs serial job hm := h.active hs serial job (hp.mem_iff.mpr hm)
  begun serial job hm := h.begun serial job (hp.mem_iff.mpr hm)

variable {serial : ℕ} {job : TokenJob} {flight : FlightId}

/-- An empty slot says nothing. -/
theorem cons_none_iff : TableInv r ((serial, none) :: jobs) ↔ TableInv r jobs := by
  constructor
  · intro h
    exact
      { h with
        active := fun hs n job hm => h.active hs n job (mem_cons_of_mem _ hm)
        begun := fun n job hm => h.begun n job (mem_cons_of_mem _ hm) }
  · intro h
    exact
      { h with
        active := fun hs n job hm => by
          rcases mem_cons.mp hm with he | hr
          · cases he
          · exact h.active hs n job hr
        begun := fun n job hm => by
          rcases mem_cons.mp hm with he | hr
          · cases he
          · exact h.begun n job hr }

/-- An answered job may go. -/
theorem tail {job : Job} (h : TableInv r ((serial, some job) :: jobs)) (hd : job.isDone = true) :
    TableInv r jobs where
  wf := h.wf
  flights := by
    have hs : slotFlight (serial, some job) = none := by
      cases job with
      | begin job => rfl
      | token job =>
        rw [slotFlight_token]
        exact if_pos hd
    have hfls := h.flights
    unfold openFlights at hfls
    rwa [filterMap_cons_none hs] at hfls
  distinct := by
    have hdi := h.distinct
    unfold jobFlights at hdi
    cases hs : slotLeads (serial, some job) with
    | none => rwa [filterMap_cons_none hs] at hdi
    | some flight =>
      rw [filterMap_cons_some hs] at hdi
      exact (nodup_cons.mp hdi).2
  bound flight hfl := by
    refine h.bound flight ?_
    unfold jobFlights
    cases hs : slotLeads (serial, some job) with
    | none => rwa [filterMap_cons_none hs]
    | some other =>
      rw [filterMap_cons_some hs]
      exact mem_cons_of_mem _ hfl
  active hst n other hm := h.active hst n other (mem_cons_of_mem _ hm)
  begun n other hm := h.begun n other (mem_cons_of_mem _ hm)

/-- The registry completes flights and the table answers them. -/
theorem completes {flights : List FlightId} {events : List ResponseEvent} (h : TableInv r jobs)
    (hco : r.Completes r' flights) (han : Answers jobs jobs' flights events) :
    TableInv r' jobs' where
  wf := hco.wf
  flights := (perm_append_left_iff flights).mp ((han.flights.symm.trans h.flights).trans hco.live)
  distinct := by
    rw [han.marked.leads]
    exact h.distinct
  bound flight hfl := by
    rw [han.marked.leads] at hfl
    rw [hco.nextFlight]
    exact h.bound flight hfl
  active hs serial job hm ho := by
    rw [hco.stopping] at hs
    rw [h.active hs serial job (han.marked.token serial job hm ho) ho]
    have hl : job.flight ∈ r'.live := by
      refine ((perm_append_left_iff flights).mp
        ((han.flights.symm.trans h.flights).trans hco.live)).mem_iff.mp ?_
      exact mem_filterMap.mpr ⟨_, hm, by simp [slotFlight, ho]⟩
    exact (hco.active job.flight hl).symm
  begun serial job hm := h.begun serial job (han.marked.begin serial job hm)

theorem completes_open {flights : List FlightId} (h : TableInv r jobs)
    (hco : r.Completes r' flights) :
    (openFlights jobs).Perm (flights ++ r'.live) := h.flights.trans hco.live

theorem closeAdmission (h : TableInv r jobs) : TableInv r.closeAdmission jobs := { h with
  wf := h.wf.move .closed
  active hs := by cases hs }

/-- An account is registered, which has no flight yet. -/
theorem registered {scopes : Option (List Text)} {initial : Option AccessToken}
    (h : TableInv r jobs) (entropy : List Byte) (account : Account)
    (hn : r.nextAccount + 1 < 2 ^ 64) (hfls : account.flights = .empty)
    (how : account.refreshOwner = none)
    (hca : ∀ key outcome, account.cached = some (key, outcome) →
      ∃ token, initial = some token ∧ outcome = .ok token ∧ key = scopeKey scopes) :
    TableInv
      { r with
        nextAccount := r.nextAccount + 1
        accounts := r.accounts.insert (accountIdOf entropy (r.nextAccount + 1)) account } jobs := by
  obtain ⟨log, hinv⟩ := h.wf
  have hf := hinv.get?_fresh entropy hn
  refine
    { h with
      wf := h.wf.move (.registered entropy account scopes initial hn hfls how hca)
      flights := h.flights.trans (SessionRegistry.live_insert hf hfls).symm
      active := fun hs serial job hm ho => ?_ }
  rw [h.active hs serial job hm ho]
  have hl : job.flight ∈ r.live :=
    h.flights.mem_iff.mp (mem_filterMap.mpr ⟨_, hm, by simp [slotFlight, ho]⟩)
  obtain ⟨other, key, flight, hot, -, -⟩ := SessionRegistry.mem_live_iff.mp hl
  have hne : job.flight.accountId ≠ accountIdOf entropy (r.nextAccount + 1) := by
    intro hsa
    rw [hsa, hf] at hot
    cases hot
  unfold SessionRegistry.Active
  rw [OrdMap.get?_insert, if_neg hne]

theorem live_iff (h : TableInv r jobs) (hm : (serial, some (Job.token job)) ∈ jobs) :
    job.flight ∈ r.live ↔ job.logicalDone = false := by
  rw [← h.flights.mem_iff]
  constructor
  · intro ho
    cases hd : job.logicalDone with
    | false => rfl
    | true =>
      -- Another slot would lead the same flight.
      obtain ⟨before, after, rfl⟩ := append_of_mem hm
      have hdi := h.distinct
      unfold openFlights at ho
      unfold jobFlights at hdi
      rw [filterMap_append, filterMap_cons_none (by simp [slotFlight, hd])] at ho
      rw [filterMap_append, filterMap_cons_some
        (show slotLeads (serial, some (.token job)) = some job.flight from rfl)] at hdi
      have hs := nodup_append.mp hdi
      rcases mem_append.mp ho with hb | haf
      · exact absurd rfl (hs.2.2 job.flight (openFlights_subset hb) job.flight mem_cons_self)
      · exact absurd (openFlights_subset haf) (nodup_cons.mp hs.2.1).1
  · intro hd
    exact mem_filterMap.mpr ⟨_, hm, by simp [slotFlight, hd]⟩

/-- A begin job leads no flight. -/
theorem cons_begin_iff {job : BeginJob} :
    TableInv r ((serial, some (.begin job)) :: jobs) ↔
      TableInv r jobs ∧ (job.logicalDone = true → job.forced.isSome = true) := by
  constructor
  · intro h
    refine ⟨?_, h.begun serial job mem_cons_self⟩
    exact
      { h with
        active := fun hs n other hm =>
          h.active hs n other (mem_cons_of_mem _ hm)
        begun := fun n other hm => h.begun n other (mem_cons_of_mem _ hm) }
  · rintro ⟨h, hb⟩
    exact
      { h with
        active := fun hs n other hm => by
          rcases mem_cons.mp hm with he | hr
          · cases he
          · exact h.active hs n other hr
        begun := fun n other hm => by
          rcases mem_cons.mp hm with he | hr
          · cases he
            exact hb
          · exact h.begun n other hr }

/-- The job at the head began its exchange. -/
theorem begins (h : TableInv r ((serial, some (.token job)) :: jobs))
    (hop : job.logicalDone = false) (hbeg : r.Begins r' job.flight) :
    TableInv r' ((serial, some (.token { job with http := true })) :: jobs) where
  wf := hbeg.wf
  flights := h.flights.trans hbeg.live.symm
  distinct := h.distinct
  bound flight hfl := by
    rw [hbeg.nextFlight]
    exact h.bound flight hfl
  active hs n other hm ho := by
    rw [hbeg.stopping] at hs
    rcases mem_cons.mp hm with he | hr
    · cases he
      exact ⟨fun _ => hbeg.active, fun _ => rfl⟩
    · have hl : other.flight ∈ r.live := (h.live_iff (mem_cons_of_mem _ hr)).mpr ho
      have hne : other.flight ≠ job.flight := by
        intro hsa
        have hle : other.flight ∈ jobFlights jobs := mem_filterMap.mpr ⟨_, hr, rfl⟩
        rw [hsa] at hle
        exact (nodup_cons.mp h.distinct).1 hle
      rw [hbeg.others other.flight hl hne]
      exact h.active hs n other (mem_cons_of_mem _ hr) ho
  begun n other hm := by
    rcases mem_cons.mp hm with he | hr
    · cases he
    · exact h.begun n other (mem_cons_of_mem _ hr)

/-- Once admission is closed it does not matter whether the exchange began. -/
theorem unbegun {http : Bool}
    (h : TableInv r ((serial, some (.token { job with http := http })) :: jobs))
    (hs : r.stopping = true) : TableInv r ((serial, some (.token job)) :: jobs) := { h with
  active ho := by
    rw [hs] at ho
    cases ho
  begun n other hm := by
    rcases mem_cons.mp hm with he | hr
    · cases he
    · exact h.begun n other (mem_cons_of_mem _ hr) }

theorem keeps (h : TableInv r jobs) (hke : List.Forall₂ SlotKeeps jobs jobs') :
    TableInv r jobs' where
  wf := h.wf
  flights := by
    have he : openFlights jobs' = openFlights jobs := 
      SlotKeeps.filterMap_eq hke fun _ _ h => h.flight
    rw [he]
    exact h.flights
  distinct := by
    have he : jobFlights jobs' = jobFlights jobs := SlotKeeps.filterMap_eq hke fun _ _ h => h.leads
    rw [he]
    exact h.distinct
  bound flight hfl := by
    have he : jobFlights jobs' = jobFlights jobs := SlotKeeps.filterMap_eq hke fun _ _ h => h.leads
    rw [he] at hfl
    exact h.bound flight hfl
  active hst serial job' hm hop := by
    obtain ⟨⟨n, other⟩, ho, hs⟩ := SlotKeeps.of_mem hke hm
    obtain ⟨job, rfl, hfl, hht, hd⟩ := hs.token job' rfl
    rw [← hfl, ← hht]
    exact h.active hst n job ho (hd.trans hop)
  begun serial job' hm hd := by
    obtain ⟨⟨n, other⟩, ho, hs⟩ := SlotKeeps.of_mem hke hm
    rcases hs.begin job' rfl hd with hfo | ⟨job, rfl, hl, hfo⟩
    · exact hfo
    · rw [← hfo]
      exact h.begun n job ho hl

/-- A flight that was led, with its job in front. -/
theorem leads (h : TableInv r jobs) (hle : r.Leads r' flight) (hfl : job.flight = flight)
    (hop : job.logicalDone = false) (hht : job.http = false) :
    TableInv r' ((serial, some (.token job)) :: jobs) where
  wf := hle.wf
  flights := by
    unfold openFlights
    rw [filterMap_cons_some (show slotFlight (serial, some (.token job)) = some flight by
        rw [slotFlight_token, hop, hfl]; rfl)]
    exact (h.flights.cons flight).trans hle.live.symm
  distinct := by
    refine nodup_cons.mpr ⟨fun hm => ?_, h.distinct⟩
    have hb := h.bound _ hm
    rw [hfl, hle.serial] at hb
    omega
  bound other ho := by
    rw [hle.nextFlight]
    rcases mem_cons.mp ho with he | hr
    · rw [he, hfl, hle.serial]
    · exact (h.bound other hr).trans (Nat.le_succ _)
  active _ n other hm ho := by
    rcases mem_cons.mp hm with he | hr
    · cases he
      rw [hfl, hht]
      exact ⟨nofun, fun ha => absurd ha hle.idle⟩
    · rw [hle.others other.flight ((h.live_iff hr).mpr ho)]
      exact h.active hle.stopping' n other hr ho
  begun n other hm := by
    rcases mem_cons.mp hm with he | hr
    · cases he
    · exact h.begun n other hr

/-- A flight that was led is given up before it gets its job. -/
theorem withdraws {r'' : SessionRegistry} (h : TableInv r jobs) (hle : r.Leads r' flight)
    (hco : r'.Completes r'' [flight]) : TableInv r'' jobs := by
  have hled : TableInv r' ((0, some (.token
      { flight := flight
        deadline := 0 })) :: jobs) := h.leads hle rfl rfl rfl
  have hm : flight ∈ openFlights ((0, some (.token
      { flight := flight
        deadline := 0 })) :: jobs) := mem_cons_self
  have han := emitSlots_answers ⟨flight, .error stoppingError⟩ hled.distinct hm
  have ht := hled.completes hco han
  rw [show emitSlots ⟨flight, .error stoppingError⟩ ((0, some (Job.token
      { flight := flight
        deadline := 0 })) :: jobs) = _ by rw [emitSlots, if_pos rfl, if_neg nofun]]
    at ht
  exact ht.tail rfl

end TableInv

end Keld.Auth
