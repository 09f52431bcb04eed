/-
# `Keld.Auth.BrokerPolls` — what one poll does

A poll of a begin job answers it at most once, and before it reports it drained
(`BeginPolled`); a poll of a token job keeps the table and the registry together
and answers as many operations as it completes (`TokenPolled`), unless admission
is closed and the job is at its end.
-/
import Keld.Auth.BrokerTable

namespace Keld.Auth

open List SessionRegistry

/-! ## Begin jobs -/

/-- The result of a poll of a job that was answered before or not. -/
structure BeginPolled (done : Bool) (result : Progress × BeginJob × List ReadyResponse) : Prop where
  begun : result.1 ≠ .drained → result.2.1.logicalDone = true → result.2.1.forced.isSome = true
  drained : result.1 = .drained → result.2.1.logicalDone = true
  responses : result.2.2 = [] ∧ result.2.1.logicalDone = done ∨
    ∃ response, result.2.2 = [response] ∧ done = false ∧ result.2.1.logicalDone = true

section Begin

variable {job : BeginJob} {done : Bool} {owners : Owners}

theorem finishBeginError_polled {error : CallError} (hd : job.logicalDone = done) :
    BeginPolled done (finishBeginError job error) := by
  subst hd
  unfold finishBeginError
  cases hd : job.logicalDone with
  | true => exact ⟨fun h => absurd rfl h, fun _ => hd, .inl ⟨rfl, hd⟩⟩
  | false => exact ⟨fun h => absurd rfl h, fun _ => rfl, .inr ⟨_, rfl, rfl, rfl⟩⟩

theorem finishBegin_polled {response : ReadyResponse} (hd : done = false) :
    BeginPolled done (finishBegin job response) :=
  ⟨fun h => absurd rfl h, fun _ => rfl, .inr ⟨response, rfl, hd, rfl⟩⟩

theorem waits_polled {progress : Progress} (hpr : progress ≠ .drained)
    (hd : job.logicalDone = done) (hb : done = true → job.forced.isSome = true) :
    BeginPolled done (progress, job, []) :=
  ⟨fun _ h => hb (hd.symm.trans h), fun h => absurd h hpr, .inl ⟨rfl, hd⟩⟩

theorem pending_polled (hd : job.logicalDone = done)
    (hb : done = true → job.forced.isSome = true) : BeginPolled done (.pending, job, []) :=
  waits_polled nofun hd hb

theorem hostFault_polled {fault : HostFault} (hd : job.logicalDone = done)
    (hb : done = true → job.forced.isSome = true) :
    BeginPolled done (.hostFault fault, job, []) := waits_polled nofun hd hb

theorem open_of_unforced (hb : done = true → job.forced.isSome = true)
    (hfo : job.forced = none) : done = false := by
  cases done with
  | false => rfl
  | true => simpa [hfo] using hb rfl

theorem startBeginHttp_polled (hd : job.logicalDone = false) :
    BeginPolled false (startBeginHttp job owners) := by
  unfold startBeginHttp
  split_ifs with hde
  · cases owners.httpStart with
    | ok _ => exact pending_polled hd nofun
    | error error => exact finishBegin_polled rfl
  · exact hostFault_polled hd nofun

theorem startAsFallback_polled (hd : job.logicalDone = done)
    (hb : done = true → job.forced.isSome = true) :
    BeginPolled done (startAsFallback job owners) := by
  unfold startAsFallback
  split
  · exact finishBeginError_polled hd
  · exact finishBeginError_polled hd
  · exact pending_polled hd hb
  · exact finishBeginError_polled hd
  · exact hostFault_polled hd hb

variable {prompt : AsPrompt}

theorem asOutcome_polled {outcome : AsOutcome} (hd : job.logicalDone = done)
    (hb : done = true → job.forced.isSome = true) :
    BeginPolled done (asOutcome job prompt outcome owners) := by
  unfold asOutcome
  split
  · exact finishBeginError_polled hd
  · rename_i hfo
    have ho := open_of_unforced hb hfo
    split
    · exact startAsFallback_polled hd hb
    · split_ifs with hp
      · split
        · exact finishBeginError_polled hd
        · subst ho
          exact startBeginHttp_polled hd
      · exact hostFault_polled hd hb
    · exact finishBeginError_polled hd
    · exact finishBeginError_polled hd
    · exact finishBeginError_polled hd
    · exact hostFault_polled hd hb

theorem asWorker_polled {id : OperationId} (hd : job.logicalDone = done)
    (hb : done = true → job.forced.isSome = true) :
    BeginPolled done (asWorker id job prompt owners) := by
  unfold asWorker
  split
  · exact pending_polled hd hb
  · exact hostFault_polled hd hb
  · split_ifs with hid
    · exact hostFault_polled hd hb
    · exact asOutcome_polled hd hb

theorem pollAsBegin_polled (id : OperationId) (prompt : AsPrompt) (hd : job.logicalDone = done)
    (hb : done = true → job.forced.isSome = true) :
    BeginPolled done (pollAsBegin id job prompt owners) := by
  unfold pollAsBegin
  -- The deadline may force the job, which answers nothing by itself.
  generalize hforce : (if job.deadline ≤ owners.now ∧ job.forced = none then
    ({ job with
      forced := some deadlineError
      cancelled := true } : BeginJob) else job) = forcedJob
  have hfo : forcedJob.logicalDone = done ∧ (done = true → forcedJob.forced.isSome = true) := by
    subst hforce
    split_ifs with hdl
    · exact ⟨hd, fun _ => rfl⟩
    · exact ⟨hd, hb⟩
  obtain ⟨hd', hb'⟩ := hfo
  dsimp only
  split_ifs with hnat hreq
  · split
    · exact finishBeginError_polled hd'
    · exact hostFault_polled hd' hb'
  · split
    · exact finishBeginError_polled hd'
    · exact pending_polled hd' hb'
    · split_ifs with hs
      · exact finishBeginError_polled hd'
      · exact hostFault_polled hd' hb'
    · exact asWorker_polled hd' hb'
  · exact asWorker_polled hd' hb'

theorem pollBegin_polled (owners : Owners) (registry : SessionRegistry) (id : OperationId)
    (hd : job.logicalDone = done) (hb : done = true → job.forced.isSome = true) :
    BeginPolled done (pollBegin registry id job owners).1 := by
  unfold pollBegin
  split
  · exact pollAsBegin_polled id _ hd hb
  · rename_i prompt hph
    dsimp only
    generalize pollPrompt prompt owners = polled
    split
    · exact hostFault_polled hd hb
    · exact pending_polled hd hb
    · exact finishBeginError_polled hd
    · exact pending_polled hd hb
    · rename_i hbrowser hfo hcallback
      have ho := open_of_unforced hb hfo
      split
      · exact finishBegin_polled ho
      · exact finishBegin_polled ho
      · subst ho
        exact startBeginHttp_polled hd
  · split
    · exact pending_polled hd hb
    · exact hostFault_polled hd hb
    · split_ifs with hl
      · exact ⟨fun h => absurd rfl h, fun _ => hl, .inl ⟨rfl, hd⟩⟩
      · rw [hd] at hl
        exact finishBegin_polled (eq_false_of_ne_true hl)

end Begin

/-! ## The registry under a begin job -/

variable {r : SessionRegistry} {jobs : List Slot}

theorem registerCompletedBegin_table (h : TableInv r jobs) (profileKey : String)
    (entropy : List Byte) (refreshToken : Option Text) (scopes : Option (List Text))
    (initial : Option AccessToken) (granted : List Text) (now : ℕ) :
    TableInv (r.registerCompletedBegin profileKey entropy refreshToken scopes initial granted now).2
      jobs := by
  unfold registerCompletedBegin
  split_ifs with hs
  · exact h
  · cases providerProfile profileKey with
    | none => exact h
    | some profile =>
      unfold checkedSucc
      split_ifs with hn
      · exact h.registered entropy _ hn rfl rfl (fun key outcome hca => by
            obtain ⟨token, hfi, he⟩ := Option.map_eq_some_iff.mp hca
            obtain ⟨rfl, rfl⟩ := Prod.mk.inj he
            exact ⟨token, (Option.filter_eq_some_iff.mp hfi).1, rfl, rfl⟩)
      · exact h

theorem pollBegin_table (h : TableInv r jobs) (id : OperationId) (job : BeginJob) (owners : Owners)
    :
    TableInv (pollBegin r id job owners).2 jobs := by
  unfold pollBegin
  split
  · exact h
  · dsimp only
    generalize pollPrompt _ owners = polled
    split
    · exact h
    · exact h
    · exact h
    · exact h
    · split
      · exact h
      · exact h
      · exact h
  · split
    · exact h
    · exact h
    · split_ifs with hd
      · exact h
      · rename_i result _
        unfold beginReply
        split
        · exact h
        · exact h
        · exact h
        · exact h
        · rename_i token entropy _ _ _
          have hreg := registerCompletedBegin_table h job.profile.key entropy token.refresh
            job.scopes (some token.access) token.grantedScopes owners.now
          split
          · rename_i he
            rwa [he] at hreg
          · rename_i he
            rwa [he] at hreg

/-! ## Token jobs -/

/-- The registry once a job is put back. -/
def Progress.leaves (registry : SessionRegistry) : Progress → SessionRegistry
  | .hostFault _ => registry.closeAdmission
  | _ => registry

/-- The table with the job that is polled in front. -/
def TokenPoll.slots (p : TokenPoll) (serial : ℕ) : List Slot :=
  (serial, some (.token p.job)) :: p.jobs

structure TokenPolled (serial : ℕ) (p : TokenPoll) (result : Progress × TokenPoll) : Prop where
  table : TableInv (result.1.leaves result.2.registry) (result.2.slots serial)
  operations : ∃ events, result.2.events = p.events ++ events ∧
    (openOperations (p.slots serial)).Perm
      (events.map Prod.fst ++ openOperations (result.2.slots serial))
  serials : (result.2.slots serial).map Prod.fst = (p.slots serial).map Prod.fst
  filled : (result.2.slots serial).map (fun slot => slot.2.isSome) =
    (p.slots serial).map (fun slot => slot.2.isSome)
  drained : result.1 = .drained → result.2.job.logicalDone = true

namespace TokenPoll

variable {p : TokenPoll} {serial : ℕ} {owners : Owners}

theorem emit_slots (p : TokenPoll) (serial : ℕ) (completion : Completion) :
    (p.emit serial completion).slots serial = (emitSlots completion (p.slots serial)).1 ∧
      (p.emit serial completion).events = p.events ++ (emitSlots completion (p.slots serial)).2 ∧
      (p.emit serial completion).registry = p.registry ∧
      (p.emit serial completion).job.flight = p.job.flight := by
  have hs : emitSlots completion (p.slots serial) =
      if p.job.flight = completion.flight then
        if p.job.logicalDone then (p.slots serial, [])
        else
          ((serial, some (.token { p.job with logicalDone := true })) :: p.jobs,
            [(serial, .token completion.result)])
      else
        ((serial, some (.token p.job)) :: (emitSlots completion p.jobs).1,
          (emitSlots completion p.jobs).2) := by
    rw [slots, emitSlots]
  rw [hs]
  unfold emit
  split_ifs with hfl hd
  · exact ⟨rfl, (append_nil _).symm, rfl, rfl⟩
  · exact ⟨rfl, rfl, rfl, rfl⟩
  · exact ⟨rfl, rfl, rfl, rfl⟩

theorem emitAll_slots (serial : ℕ) : ∀ (completions : List Completion) (p : TokenPoll),
    (p.emitAll serial completions).slots serial =
        (AuthBroker.emitEach (p.slots serial) completions).1 ∧
      (p.emitAll serial completions).events =
        p.events ++ (AuthBroker.emitEach (p.slots serial) completions).2 ∧
      (p.emitAll serial completions).registry = p.registry ∧
      (p.emitAll serial completions).job.flight = p.job.flight
  | [], p => ⟨rfl, (append_nil _).symm, rfl, rfl⟩
  | completion :: rest, p => by
    obtain ⟨hs, hevs, hre, hfl⟩ := emit_slots p serial completion
    obtain ⟨hs', hevs', hre', hfl'⟩ := emitAll_slots serial rest (p.emit serial completion)
    refine ⟨?_, ?_, hre'.trans hre, hfl'.trans hfl⟩
    · rw [hs] at hs'
      exact hs'
    · rw [hs, hevs, append_assoc] at hevs'
      exact hevs'

variable {r' : SessionRegistry}

/-- The registry completes the flight of the job, and the job is answered. -/
theorem completed_polled {completions : List Completion} (h : TableInv p.registry (p.slots serial))
    (hco : p.registry.Completes r' (completions.map Completion.flight))
    (hm : p.job.flight ∈ completions.map Completion.flight) :
    TokenPolled serial p (.drained, { p with registry := r' }.emitAll serial completions) ∧
      ({ p with registry := r' }.emitAll serial completions).job.logicalDone = true := by
  obtain ⟨hs, hevs, hre, hfl⟩ := emitAll_slots serial completions { p with registry := r' }
  have han := emitEach_answers completions h.distinct (h.completes_open hco)
  have ht := h.completes hco han
  have hd : ({ p with registry := r' }.emitAll serial completions).job.logicalDone = true := by
    have hg : p.job.flight ∉ r'.live := by
      have hno := hco.live.nodup_iff.mp h.wf.nodup_live
      exact fun hl => (nodup_append.mp hno).2.2 _ hm _ hl rfl
    rw [← hfl] at hg
    have hh : (serial, some (Job.token
        ({ p with registry := r' }.emitAll serial completions).job)) ∈
          (AuthBroker.emitEach (p.slots serial) completions).1 := by
      change _ ∈ (AuthBroker.emitEach
        (({ p with registry := r' } : TokenPoll).slots serial) completions).1
      rw [← hs]
      exact mem_cons_self
    have hiff := ht.live_iff hh
    cases hlo : ({ p with registry := r' }.emitAll serial completions).job.logicalDone with
    | true => rfl
    | false => exact absurd (hiff.mpr hlo) hg
  refine ⟨⟨?_, ⟨_, hevs, ?_⟩, ?_, ?_, fun _ => hd⟩, hd⟩
  · rw [hre, hs]
    exact ht
  · rw [hs]
    exact han.operations
  · rw [hs]
    exact han.marked.serials
  · rw [hs]
    exact han.marked.filled

/-- Nothing is answered, and the job stays as it is. -/
theorem waits_polled {progress : Progress} (h : TableInv p.registry (p.slots serial))
    (hdrn : progress = .drained → p.job.logicalDone = true) :
    TokenPolled serial p (progress, p) where
  table := by
    cases progress with
    | hostFault _ => exact h.closeAdmission
    | pending | drained => exact h
  operations := ⟨[], (append_nil _).symm, List.Perm.refl _⟩
  serials := rfl
  filled := rfl
  drained := hdrn

section

variable (h : TableInv p.registry (p.slots serial))
include h

theorem abandon_polled (error : CallError) : TokenPolled serial p (p.abandon serial error) := by
  unfold abandon
  by_cases hl : p.job.flight ∈ p.registry.live
  · obtain ⟨hcpl, hco⟩ := abandon_live h.wf hl error
    generalize p.registry.abandon p.job.flight error = abandoned at hcpl hco ⊢
    obtain ⟨_, r'⟩ := abandoned
    cases hcpl
    exact (completed_polled h hco (mem_singleton_self _)).1
  · rw [abandon_retired hl]
    refine waits_polled h fun _ => ?_
    cases hlo : p.job.logicalDone with
    | true => rfl
    | false => exact absurd ((h.live_iff mem_cons_self).mpr hlo) hl

/-- The exchange began, and is given up at once. -/
theorem abandon_begun_polled (hbeg : p.registry.Begins r' p.job.flight) (error : CallError) :
    TokenPolled serial p ({ p with registry := r' }.abandon serial error) := by
  have hl : p.job.flight ∈ r'.live := hbeg.wf.active_live hbeg.active
  obtain ⟨hcpl, hco⟩ := abandon_live hbeg.wf hl error
  unfold abandon
  generalize r'.abandon p.job.flight error = abandoned at hcpl hco ⊢
  obtain ⟨_, r''⟩ := abandoned
  cases hcpl
  exact (completed_polled h (hbeg.completes hco) (mem_singleton_self _)).1

theorem startToken_polled (hht : p.job.http = false)
    (he : ¬ (p.registry.stopping = true ∧ p.job.Ends owners)) :
    TokenPolled serial p (p.startToken serial owners) := by
  unfold startToken
  cases hfo : p.job.forced with
  | some error => exact abandon_polled h error
  | none =>
    by_cases hdl : p.job.deadline ≤ owners.now
    · rw [if_pos hdl]
      exact abandon_polled h deadlineError
    rw [if_neg hdl]
    by_cases hd : p.job.logicalDone = true
    · have hg : p.job.flight ∉ p.registry.live := by
        rw [h.live_iff mem_cons_self, hd]
        exact nofun
      rw [tryStart_retired (.inr hg)]
      exact waits_polled h fun _ => hd
    · have hl := eq_false_of_ne_true hd
      have hs : p.registry.stopping = false := by
        refine eq_false_of_ne_true fun hs => he ⟨hs, hl, hfo, ?_⟩
        rw [hht]
        exact Nat.lt_of_not_le hdl
      have hli := (h.live_iff mem_cons_self).mpr hl
      have hi : ¬ p.registry.Active p.job.flight := by
        rw [← h.active hs serial p.job mem_cons_self hl, hht]
        exact nofun
      have hst := tryStart_starts h.wf hs hli hi
      generalize p.registry.tryStart p.job.flight = started at hst ⊢
      cases hst with
      | waiting => exact waits_polled h nofun
      | completed completion r' hfl hco =>
        have hfls : [completion].map Completion.flight = [p.job.flight] := by
          rw [map_singleton, hfl]
        rw [← hfls] at hco
        have hm : p.job.flight ∈ [completion].map Completion.flight := by
          rw [hfls]
          exact mem_singleton_self _
        exact (completed_polled h hco hm).1
      | started input r' hbeg =>
        have ht := h.begins hl hbeg
        dsimp only
        split
        · exact abandon_begun_polled h hbeg _
        · -- The job stays as if it had not begun: only a closed registry may be left so.
          exact
            { table := ht.closeAdmission.unbegun rfl
              operations := ⟨[], (append_nil _).symm, List.Perm.refl _⟩
              serials := rfl
              filled := rfl
              drained := nofun }
        · exact
            { table := ht
              operations := ⟨[], (append_nil _).symm, List.Perm.refl _⟩
              serials := rfl
              filled := rfl
              drained := nofun }
        · exact abandon_begun_polled h hbeg _

theorem fail_polled (hs : p.registry.stopping = false) (ha : p.registry.Active p.job.flight)
    (failure : ExchangeFailure) :
    TokenPolled serial p (.drained, p.fail serial failure) ∧
      (p.fail serial failure).job.logicalDone = true := by
  obtain ⟨hco, hm⟩ := finishFailure_active h.wf hs ha failure
  exact completed_polled h hco hm

theorem finishTokenHttp_polled (hht : p.job.http = true)
    {result : Except CallError (Except TokenReplyError ParsedToken)}
    (hres : owners.http = .complete result)
    (he : ¬ (p.registry.stopping = true ∧ p.job.Ends owners)) :
    TokenPolled serial p (p.finishTokenHttp serial result owners) := by
  unfold finishTokenHttp
  by_cases hl : p.job.logicalDone = true
  · rw [if_pos hl]
    exact waits_polled h fun _ => hl
  rw [if_neg hl]
  have ho := eq_false_of_ne_true hl
  cases hfo : p.job.forced with
  | some error => exact abandon_polled h error
  | none =>
    have hs : p.registry.stopping = false := by
      refine eq_false_of_ne_true fun hs => he ⟨hs, ho, hfo, ?_⟩
      rw [if_pos hht]
      exact ⟨result, hres⟩
    have ha : p.registry.Active p.job.flight := (h.active hs serial p.job mem_cons_self ho).mp hht
    -- Each way out answers the job, so that setting it answered changes nothing.
    have hpo : ∀ p' : TokenPoll, TokenPolled serial p (.drained, p') ∧ p'.job.logicalDone = true →
          TokenPolled serial p
            (.drained, { p' with job := { p'.job with logicalDone := true } }) := by
      rintro p' ⟨hpo, hd⟩
      rwa [← hd]
    refine hpo _ ?_
    split
    · exact fail_polled h hs ha _
    · exact fail_polled h hs ha _
    · rename_i token
      obtain ⟨outcome, hcpl, hco⟩ := finishSuccess_active h.wf
        hs ha token.access token.refresh owners.now
      generalize p.registry.finishSuccess p.job.flight token.access token.refresh owners.now =
        finished at hcpl hco ⊢
      obtain ⟨_, r'⟩ := finished
      cases hcpl
      exact completed_polled h hco (mem_singleton_self _)

theorem poll_polled (he : ¬ (p.registry.stopping = true ∧ p.job.Ends owners)) :
    TokenPolled serial p (p.poll serial owners) := by
  unfold poll
  cases hht : p.job.http with
  | false => exact startToken_polled h hht he
  | true =>
    rw [if_neg (by simp)]
    split
    · exact waits_polled h nofun
    · exact waits_polled h nofun
    · rename_i result hres
      exact finishTokenHttp_polled h hht hres he

end

end TokenPoll

end Keld.Auth
