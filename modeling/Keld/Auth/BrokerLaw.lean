/-
# `Keld.Auth.BrokerLaw` — every operation is answered once, unless it strands

A step that strands nothing keeps the invariant (`BrokerInv.step`), and one that
does reports an operation drained that was never answered
(`BrokerInv.stranded`).  So the law of the broker holds of a run exactly when no
step of it strands (`broker_answers_iff`).
-/
import Keld.Auth.BrokerSafety

namespace Keld.Auth

open List

/-! ## Steps -/

namespace BrokerInv

variable {s : BrokerSession}

theorem step (h : BrokerInv s) {event : BrokerEvent} (hok : s.StepOk event) :
    BrokerInv (s.step event) := by
  cases event with
  | begin scopes checks => exact h.began scopes checks
  | token accountId scopes checks => exact h.requested accountId scopes checks
  | cancel id terminal => exact h.cancelled id terminal
  | poll id owners =>
    unfold BrokerSession.step
    dsimp only
    split_ifs with hfo
    · exact h
    · have hha : id.owner = s.broker.owner → id.serial ∈ handed s.log :=
        fun ho => not_not.mp fun hm => hfo ⟨ho, hm⟩
      exact h.polled id owners hha fun hst => hok (hha hst.1) hst
  | stopForHostTail => exact h.stopped

theorem initial (owner : ℕ) : BrokerInv { broker := { owner := owner } } where
  table :=
    { wf := ⟨[], run_registryInv []⟩
      flights := List.Perm.refl _
      distinct := nodup_nil
      bound := nofun
      active := nofun
      begun := nofun }
  accounted := List.Perm.refl _
  handedOnce := nodup_nil
  bound _ hm := nomatch hm
  distinct := nodup_nil
  owned _ hm := nomatch hm
  filled _ hm := nomatch hm
  gone _ hm := nomatch hm
  permitted := always_nil _

end BrokerInv

/-- A job whose flight the registry no longer completes drains, and answers nothing. -/
theorem TokenPoll.poll_stranded {p : TokenPoll} {owners : Owners} (serial : ℕ)
    (hs : p.registry.stopping = true) (he : p.job.Ends owners) :
    (p.poll serial owners).1 = .drained ∧ (p.poll serial owners).2.events = p.events := by
  obtain ⟨ho, hfo, hl⟩ := he
  unfold poll
  cases hht : p.job.http with
  | false =>
    rw [hht, if_neg Bool.false_ne_true] at hl
    rw [if_pos Bool.false_ne_true]
    unfold startToken
    rw [hfo]
    rw [if_neg (Nat.not_le.mpr hl), SessionRegistry.tryStart_retired (.inl hs)]
    exact ⟨rfl, rfl⟩
  | true =>
    rw [hht, if_pos rfl] at hl
    obtain ⟨result, hres⟩ := hl
    rw [if_neg (not_not.mpr rfl), hres]
    dsimp only
    unfold finishTokenHttp
    rw [if_neg (by rw [ho]; exact Bool.false_ne_true), hfo]
    dsimp only
    refine ⟨rfl, ?_⟩
    have hf : ∀ failure, (p.fail serial failure).events = p.events := by
      intro failure
      unfold fail SessionRegistry.finishFailure
      rw [if_pos hs]
      rfl
    split
    · exact hf _
    · exact hf _
    · unfold SessionRegistry.finishSuccess
      rw [if_pos hs]
      rfl

namespace BrokerInv

variable {s : BrokerSession}

/-- The operation is reported drained, and it has no answer. -/
theorem stranded (h : BrokerInv s) {id : OperationId} {owners : Owners}
    (hha : id.serial ∈ handed s.log) (hsr : s.broker.Strands id owners) :
    (s.step (.poll id owners)).log = s.log ++ [.drained id.serial] ∧
      id.serial ∉ answered s.log := by
  obtain ⟨ho, hst, index, job, hhe, hs, he⟩ := hsr
  constructor
  · obtain ⟨hdrn, hevs⟩ := TokenPoll.poll_stranded id.serial (p :=
      { registry := s.broker.registry
        jobs := s.broker.jobs.set index (id.serial, none)
        job := job }) hst he
    unfold BrokerSession.step
    dsimp only
    rw [if_neg (fun hfo => hfo.2 hha), AuthBroker.poll_token ho hhe hs rfl]
    rw [hdrn, hevs]
    rfl
  · refine (h.open_unanswered (mem_filterMap.mpr ⟨_, mem_of_getElem? hs, ?_⟩)).2
    rw [slotOpen_some, Job.isDone, he.1]
    rfl

end BrokerInv

/-! ## Runs -/

variable {owner : ℕ} {events : List BrokerEvent}

theorem unstranded_snoc {event : BrokerEvent} :
    Unstranded owner (events ++ [event]) ↔
      Unstranded owner events ∧ (BrokerSession.run owner events).StepOk event := by
  constructor
  · intro h
    refine ⟨fun before other after he => ?_, h events event [] rfl⟩
    refine h before other (after ++ [event]) ?_
    rw [he, append_assoc, cons_append]
  · rintro ⟨h, hl⟩ before other after he
    rcases eq_nil_or_concat after with rfl | ⟨front, last, haf⟩
    · obtain ⟨rfl, hc⟩ := append_inj' he rfl
      cases hc
      exact hl
    · rw [concat_eq_append] at haf
      subst haf
      rw [← cons_append, ← append_assoc] at he
      exact h before other front (append_inj' he rfl).1

theorem run_brokerInv (h : Unstranded owner events) :
    BrokerInv (BrokerSession.run owner events) := by
  induction events using reverseRecOn with
  | nil => exact .initial owner
  | append_singleton events event ih =>
    obtain ⟨hea, hok⟩ := unstranded_snoc.mp h
    rw [BrokerSession.run_snoc]
    exact (ih hea).step hok

theorem step_log (s : BrokerSession) (event : BrokerEvent) :
    ∃ facts, (s.step event).log = s.log ++ facts := by
  cases event with
  | begin | token | cancel | stopForHostTail => exact ⟨_, rfl⟩
  | poll id owners =>
    unfold BrokerSession.step
    dsimp only
    split_ifs with hfo
    · exact ⟨[], (append_nil _).symm⟩
    · exact ⟨_, rfl⟩

theorem always_of_append {E : Type} {P : List E → E → Prop} {log facts : List E}
    (h : Always P (log ++ facts)) : Always P log := by
  rintro before e after rfl
  exact h before e (after ++ facts) (by rw [append_assoc, cons_append])

theorem unstranded_of_always (h : Always BrokerPermitted (BrokerSession.run owner events).log) :
    Unstranded owner events := by
  induction events using reverseRecOn with
  | nil =>
    intro before event after he
    cases before <;> cases he
  | append_singleton events event ih =>
    rw [BrokerSession.run_snoc] at h
    obtain ⟨facts, hf⟩ := step_log (BrokerSession.run owner events) event
    have hea : Unstranded owner events := by
      rw [hf] at h
      exact ih (always_of_append h)
    refine unstranded_snoc.mpr ⟨hea, ?_⟩
    cases event with
    | begin | token | cancel | stopForHostTail => exact trivial
    | poll id owners =>
      intro hha hst
      obtain ⟨hl, hun⟩ := (run_brokerInv hea).stranded hha hst
      rw [hl, always_snoc] at h
      exact hun h.2.2

/-- Every operation that is handed out is answered once, by the poll that drains it at the
latest, and no flight is without its job, exactly in the runs that strand no job. -/
theorem broker_answers_iff (owner : ℕ) (events : List BrokerEvent) :
    Always BrokerPermitted (BrokerSession.run owner events).log ↔ Unstranded owner events :=
  ⟨unstranded_of_always, fun h => (run_brokerInv h).permitted⟩

/-! ## A host fault in the middle of a pass -/

/-- Owners of which none has come to an end. -/
def busyOwners : Owners where
  now := 0
  submit := .pending
  presentation := .pending
  loopback := .pending
  browser := .pending
  tokenForm := .ok ()
  redirectPlan := .ok ()
  generate := .ok ()
  makePrompt := .ok ()
  deadlines := true
  httpStart := .ok ()
  http := .pending
  refreshForm := .ok ()
  entropy := some []

def passedBegin : BeginChecks where
  verified := true
  profile := .ok
    { key := "entra-common"
      issuer := "https://login.microsoftonline.com/common" }
  guard := .ok ()
  clientId := .ok ()
  loginHint := .ok ()
  asRedirect := .ok false
  redirectPlan := .ok ()
  deadline := some 100
  admits := true
  generate := .ok ()
  asPort := true
  authorizationUri := .ok ()
  cleanup := true
  makePrompt := .ok ()

def passedToken : TokenChecks where
  verified := true
  guard := .allowed
  admits := true
  now := 0
  deadline := some 100
  clientId := .ok ()
  outOfScope := stoppingError

/-- Two token requests of one account; the exchange of the first faults, and the second is
polled in the same pass. -/
def faultedPass : List BrokerEvent :=
  let account := accountIdOf [] 1
  [.begin none passedBegin,
    .poll ⟨0, 1⟩ { busyOwners with
      loopback := .complete (.ok ())
      browser := .complete (.ok ()) },
    .poll ⟨0, 1⟩ { busyOwners with
      http := .complete (.ok (.ok
        { access :=
            { access := []
              tokenType := []
              expiresAt := 0
              freshUntil := 0 }
          refresh := some []
          grantedScopes := [] })) },
    .token account (some [['a']]) passedToken,
    .token account (some [['b']]) passedToken,
    .poll ⟨0, 2⟩ busyOwners,
    .poll ⟨0, 3⟩ busyOwners,
    .poll ⟨0, 2⟩ { busyOwners with http := .cleanupUnproven deadlineError },
    .poll ⟨0, 3⟩ busyOwners]

/-- The second operation is drained, and was never answered. -/
theorem faulted_pass_strands : ¬ Always BrokerPermitted (BrokerSession.run 0 faultedPass).log := by
  intro h
  have hdrn : (BrokerSession.run 0 faultedPass).log.any (fun fact =>
      match fact with
      | .drained serial => serial == 3
      | _ => false) = true := by decide +kernel
  have hans : answered (BrokerSession.run 0 faultedPass).log = [1] := by decide +kernel
  obtain ⟨fact, hm, hf⟩ := any_eq_true.mp hdrn
  cases fact with
  | drained serial =>
    obtain ⟨before, after, hl, -, hb⟩ := h.of_mem hm
    rw [hl, answered_append] at hans
    have ho : serial ∈ [1] := by
      rw [← hans]
      exact mem_append_left _ hb
    rw [mem_singleton.mp ho] at hf
    exact nomatch hf
  | pending | followed | missing | response | faulted => exact nomatch hf

end Keld.Auth
