/-
# `Keld.Auth.Broker` — the operations of an auth broker

A broker keeps one job for each operation it was given a lease for.  A begin job
goes through a presentation, or a browser and its loopback flow, and then one
exchange; a token job makes one exchange for the flight it leads.  What the
owners outside answer (the presentation, the browser, the HTTP operation, the
decoder of a reply) are the fields of `Owners`, and what the checks of a request
give those of `BeginChecks` and `TokenChecks`.

While a job is polled its slot of the table is empty.
-/
import Keld.Auth.Registry
import Keld.Lib.Except

namespace Keld.Auth

open StateFault

/-- `OperationId`: which broker, and which operation of it. -/
structure OperationId where
  owner : ℕ
  serial : ℕ
deriving DecidableEq

inductive ReadyResponse where
  | begin (response : AuthResponse)
  | token (outcome : TokenOutcome)
  | error (error : CallError)

inductive AsFault where
  | stopping
  | identity
  | startValue
  | anchor
  | providerInit
  | statePoisoned
  | callbackProtocol
deriving DecidableEq

inductive HostFault where
  | snapshotMismatch
  | ownerMismatch
  | clockOverflow
  | unexpectedTokenDenial
  | unresolvedAfterAllow
  | missingTokenOwner
  | browserCleanupUnproven (error : CallError)
  | httpCleanupUnproven (error : CallError)
  | asPresentation (fault : AsFault)
deriving DecidableEq

inductive HandleState where
  | ready (response : ReadyResponse)
  /-- `leads` is whether the lease comes with it. -/
  | pending (operation : OperationId) (leads : Bool)
  | atCapacity
  | hostFault (fault : HostFault)
  | deniedInvariant (response : ReadyResponse) (fault : HostFault)

inductive Progress where
  | pending
  | drained
  | hostFault (fault : HostFault)
deriving DecidableEq

/-! ## Errors of the broker's own -/

def deadlineError : CallError where
  code := "KELD-AUTH-008"
  message := "KELD-AUTH-008: the admitted authorization step did not complete within its " ++
    "absolute host bound. Start a fresh user-initiated auth.begin; no automatic retry occurs."

def asCanceledError : CallError where
  code := "KELD-AUTH-007"
  message := "KELD-AUTH-007: the user canceled the authentication session. Start a fresh " ++
    "user-initiated auth.begin when ready to sign in."

def asPresentationFailedError : CallError where
  code := "KELD-AUTH-017"
  message := "KELD-AUTH-017: macOS could not complete the authentication presentation. Ensure " ++
    "the Keld window remains available, then start a new user-initiated auth.begin; no " ++
    "automatic retry occurs."

def entropyError : CallError where
  code := "KELD-AUTH-016"
  message := "KELD-AUTH-016: host auth processing failed because OS randomness is unavailable. " ++
    "Restore the host random source, then start a fresh user-initiated auth.begin."

def stoppingError : CallError := stopping.wireError

/-! ## The owners outside -/

inductive PromptFailure where
  | auth (error : CallError)
  /-- The host fault of a clock that cannot represent the deadlines. -/
  | clockOverflow

inductive AsSubmit where
  | submitted
  | pending
  | rejected (fault : AsFault)

inductive AsOutcome where
  /-- What the correlation of the callback and the form of the exchange give. -/
  | callbackUri (form : Except CallError Unit)
  | canceledLogin
  | presentationContextFailed
  | startUnavailable
  | hostStopped
  | fault (fault : AsFault)

inductive AsWorkerProgress where
  | pending
  | unproved (fault : AsFault)
  | drained (operation : OperationId) (outcome : AsOutcome)

inductive LoopbackProgress where
  | pending
  | complete (result : Except CallError Unit)

inductive BrowserProgress where
  | pending
  | cleanupUnproven (error : CallError)
  | complete (result : Except CallError Unit)

structure ParsedToken where
  access : AccessToken
  refresh : Option Text
  grantedScopes : List Text

/-- An error of the reply, and whether it is a terminal `invalid_grant`. -/
structure TokenReplyError where
  wire : CallError
  terminalInvalidGrant : Bool

inductive HttpProgress where
  | pending
  | cleanupUnproven (error : CallError)
  /-- The exchange failed, or `decode_token_reply` reads its receipt. -/
  | complete (result : Except CallError (Except TokenReplyError ParsedToken))

/-- What a poll hears from outside. -/
structure Owners where
  now : ℕ
  submit : AsSubmit
  presentation : AsWorkerProgress
  loopback : LoopbackProgress
  browser : BrowserProgress
  tokenForm : Except CallError Unit
  redirectPlan : Except CallError Unit
  generate : Except CallError Unit
  makePrompt : Except PromptFailure Unit
  /-- Whether the clock can represent the deadlines of an exchange. -/
  deadlines : Bool
  httpStart : Except CallError Unit
  http : HttpProgress
  refreshForm : Except CallError Unit
  entropy : Option (List Byte)

/-! ## Jobs -/

structure AsPrompt where
  /-- Whether the request, and the pending authorization, are still there. -/
  request : Bool := true
  pending : Bool := true
  nativeDone : Bool := false

structure Prompt where
  callback : Option (Except CallError Unit) := none
  browserDone : Bool := false

inductive BeginPhase where
  | presentation (prompt : AsPrompt)
  | prompt (prompt : Prompt)
  | http

structure BeginJob where
  profile : ProviderProfile
  scopes : Option (List Text)
  deadline : ℕ
  phase : BeginPhase
  cancelled : Bool := false
  forced : Option CallError := none
  logicalDone : Bool := false

structure TokenJob where
  flight : FlightId
  deadline : ℕ
  http : Bool := false
  cancelled : Bool := false
  forced : Option CallError := none
  logicalDone : Bool := false

inductive Job where
  | begin (job : BeginJob)
  | token (job : TokenJob)

/-- An entry of the ownership table. -/
abbrev Slot := ℕ × Option Job

/-- A response, under the operation it is for. -/
abbrev ResponseEvent := ℕ × ReadyResponse

structure AuthBroker where
  registry : SessionRegistry := {}
  owner : ℕ := 0
  nextOperation : ℕ := 0
  jobs : List Slot := []

/-! ## Begin jobs -/

def finishBeginError (job : BeginJob) (error : CallError) : Progress × BeginJob × List ReadyResponse :=
  if job.logicalDone then (.drained, job, [])
  else (.drained, { job with logicalDone := true }, [.error error])

/-- A response that is not asked for twice. -/
def finishBegin (job : BeginJob) (response : ReadyResponse) :
    Progress × BeginJob × List ReadyResponse :=
  (.drained, { job with logicalDone := true }, [response])

def startBeginHttp (job : BeginJob) (owners : Owners) : Progress × BeginJob × List ReadyResponse :=
  if ¬ owners.deadlines then (.hostFault .clockOverflow, job, [])
  else
    match owners.httpStart with
    | .ok () => (.pending, { job with phase := .http }, [])
    | .error error => finishBegin job (.error error)

def startAsFallback (job : BeginJob) (owners : Owners) :
    Progress × BeginJob × List ReadyResponse :=
  match owners.redirectPlan, owners.generate, owners.makePrompt with
  | .error error, _, _ => finishBeginError job error
  | .ok (), .error error, _ => finishBeginError job error
  | .ok (), .ok (), .ok () => (.pending, { job with phase := .prompt {} }, [])
  | .ok (), .ok (), .error (.auth error) => finishBeginError job error
  | .ok (), .ok (), .error .clockOverflow => (.hostFault .clockOverflow, job, [])

/-- The last part of `poll_as_begin`, once the presentation has drained. -/
def asOutcome (job : BeginJob) (prompt : AsPrompt) (outcome : AsOutcome) (owners : Owners) :
    Progress × BeginJob × List ReadyResponse :=
  match job.forced with
  | some error => finishBeginError job error
  | none =>
    match outcome with
    | .startUnavailable => startAsFallback job owners
    | .callbackUri form =>
      if ¬ prompt.pending then (.hostFault (.asPresentation .identity), job, [])
      else
        let job := { job with phase := .presentation { prompt with pending := false } }
        match form with
        | .error error => finishBeginError job error
        | .ok () => startBeginHttp job owners
    | .canceledLogin => finishBeginError job asCanceledError
    | .presentationContextFailed => finishBeginError job asPresentationFailedError
    | .hostStopped => finishBeginError job stoppingError
    | .fault fault => (.hostFault (.asPresentation fault), job, [])

/-- The middle part, once the request is submitted. -/
def asWorker (id : OperationId) (job : BeginJob) (prompt : AsPrompt) (owners : Owners) :
    Progress × BeginJob × List ReadyResponse :=
  match owners.presentation with
  | .pending => (.pending, job, [])
  | .unproved fault => (.hostFault (.asPresentation fault), job, [])
  | .drained operation outcome =>
    if operation ≠ id then (.hostFault (.asPresentation .identity), job, [])
    else
      let prompt := { prompt with nativeDone := true }
      asOutcome { job with phase := .presentation prompt } prompt outcome owners

def pollAsBegin (id : OperationId) (job : BeginJob) (prompt : AsPrompt) (owners : Owners) :
    Progress × BeginJob × List ReadyResponse :=
  let job :=
    if job.deadline ≤ owners.now ∧ job.forced = none then
      { job with
        forced := some deadlineError
        cancelled := true }
    else job
  if prompt.nativeDone then
    match job.forced with
    | some error => finishBeginError job error
    | none => (.hostFault (.asPresentation .identity), job, [])
  else if ¬ prompt.request then asWorker id job prompt owners
  else
    match job.forced, owners.submit with
    | some error, _ =>
      finishBeginError
        { job with phase := .presentation { prompt with
            request := false
            nativeDone := true } } error
    | none, .pending => (.pending, job, [])
    | none, .rejected fault =>
      let job := { job with phase := .presentation { prompt with
        request := false
        nativeDone := true } }
      if fault = .stopping then finishBeginError job stoppingError
      else (.hostFault (.asPresentation fault), job, [])
    | none, .submitted =>
      let prompt := { prompt with request := false }
      asWorker id { job with phase := .presentation prompt } prompt owners

/-- `poll_prompt`: the prompt afterwards, and whether the browser is done. -/
def pollPrompt (prompt : Prompt) (owners : Owners) : Prompt × Except HostFault Bool :=
  let prompt :=
    match prompt.callback, owners.loopback with
    | none, .complete result => { prompt with callback := some result }
    | _, _ => prompt
  if prompt.browserDone then (prompt, .ok true)
  else
    match owners.browser with
    | .pending => (prompt, .ok false)
    | .cleanupUnproven error => (prompt, .error (.browserCleanupUnproven error))
    | .complete result =>
      match prompt.callback, result with
      | some (.error _), _ | _, .ok () => ({ prompt with browserDone := true }, .ok true)
      | _, .error error =>
        ({ callback := some (.error error), browserDone := true }, .ok true)

/-- `finish_begin_http`, up to its response. -/
def beginReply (registry : SessionRegistry) (job : BeginJob)
    (result : Except CallError (Except TokenReplyError ParsedToken)) (owners : Owners) :
    ReadyResponse × SessionRegistry :=
  match job.forced, result, owners.entropy with
  | some error, _, _ => (.error error, registry)
  | none, .error error, _ => (.error error, registry)
  | none, .ok (.error error), _ => (.error error.wire, registry)
  | none, .ok (.ok _), none => (.error entropyError, registry)
  | none, .ok (.ok token), some entropy =>
    match registry.registerCompletedBegin job.profile.key entropy token.refresh job.scopes
      (some token.access) token.grantedScopes owners.now with
    | (.ok response, registry) => (.begin response, registry)
    | (.error fault, registry) => (.error fault.wireError, registry)

def pollBegin (registry : SessionRegistry) (id : OperationId) (job : BeginJob) (owners : Owners) :
    (Progress × BeginJob × List ReadyResponse) × SessionRegistry :=
  match job.phase with
  | .presentation prompt => (pollAsBegin id job prompt owners, registry)
  | .prompt prompt =>
    let polled := pollPrompt prompt owners
    let job := { job with phase := .prompt polled.1 }
    match polled.2, job.forced, polled.1.callback with
    | .error fault, _, _ => ((.hostFault fault, job, []), registry)
    | .ok false, _, _ => ((.pending, job, []), registry)
    | .ok true, some error, _ => (finishBeginError job error, registry)
    | .ok true, none, none => ((.pending, job, []), registry)
    | .ok true, none, some callback =>
      let job := { job with phase := .prompt { polled.1 with callback := none } }
      match callback, owners.tokenForm with
      | .error error, _ => (finishBegin job (.error error), registry)
      | .ok (), .error error => (finishBegin job (.error error), registry)
      | .ok (), .ok () => (startBeginHttp job owners, registry)
  | .http =>
    match owners.http with
    | .pending => ((.pending, job, []), registry)
    | .cleanupUnproven error => ((.hostFault (.httpCleanupUnproven error), job, []), registry)
    | .complete result =>
      if job.logicalDone then ((.drained, job, []), registry)
      else
        let reply := beginReply registry job result owners
        (finishBegin job reply.1, reply.2)

/-! ## Token jobs -/

/-- `emit_token` over the table: the first job of the flight answers, if it has not yet. -/
def emitSlots (completion : Completion) : List Slot → List Slot × List ResponseEvent
  | [] => ([], [])
  | (serial, some (.token job)) :: rest =>
    if job.flight = completion.flight then
      if job.logicalDone then ((serial, some (.token job)) :: rest, [])
      else
        ((serial, some (.token { job with logicalDone := true })) :: rest,
          [(serial, .token completion.result)])
    else
      let emitted := emitSlots completion rest
      ((serial, some (.token job)) :: emitted.1, emitted.2)
  | slot :: rest =>
    let emitted := emitSlots completion rest
    (slot :: emitted.1, emitted.2)

/-- What a poll of a token job works on, and what it has emitted. -/
structure TokenPoll where
  registry : SessionRegistry
  jobs : List Slot
  job : TokenJob
  events : List ResponseEvent := []

namespace TokenPoll

/-- `emit_token`, with the job that is polled. -/
def emit (p : TokenPoll) (serial : ℕ) (completion : Completion) : TokenPoll :=
  if p.job.flight = completion.flight then
    if p.job.logicalDone then p
    else
      { p with
        job := { p.job with logicalDone := true }
        events := p.events ++ [(serial, .token completion.result)] }
  else
    let emitted := emitSlots completion p.jobs
    { p with
      jobs := emitted.1
      events := p.events ++ emitted.2 }

def emitAll (p : TokenPoll) (serial : ℕ) (completions : List Completion) : TokenPoll :=
  completions.foldl (fun p completion => p.emit serial completion) p

/-- The flight is given up, if it is still there. -/
def abandon (p : TokenPoll) (serial : ℕ) (error : CallError) : Progress × TokenPoll :=
  match p.registry.abandon p.job.flight error with
  | (completion, registry) => (.drained, { p with registry := registry }.emitAll serial completion.toList)

def startToken (p : TokenPoll) (serial : ℕ) (owners : Owners) : Progress × TokenPoll :=
  match p.job.forced with
  | some error => p.abandon serial error
  | none =>
    if p.job.deadline ≤ owners.now then p.abandon serial deadlineError
    else
      match p.registry.tryStart p.job.flight with
      | (.waitingForRefresh, registry) => (.pending, { p with registry := registry })
      | (.retired, registry) => (.drained, { p with registry := registry })
      | (.completed completion, registry) =>
        (.drained, { p with registry := registry }.emit serial completion)
      | (.alreadyStarted, registry) =>
        (.hostFault .missingTokenOwner, { p with registry := registry })
      | (.started _, registry) =>
        let p := { p with registry := registry }
        match owners.refreshForm, owners.deadlines, owners.httpStart with
        | .error error, _, _ => p.abandon serial error
        | .ok (), false, _ => (.hostFault .clockOverflow, p)
        | .ok (), true, .ok () => (.pending, { p with job := { p.job with http := true } })
        | .ok (), true, .error error => p.abandon serial error

/-- The exchange failed. -/
def fail (p : TokenPoll) (serial : ℕ) (failure : ExchangeFailure) : TokenPoll :=
  match p.registry.finishFailure p.job.flight failure with
  | (_, completions, registry) => { p with registry := registry }.emitAll serial completions

def finishTokenHttp (p : TokenPoll) (serial : ℕ)
    (result : Except CallError (Except TokenReplyError ParsedToken)) (owners : Owners) :
    Progress × TokenPoll :=
  if p.job.logicalDone then (.drained, p)
  else
    match p.job.forced with
    | some error => p.abandon serial error
    | none =>
      let p :=
        match result with
        | .error error => p.fail serial (.failed error)
        | .ok (.error error) =>
          p.fail serial
            (if error.terminalInvalidGrant then .invalidGrant error.wire
              else .failed error.wire)
        | .ok (.ok token) =>
          match p.registry.finishSuccess p.job.flight token.access token.refresh owners.now with
          | (completion, registry) =>
            { p with registry := registry }.emitAll serial completion.toList
      (.drained, { p with job := { p.job with logicalDone := true } })

/-- `poll_token`. -/
def poll (p : TokenPoll) (serial : ℕ) (owners : Owners) : Progress × TokenPoll :=
  if ¬ p.job.http then p.startToken serial owners
  else
    match owners.http with
    | .pending => (.pending, p)
    | .cleanupUnproven error => (.hostFault (.httpCleanupUnproven error), p)
    | .complete result => p.finishTokenHttp serial result owners

end TokenPoll

/-! ## Requests -/

structure BeginChecks where
  /-- Whether the snapshot is the prepared one. -/
  verified : Bool
  /-- The profile of the provider, or the error of an unknown one. -/
  profile : Except CallError ProviderProfile
  guard : Except CallError Unit
  clientId : Except CallError Unit
  loginHint : Except CallError Unit
  /-- Whether a presentation redirect is configured. -/
  asRedirect : Except CallError Bool
  redirectPlan : Except CallError Unit
  /-- The absolute bound, where the clock can represent it. -/
  deadline : Option ℕ
  admits : Bool
  generate : Except CallError Unit
  asPort : Bool
  authorizationUri : Except CallError Unit
  cleanup : Bool
  makePrompt : Except PromptFailure Unit

inductive TokenGuard where
  | allowed
  | denied (error : CallError)
  /-- A denial of neither of the two kinds. -/
  | unexpected

structure TokenChecks where
  verified : Bool
  guard : TokenGuard
  admits : Bool
  now : ℕ
  deadline : Option ℕ
  clientId : Except CallError Unit
  /-- The denial that an unresolved account is given. -/
  outOfScope : CallError

def readyError (error : CallError) : HandleState := .ready (.error error)

/-- The checks that a begin request passes before a lease is asked for. -/
def BeginChecks.prelude (c : BeginChecks) (registry : SessionRegistry) :
    Except HandleState (ProviderProfile × Bool × ℕ) := do
  require c.verified (.hostFault .snapshotMismatch)
  let profile ← c.profile.mapError readyError
  c.guard.mapError readyError
  require registry.admissionOpen (readyError stoppingError)
  c.clientId.mapError readyError
  c.loginHint.mapError readyError
  let presents ← c.asRedirect.mapError readyError
  if ¬ presents then c.redirectPlan.mapError readyError
  let deadline ← orElseError c.deadline (.hostFault .clockOverflow)
  return (profile, presents, deadline)

/-- `make_begin_phase`. -/
def BeginChecks.makePhase (c : BeginChecks) (presents : Bool) : Except HandleState BeginPhase :=
  if presents then do
    require c.asPort (.hostFault (.asPresentation .stopping))
    c.authorizationUri.mapError readyError
    require c.cleanup (.hostFault .clockOverflow)
    return .presentation {}
  else
    match c.makePrompt with
    | .ok () => .ok (.prompt {})
    | .error (.auth error) => .error (readyError error)
    | .error .clockOverflow => .error (.hostFault .clockOverflow)

namespace AuthBroker

def nextId (b : AuthBroker) : Option (OperationId × AuthBroker) :=
  (checkedSucc b.nextOperation).map fun serial => (⟨b.owner, serial⟩, { b with nextOperation := serial })

def push (b : AuthBroker) (serial : ℕ) (job : Job) : AuthBroker :=
  { b with jobs := b.jobs ++ [(serial, some job)] }

/-- `begin_allowed`, behind its checks. -/
def begin (b : AuthBroker) (scopes : Option (List Text)) (c : BeginChecks) :
    HandleState × AuthBroker :=
  match c.prelude b.registry with
  | .error state => (state, b)
  | .ok (profile, presents, deadline) =>
    if ¬ c.admits then (.atCapacity, b)
    else
      match b.nextId with
      | none => (readyError counterExhausted.wireError, b)
      | some (id, b) =>
        match c.generate, c.makePhase presents with
        | .error error, _ => (readyError error, b)
        | .ok (), .error state => (state, b)
        | .ok (), .ok phase =>
          (.pending id true,
            b.push id.serial (.begin
              { profile := profile
                scopes := scopes
                deadline := deadline
                phase := phase }))

/-- The job of a flight. -/
def tokenSlot (b : AuthBroker) (flight : FlightId) : Option ℕ :=
  b.jobs.findSome? fun slot =>
    match slot.2 with
    | some (.token job) => if job.flight = flight then some slot.1 else none
    | _ => none

/-- A leader that gets no job. -/
def withdraw (b : AuthBroker) (flight : FlightId) (error : CallError) : AuthBroker :=
  { b with registry := (b.registry.abandon flight error).2 }

def tokenAllowed (b : AuthBroker) (accountId : Text) (scopes : Option (List Text))
    (c : TokenChecks) : HandleState × AuthBroker :=
  match b.registry.tokenRequest accountId scopes (if c.admits then some () else none) c.now with
  | (.error fault, registry) => (readyError fault.wireError, { b with registry := registry })
  | (.ok .unresolved, registry) =>
    (.deniedInvariant (.error c.outOfScope) .unresolvedAfterAllow, { b with registry := registry })
  | (.ok .atCapacity, registry) => (.atCapacity, { b with registry := registry })
  | (.ok (.ready outcome), registry) => (.ready (.token outcome), { b with registry := registry })
  | (.ok (.inFlight flight), registry) =>
    match b.tokenSlot flight with
    | some serial => (.pending ⟨b.owner, serial⟩ false, { b with registry := registry })
    | none => (.hostFault .missingTokenOwner, { b with registry := registry })
  | (.ok (.leader flight _), registry) =>
    let b := { b with registry := registry }
    match b.nextId with
    | none =>
      (readyError counterExhausted.wireError,
        b.withdraw flight counterExhausted.wireError)
    | some (id, b) =>
      match c.deadline, b.registry.profileFor accountId, c.clientId with
      | none, _, _ => (.hostFault .clockOverflow, b.withdraw flight expiryOverflow.wireError)
      | some _, none, _ =>
        (.hostFault .missingTokenOwner, b.withdraw flight unknownProfile.wireError)
      | some _, some _, .error error => (readyError error, b.withdraw flight error)
      | some deadline, some _, .ok () =>
        (.pending id true,
          b.push id.serial (.token
            { flight := flight
              deadline := deadline }))

/-- `handle_request`, for a token. -/
def token (b : AuthBroker) (accountId : Text) (scopes : Option (List Text)) (c : TokenChecks) :
    HandleState × AuthBroker :=
  if ¬ c.verified then (.hostFault .snapshotMismatch, b)
  else
    match c.guard, b.registry.issuerFor accountId with
    | .denied error, _ => (readyError error, b)
    | .unexpected, _ => (.hostFault .unexpectedTokenDenial, b)
    | .allowed, none => (.deniedInvariant (.error c.outOfScope) .unresolvedAfterAllow, b)
    | .allowed, some _ => b.tokenAllowed accountId scopes c

/-! ## Progress -/

def position (b : AuthBroker) (serial : ℕ) : Option ℕ :=
  b.jobs.findIdx? fun slot => slot.1 = serial

/-- What a cancellation leaves of a job. -/
def cancelJob (error : CallError) : Job → Job
  | .begin job => .begin { job with
      forced := job.forced.or (some error)
      cancelled := true }
  | .token job => .token { job with
      forced := job.forced.or (some error)
      cancelled := true }

def cancel (b : AuthBroker) (id : OperationId) (terminal : CallError) : Bool × AuthBroker :=
  if id.owner ≠ b.owner then (false, b)
  else
    match b.position id.serial with
    | none => (false, b)
    | some index =>
      match b.jobs[index]? with
      | some (serial, some job) =>
        (true, { b with jobs := b.jobs.set index (serial, some (cancelJob terminal job)) })
      | _ => (false, b)

def swapRemove {α : Type} (l : List α) (index : ℕ) : List α :=
  match l.getLast? with
  | none => l
  | some last => (l.set index last).dropLast

/-- A job that was polled goes back, unless it has drained. -/
def settle (b : AuthBroker) (index serial : ℕ) (job : Job) (progress : Progress) : AuthBroker :=
  match progress with
  | .drained => { b with jobs := swapRemove b.jobs index }
  | .pending => { b with jobs := b.jobs.set index (serial, some job) }
  | .hostFault _ =>
    { b with
      jobs := b.jobs.set index (serial, some job)
      registry := b.registry.closeAdmission }

def poll (b : AuthBroker) (id : OperationId) (owners : Owners) :
    Progress × List ResponseEvent × AuthBroker :=
  if id.owner ≠ b.owner then (.hostFault .ownerMismatch, [], b)
  else
    match b.position id.serial with
    | none => (.drained, [], b)
    | some index =>
      match b.jobs[index]? with
      | some (serial, some (.begin job)) =>
        let b := { b with jobs := b.jobs.set index (serial, none) }
        match pollBegin b.registry id job owners with
        | ((progress, job, responses), registry) =>
          (progress, responses.map fun response => (id.serial, response),
            { b with registry := registry }.settle index serial (.begin job) progress)
      | some (serial, some (.token job)) =>
        let b := { b with jobs := b.jobs.set index (serial, none) }
        match ({ registry := b.registry, jobs := b.jobs, job := job } : TokenPoll).poll
          id.serial owners with
        | (progress, p) =>
          (progress, p.events,
            { b with
              registry := p.registry
              jobs := p.jobs }.settle index serial (.token p.job) progress)
      | _ => (.hostFault .missingTokenOwner, [], b)

/-- What the host tail leaves of a job, and what it answers. -/
def stopJob : Slot → Slot × List ResponseEvent
  | (serial, some (.begin job)) =>
    ((serial, some (cancelJob stoppingError (.begin { job with logicalDone := true }))),
      if job.logicalDone then [] else [(serial, .error stoppingError)])
  | (serial, some (.token job)) =>
    ((serial, some (cancelJob stoppingError (.token job))), [])
  | slot => (slot, [])

/-- `emit_token` for each completion, with no job in hand. -/
def emitEach (jobs : List Slot) : List Completion → List Slot × List ResponseEvent
  | [] => (jobs, [])
  | completion :: rest =>
    let emitted := emitSlots completion jobs
    let others := emitEach emitted.1 rest
    (others.1, emitted.2 ++ others.2)

def stopForHostTail (b : AuthBroker) : List ResponseEvent × AuthBroker :=
  let stopped := b.registry.stopForHostTail
  let emitted := emitEach b.jobs stopped.1
  let slots := emitted.1.map stopJob
  (emitted.2 ++ slots.flatMap Prod.snd,
    { b with
      registry := stopped.2
      jobs := slots.map Prod.fst })

end AuthBroker

end Keld.Auth
