/-
# `Keld.Auth.BrokerRuns` — the calls on a broker one after another

A run notes which operations were handed out, which were answered, and what a
poll reported of them.  `Strands` is the poll that drains a token job without an
answer: admission is closed, so the registry no longer completes a flight for a
callback, and the host tail has not yet completed them all.
-/
import Keld.Auth.Broker
import Keld.Auth.RegistrySafety

namespace Keld.Auth

inductive BrokerEvent where
  | begin (scopes : Option (List Text)) (checks : BeginChecks)
  | token (accountId : Text) (scopes : Option (List Text)) (checks : TokenChecks)
  | cancel (id : OperationId) (terminal : CallError)
  | poll (id : OperationId) (owners : Owners)
  | stopForHostTail

inductive BrokerFact where
  /-- An operation was handed out with a lease, or to a follower. -/
  | pending (serial : ℕ)
  | followed (serial : ℕ)
  /-- A flight had no job. -/
  | missing
  | response (serial : ℕ) (response : ReadyResponse)
  | drained (serial : ℕ)
  | faulted (serial : ℕ) (fault : HostFault)

def BrokerFact.handed : BrokerFact → Option ℕ
  | .pending serial => some serial
  | _ => none

def BrokerFact.answered : BrokerFact → Option ℕ
  | .response serial _ => some serial
  | _ => none

def handed (log : List BrokerFact) : List ℕ := log.filterMap BrokerFact.handed

def answered (log : List BrokerFact) : List ℕ := log.filterMap BrokerFact.answered

structure BrokerSession where
  broker : AuthBroker := {}
  log : List BrokerFact := []

def HandleState.facts : HandleState → List BrokerFact
  | .pending id true => [.pending id.serial]
  | .pending id false => [.followed id.serial]
  | .hostFault .missingTokenOwner => [.missing]
  | _ => []

def Progress.facts (serial : ℕ) : Progress → List BrokerFact
  | .pending => []
  | .drained => [.drained serial]
  | .hostFault fault => [.faulted serial fault]

namespace BrokerSession

def note (s : BrokerSession) (broker : AuthBroker) (facts : List BrokerFact) : BrokerSession where
  broker := broker
  log := s.log ++ facts

def eventFacts (events : List ResponseEvent) : List BrokerFact :=
  events.map fun event => .response event.1 event.2

def step (s : BrokerSession) : BrokerEvent → BrokerSession
  | .begin scopes checks =>
    match s.broker.begin scopes checks with
    | (state, broker) => s.note broker state.facts
  | .token accountId scopes checks =>
    match s.broker.token accountId scopes checks with
    | (state, broker) => s.note broker state.facts
  | .cancel id terminal => s.note (s.broker.cancel id terminal).2 []
  | .poll id owners =>
    -- The broker's own identities are opaque, so one that was not handed out is nowhere.
    if id.owner = s.broker.owner ∧ id.serial ∉ handed s.log then s
    else
      match s.broker.poll id owners with
      | (progress, events, broker) => s.note broker (eventFacts events ++ progress.facts id.serial)
  | .stopForHostTail =>
    match s.broker.stopForHostTail with
    | (events, broker) => s.note broker (eventFacts events)

def run (owner : ℕ) (events : List BrokerEvent) : BrokerSession :=
  events.foldl step { broker := { owner := owner } }

theorem run_snoc (owner : ℕ) (events : List BrokerEvent) (event : BrokerEvent) :
    run owner (events ++ [event]) = (run owner events).step event := List.foldl_concat ..

end BrokerSession

/-! ## What goes wrong -/

/-- An unanswered token job that has not begun its exchange, or has the end of it in hand. -/
def TokenJob.Ends (job : TokenJob) (owners : Owners) : Prop :=
  job.logicalDone = false ∧ job.forced = none ∧
    if job.http then ∃ result, owners.http = .complete result
    else owners.now < job.deadline

/-- Admission is closed and the job of the operation is at its end. -/
def AuthBroker.Strands (b : AuthBroker) (id : OperationId) (owners : Owners) : Prop :=
  id.owner = b.owner ∧ b.registry.stopping = true ∧
    ∃ index job, b.position id.serial = some index ∧
      b.jobs[index]? = some (id.serial, some (.token job)) ∧ job.Ends owners

def BrokerSession.StepOk (s : BrokerSession) : BrokerEvent → Prop
  | .poll id owners => id.serial ∈ handed s.log → ¬ s.broker.Strands id owners
  | _ => True

/-- Every step of the run is taken where it strands nothing. -/
def Unstranded (owner : ℕ) (events : List BrokerEvent) : Prop :=
  ∀ before event after, events = before ++ event :: after →
    (BrokerSession.run owner before).StepOk event

/-! ## Views of the table -/

def Job.isDone : Job → Bool
  | .begin job => job.logicalDone
  | .token job => job.logicalDone

/-- The operation of a slot, unless it is answered. -/
def slotOpen : Slot → Option ℕ
  | (serial, some job) => if job.isDone then none else some serial
  | (_, none) => none

/-- The flight that an unanswered token job leads. -/
def slotFlight : Slot → Option FlightId
  | (_, some (.token job)) => if job.logicalDone then none else some job.flight
  | _ => none

/-- The flight that a token job leads or led. -/
def slotLeads : Slot → Option FlightId
  | (_, some (.token job)) => some job.flight
  | _ => none

def openOperations (jobs : List Slot) : List ℕ := jobs.filterMap slotOpen

def openFlights (jobs : List Slot) : List FlightId := jobs.filterMap slotFlight

def jobFlights (jobs : List Slot) : List FlightId := jobs.filterMap slotLeads

/-- A drained operation was answered, and a follower joins one that is yet to be. -/
def BrokerPermitted (before : List BrokerFact) : BrokerFact → Prop
  | .pending serial => serial ∉ handed before
  | .followed serial => serial ∈ handed before ∧ serial ∉ answered before
  | .missing => False
  | .response serial _ =>
    serial ∈ handed before ∧ serial ∉ answered before ∧ .drained serial ∉ before
  | .drained serial => serial ∈ handed before ∧ serial ∈ answered before
  | .faulted .. => True

end Keld.Auth
