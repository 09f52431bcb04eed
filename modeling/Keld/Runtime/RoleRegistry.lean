/-
# `Keld.Runtime.RoleRegistry` — two supervised roles and their ports

The registry owns a primary and an app-bound role.  Each supervisor runs on a thread of
its own and sends lifecycle events down a channel.  Every port operation first drains
both channels (`syncRoleEvents`): a `Revoked` event takes the principal's routes away,
and every event drained is buffered for the caller that reads the role's feed.

A call is given the events that arrive while it runs, batch by batch: one before each
receive of its drain loops, and what is left over after it.  Between calls an event
arrives by `emit`.

`primary()` and `app_bound()` lend the supervisors out: `read` takes an event from the
channel without the registry seeing it.
-/
import Keld.Runtime.PortSteps

namespace Keld.Runtime

inductive RoleRevocationCause where
  | childExited
  | shutdown
  | linkFailed
  | captureFailed
  | admissionFailed
  | spawnFailed
  | waitFailed
deriving DecidableEq, Repr

inductive RoleEvent where
  | provisioned (generation attempt : ℕ)
  | spawned (generation pid attempt : ℕ)
  | linkBound (generation attempt : ℕ)
  | bootstrapRejected (generation attempt : ℕ) (code : String)
  | revoked (generation attempt : ℕ) (cause : RoleRevocationCause)
deriving DecidableEq, Repr

/-- The principal that an event of a role revokes. -/
def RoleEvent.revokes (owner : RoleOwner) : RoleEvent → Option RolePrincipal
  | .revoked generation _ _ => some ⟨owner, generation⟩
  | _ => none

/-- One role: the events its supervisor has sent and nobody has received, and the events that the
registry has received and no caller has read. -/
structure RoleSlot where
  events : List RoleEvent
  bufferedEvents : List RoleEvent
deriving DecidableEq, Repr

structure RoleRegistry where
  primary : RoleSlot
  appBound : RoleSlot
  virtualPorts : VirtualPortRegistry

/-- Events on their way while a call runs, in batches. -/
abbrev Arrivals := List (List (RoleOwner × RoleEvent))

namespace RoleRegistry

/-- The registry that `start` returns, before its supervisors have sent anything. -/
def start : RoleRegistry :=
  { primary := ⟨[], []⟩, appBound := ⟨[], []⟩, virtualPorts := VirtualPortRegistry.new }

def slot (reg : RoleRegistry) : RoleOwner → RoleSlot
  | .primary => reg.primary
  | .appBound => reg.appBound

def setSlot (reg : RoleRegistry) (owner : RoleOwner) (slot : RoleSlot) : RoleRegistry :=
  match owner with
  | .primary => { reg with primary := slot }
  | .appBound => { reg with appBound := slot }

/-- A supervisor sends one event. -/
def enqueue (reg : RoleRegistry) (arrival : RoleOwner × RoleEvent) : RoleRegistry :=
  reg.setSlot arrival.1
    { reg.slot arrival.1 with events := (reg.slot arrival.1).events ++ [arrival.2] }

def enqueueAll (reg : RoleRegistry) (batch : List (RoleOwner × RoleEvent)) : RoleRegistry :=
  batch.foldl enqueue reg

/-- `try_recv_event` of a lent supervisor: the head of the channel, past the registry. -/
def tryRecvEvent (reg : RoleRegistry) (owner : RoleOwner) : RoleRegistry × Option RoleEvent :=
  match (reg.slot owner).events with
  | [] => (reg, none)
  | event :: rest => (reg.setSlot owner { reg.slot owner with events := rest }, some event)

/-- The body of the drain loop, for an event it received. -/
def noteRoleEvent (owner : RoleOwner) (reg : RoleRegistry) (event : RoleEvent) : RoleRegistry :=
  let virtualPorts :=
    match event.revokes owner with
    | some principal => reg.virtualPorts.revokeGeneration principal
    | none => reg.virtualPorts
  { reg with virtualPorts := virtualPorts }.setSlot owner
    { reg.slot owner with bufferedEvents := (reg.slot owner).bufferedEvents ++ [event] }

/-- The drain loop over the events that are in the channel, once nothing arrives any more. -/
def drainRest (owner : RoleOwner) : List RoleEvent → RoleRegistry → RoleRegistry
  | [], reg => reg
  | event :: rest, reg =>
    drainRest owner rest
      (noteRoleEvent owner (reg.setSlot owner { reg.slot owner with events := rest }) event)

/-- The drain loop of one supervisor's channel; also what is still to arrive after it. -/
def drainSupervisorRoleEvents (owner : RoleOwner) :
    Arrivals → RoleRegistry → RoleRegistry × Arrivals
  | [], reg => (drainRest owner (reg.slot owner).events reg, [])
  | batch :: arrivals, reg =>
    match (reg.enqueueAll batch).tryRecvEvent owner with
    | (reg, none) => (reg, arrivals)
    | (reg, some event) =>
      drainSupervisorRoleEvents owner arrivals (noteRoleEvent owner reg event)

def syncRoleEvents (reg : RoleRegistry) (arrivals : Arrivals) : RoleRegistry × Arrivals :=
  let (reg, arrivals) := drainSupervisorRoleEvents .primary arrivals reg
  drainSupervisorRoleEvents .appBound arrivals reg

def withSynchronizedVirtualPorts {α : Type} (reg : RoleRegistry) (arrivals : Arrivals)
    (operation : VirtualPortRegistry → VirtualPortRegistry × α) :
    (RoleRegistry × α) × Arrivals :=
  let (reg, arrivals) := reg.syncRoleEvents arrivals
  let (virtualPorts, result) := operation reg.virtualPorts
  (({ reg with virtualPorts := virtualPorts }, result), arrivals)

def registerBoundPrincipal (reg : RoleRegistry) (principal : RolePrincipal) : RoleRegistry :=
  { reg with virtualPorts := reg.virtualPorts.registerGeneration principal }

/-- Revokes every principal of a list in turn. -/
def revokeAll (ports : VirtualPortRegistry) (principals : List RolePrincipal) :
    VirtualPortRegistry :=
  principals.foldl VirtualPortRegistry.revokeGeneration ports

/-- The stop requests to the supervisors in between only make them send more events. -/
def shutdown (reg : RoleRegistry) (arrivals : Arrivals) : RoleRegistry × Arrivals :=
  let (reg, arrivals) := reg.syncRoleEvents arrivals
  let virtualPorts := revokeAll reg.virtualPorts reg.virtualPorts.livePrincipals
  { reg with virtualPorts := virtualPorts }.syncRoleEvents arrivals

/-- `try_recv_primary_event` and `try_recv_app_bound_event`. -/
def tryRecvRoleEvent (reg : RoleRegistry) (owner : RoleOwner) (arrivals : Arrivals) :
    (RoleRegistry × Option RoleEvent) × Arrivals :=
  let (reg, arrivals) := reg.syncRoleEvents arrivals
  let slot := reg.slot owner
  ((reg.setSlot owner { slot with bufferedEvents := slot.bufferedEvents.tail },
    slot.bufferedEvents.head?), arrivals)

end RoleRegistry

/-! ## The registry and its two supervisors as a machine -/

/-- A call of the registry.  `port` is `register_bound_principal`, `revoke_role_ports` or the role
port call that carries the named port operation. -/
inductive RoleOp where
  | port (op : PortOp)
  | shutdown
  | pollRoleEvents
  | tryRecvRoleEvent (owner : RoleOwner)
deriving DecidableEq, Repr

/-- One step of the system: a supervisor sends, a caller calls, or a caller reads a supervisor's
events through an accessor. -/
inductive RoleInput where
  | emit (owner : RoleOwner) (event : RoleEvent)
  | call (op : RoleOp) (arrivals : Arrivals)
  | read (owner : RoleOwner)
deriving DecidableEq, Repr

inductive RoleOutcome where
  | done
  | port (result : PortOutcome)
  | event (event : Option RoleEvent)
deriving Repr

namespace RoleRegistry

def portCall (reg : RoleRegistry) (arrivals : Arrivals) :
    PortOp → (RoleRegistry × PortOutcome) × Arrivals
  | .registerGeneration principal => ((reg.registerBoundPrincipal principal, .ok .unit), arrivals)
  | op => reg.withSynchronizedVirtualPorts arrivals (fun ports => ports.step op)

def call (reg : RoleRegistry) (arrivals : Arrivals) :
    RoleOp → (RoleRegistry × RoleOutcome) × Arrivals
  | .port op =>
    let ((reg, result), arrivals) := reg.portCall arrivals op
    ((reg, .port result), arrivals)
  | .shutdown =>
    let (reg, arrivals) := reg.shutdown arrivals
    ((reg, .done), arrivals)
  | .pollRoleEvents =>
    let (reg, arrivals) := reg.syncRoleEvents arrivals
    ((reg, .done), arrivals)
  | .tryRecvRoleEvent owner =>
    let ((reg, event), arrivals) := reg.tryRecvRoleEvent owner arrivals
    ((reg, .event event), arrivals)

def step (reg : RoleRegistry) : RoleInput → RoleRegistry × RoleOutcome
  | .emit owner event => (reg.enqueue (owner, event), .done)
  | .call op arrivals =>
    let ((reg, outcome), rest) := reg.call arrivals op
    (reg.enqueueAll rest.flatten, outcome)
  | .read owner =>
    let (reg, event) := reg.tryRecvEvent owner
    (reg, .event event)

end RoleRegistry

/-- The registry between its callers and its supervisors. -/
def roles : Machine RoleRegistry RoleInput RoleOutcome where
  init := RoleRegistry.start
  step := RoleRegistry.step

end Keld.Runtime
