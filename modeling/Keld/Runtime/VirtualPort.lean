/-
# `Keld.Runtime.VirtualPort` — host-owned bounded port pairs

The host mints a pair of ports between two authenticated role principals, carries every
message itself and gives up the routes of a principal whose generation is revoked.

Every operation takes the registry and returns it together with its result, so that a
branch that reports an error also says which registry it leaves.  The checks stand in
the order of the source, which decides the error a caller sees.

A `HashMap` of pairs is an ordered map here (no operation depends on the order of its
entries), and the two `HashSet`s of principals are lists without repetition.
-/
import Keld.Lib.Bytes
import Keld.Lib.OrdMap
import Keld.Lib.Machine

namespace Keld.Runtime

/-- Maximum queued messages per port end unless the registry is given another bound. -/
def defaultPortQueueCapacity : ℕ := 64

/-- Maximum inline payload bytes of one message. -/
def maxPortMessageLen : ℕ := 4096

def u64Max : ℕ := 2 ^ 64 - 1

/-- Host-owned lifecycle category of one authenticated role. -/
inductive RoleOwner where
  | primary
  | appBound
deriving DecidableEq, Repr

/-- A role and one host-minted generation of it. -/
structure RolePrincipal where
  owner : RoleOwner
  generation : ℕ
deriving DecidableEq, Repr

inductive PortEnd where
  | a
  | b
deriving DecidableEq, Repr

/-- The paired end. -/
def PortEnd.peer : PortEnd → PortEnd
  | .a => .b
  | .b => .a

/-- A reference to one end of a pair. -/
structure PortCapability where
  generation : ℕ
  side : PortEnd
deriving DecidableEq, Repr

abbrev PortMessage := List Byte

inductive PortDisconnectReason where
  | localClose
  | peerClose
  | generationRevoked
deriving DecidableEq, Repr

inductive VirtualPortError where
  | notOwner (capability : PortCapability) (presented : RolePrincipal)
  | staleGeneration (capability : PortCapability) (presented : RolePrincipal)
  | closed (capability : PortCapability)
  | selfTransfer (capability : PortCapability) (target : RolePrincipal)
  | duplicateTransfer (capability : PortCapability)
  | sourceTransfer (capability : PortCapability) (source : RolePrincipal)
  | queueFull (capability : PortCapability) (capacity : ℕ)
  | invalidMessageLen (len max : ℕ)
  | foreignDelivery (capability : PortCapability) (presented : RolePrincipal)
deriving DecidableEq, Repr

structure EndState where
  initialOwner : RolePrincipal
  owner : RolePrincipal
  transferred : Bool
  closed : Bool
  disconnectPending : Bool
  disconnectObserved : Bool
  queue : List PortMessage
deriving DecidableEq, Repr

def EndState.new (owner : RolePrincipal) : EndState :=
  { initialOwner := owner, owner := owner, transferred := false, closed := false,
    disconnectPending := false, disconnectObserved := false, queue := [] }

/-- What a poll finds on an end: the reason it reports, and the end it leaves. -/
def EndState.observe (e : EndState) (revoked : Bool) : EndState × Option PortDisconnectReason :=
  if e.disconnectObserved then (e, none)
  else if revoked then ({ e with disconnectObserved := true }, some .generationRevoked)
  else if e.disconnectPending then
    ({ e with disconnectObserved := true, disconnectPending := false }, some .peerClose)
  else if e.closed then ({ e with disconnectObserved := true }, some .localClose)
  else (e, none)

structure PairState where
  endA : EndState
  endB : EndState
  revoked : Bool
deriving DecidableEq, Repr

def PairState.new (ownerA ownerB : RolePrincipal) : PairState :=
  { endA := EndState.new ownerA, endB := EndState.new ownerB, revoked := false }

/-- The end a capability names. -/
def PairState.endRef (pair : PairState) : PortEnd → EndState
  | .a => pair.endA
  | .b => pair.endB

/-- The pair after a write through a reference to one end. -/
def PairState.setEnd (pair : PairState) (side : PortEnd) (e : EndState) : PairState :=
  match side with
  | .a => { pair with endA := e }
  | .b => { pair with endB := e }

structure VirtualPortRegistry where
  nextGeneration : ℕ
  queueCapacity : ℕ
  pairs : OrdMap ℕ PairState
  liveGenerations : List RolePrincipal
  revokedGenerations : List RolePrincipal

def checkEndOwner (capability : PortCapability) (presented : RolePrincipal) (e : EndState) :
    Except VirtualPortError Unit :=
  if e.owner ≠ presented then .error (.foreignDelivery capability presented) else .ok ()

/-- The error of a mint names no pair: the generation is zero, the side is the role's. -/
def staleGenerationAtCreate (presented : RolePrincipal) : VirtualPortError :=
  .staleGeneration ⟨0, if presented.owner = .appBound then .b else .a⟩ presented

namespace VirtualPortRegistry

def withQueueCapacity (queueCapacity : ℕ) : VirtualPortRegistry :=
  { nextGeneration := 1, queueCapacity := queueCapacity, pairs := OrdMap.empty,
    liveGenerations := [], revokedGenerations := [] }

def new : VirtualPortRegistry := withQueueCapacity defaultPortQueueCapacity

def isGenerationLive (r : VirtualPortRegistry) (principal : RolePrincipal) : Bool :=
  decide (principal ∈ r.liveGenerations)

def isGenerationRevoked (r : VirtualPortRegistry) (principal : RolePrincipal) : Bool :=
  decide (principal ∈ r.revokedGenerations)

def registerGeneration (r : VirtualPortRegistry) (principal : RolePrincipal) :
    VirtualPortRegistry :=
  if r.isGenerationRevoked principal then r
  else { r with liveGenerations := r.liveGenerations.insert principal }

def livePrincipals (r : VirtualPortRegistry) : List RolePrincipal := r.liveGenerations

/-- A write through a reference to a pair. -/
def setPair (r : VirtualPortRegistry) (generation : ℕ) (pair : PairState) :
    VirtualPortRegistry :=
  { r with pairs := r.pairs.set generation pair }

def stalePrincipal (ownerA ownerB : RolePrincipal) (r : VirtualPortRegistry) :
    Option RolePrincipal :=
  if r.isGenerationRevoked ownerA then some ownerA
  else if r.isGenerationRevoked ownerB then some ownerB
  else none

/-- The next pair generation; the counter stops before it would wrap. -/
def mintGeneration (r : VirtualPortRegistry) :
    VirtualPortRegistry × Except VirtualPortError ℕ :=
  if r.nextGeneration + 1 ≤ u64Max then
    ({ r with nextGeneration := r.nextGeneration + 1 }, .ok r.nextGeneration)
  else (r, .error (.closed ⟨0, .a⟩))

def createPair (r : VirtualPortRegistry) (ownerA ownerB : RolePrincipal) :
    VirtualPortRegistry × Except VirtualPortError (PortCapability × PortCapability) :=
  match stalePrincipal ownerA ownerB r with
  | some presented => (r, .error (staleGenerationAtCreate presented))
  | none =>
    if !r.isGenerationLive ownerA then (r, .error (staleGenerationAtCreate ownerA))
    else if !r.isGenerationLive ownerB then (r, .error (staleGenerationAtCreate ownerB))
    else
      match r.mintGeneration with
      | (r, .error e) => (r, .error e)
      | (r, .ok generation) =>
        ({ r with pairs := r.pairs.insert generation (PairState.new ownerA ownerB) },
          .ok (⟨generation, .a⟩, ⟨generation, .b⟩))

def send (r : VirtualPortRegistry) (origin : PortCapability) (sender : RolePrincipal)
    (payload : PortMessage) : VirtualPortRegistry × Except VirtualPortError Unit :=
  if r.isGenerationRevoked sender then (r, .error (.staleGeneration origin sender))
  else if maxPortMessageLen < payload.length then
    (r, .error (.invalidMessageLen payload.length maxPortMessageLen))
  else
    match r.pairs.get? origin.generation with
    | none => (r, .error (.closed origin))
    | some pair =>
      if pair.revoked then (r, .error (.closed origin))
      else
        let fromEnd := pair.endRef origin.side
        let peerEnd := pair.endRef origin.side.peer
        match checkEndOwner origin sender fromEnd with
        | .error e => (r, .error e)
        | .ok () =>
          if fromEnd.closed || peerEnd.closed then (r, .error (.closed origin))
          else if r.queueCapacity ≤ peerEnd.queue.length then
            (r, .error (.queueFull origin r.queueCapacity))
          else
            (r.setPair origin.generation
              (pair.setEnd origin.side.peer
                { peerEnd with queue := peerEnd.queue ++ [payload] }), .ok ())

def transfer (r : VirtualPortRegistry) (capability : PortCapability)
    (source target : RolePrincipal) :
    VirtualPortRegistry × Except VirtualPortError PortCapability :=
  if r.isGenerationRevoked source then (r, .error (.staleGeneration capability source))
  else if r.isGenerationRevoked target then (r, .error (.staleGeneration capability target))
  else if !r.isGenerationLive target then (r, .error (.staleGeneration capability target))
  else
    match r.pairs.get? capability.generation with
    | none => (r, .error (.closed ⟨capability.generation, .a⟩))
    | some pair =>
      if pair.revoked then (r, .error (.closed capability))
      else
        let e := pair.endRef capability.side
        let peer := pair.endRef capability.side.peer
        if e.closed || peer.closed then (r, .error (.closed capability))
        else if e.owner ≠ source then
          if e.initialOwner = source then (r, .error (.sourceTransfer capability source))
          else (r, .error (.notOwner capability source))
        else if target = e.owner then (r, .error (.selfTransfer capability target))
        else if e.transferred then (r, .error (.duplicateTransfer capability))
        else
          (r.setPair capability.generation
            (pair.setEnd capability.side { e with owner := target, transferred := true }),
            .ok capability)

/-- No revocation check here: a revoked owner is refused through its pair. -/
def close (r : VirtualPortRegistry) (capability : PortCapability) (owner : RolePrincipal) :
    VirtualPortRegistry × Except VirtualPortError Unit :=
  match r.pairs.get? capability.generation with
  | none => (r, .error (.closed capability))
  | some pair =>
    if pair.revoked then (r, .error (.closed capability))
    else
      let e := pair.endRef capability.side
      match checkEndOwner capability owner e with
      | .error err => (r, .error err)
      | .ok () =>
        if e.closed then (r, .error (.closed capability))
        else
          let peer := pair.endRef capability.side.peer
          let peer' :=
            if !peer.closed && !peer.disconnectObserved then
              { peer with disconnectPending := true }
            else peer
          (r.setPair capability.generation
            ((pair.setEnd capability.side { e with closed := true }).setEnd
              capability.side.peer peer'), .ok ())

def recv (r : VirtualPortRegistry) (capability : PortCapability) (owner : RolePrincipal) :
    VirtualPortRegistry × Except VirtualPortError (Option PortMessage) :=
  if r.isGenerationRevoked owner then (r, .error (.staleGeneration capability owner))
  else
    match r.pairs.get? capability.generation with
    | none => (r, .error (.closed capability))
    | some pair =>
      if pair.revoked then (r, .error (.closed capability))
      else
        let e := pair.endRef capability.side
        match checkEndOwner capability owner e with
        | .error err => (r, .error err)
        | .ok () =>
          (r.setPair capability.generation
            (pair.setEnd capability.side { e with queue := e.queue.tail }),
            .ok e.queue.head?)

def pollDisconnect (r : VirtualPortRegistry) (capability : PortCapability)
    (owner : RolePrincipal) :
    VirtualPortRegistry × Except VirtualPortError (Option PortDisconnectReason) :=
  if r.isGenerationRevoked owner then (r, .error (.staleGeneration capability owner))
  else
    match r.pairs.get? capability.generation with
    | none => (r, .error (.closed capability))
    | some pair =>
      let e := pair.endRef capability.side
      match checkEndOwner capability owner e with
      | .error err => (r, .error err)
      | .ok () =>
        let seen := e.observe pair.revoked
        (r.setPair capability.generation (pair.setEnd capability.side seen.1), .ok seen.2)

/-- What a revocation writes to one end. -/
def revokeEnd (principal : RolePrincipal) (e : EndState) : EndState :=
  let e := if e.owner = principal then { e with closed := true } else e
  if (e.owner = principal ∨ e.initialOwner = principal) ∧ e.disconnectObserved = false then
    { e with disconnectPending := true }
  else e

/-- What a revocation writes to one pair. -/
def revokePair (principal : RolePrincipal) (pair : PairState) : PairState :=
  if pair.revoked then pair
  else
    let endA := revokeEnd principal pair.endA
    let endB := revokeEnd principal pair.endB
    if endA.initialOwner = principal ∨ endB.initialOwner = principal ∨
        endA.owner = principal ∨ endB.owner = principal then
      { endA := { endA with queue := [] }, endB := { endB with queue := [] }, revoked := true }
    else { pair with endA := endA, endB := endB }

def revokeGeneration (r : VirtualPortRegistry) (principal : RolePrincipal) :
    VirtualPortRegistry :=
  { r with
    revokedGenerations := r.revokedGenerations.insert principal
    liveGenerations := r.liveGenerations.filter (fun p => p ≠ principal)
    pairs := r.pairs.map (revokePair principal) }

end VirtualPortRegistry

/-! ## The registry as a machine -/

/-- One call of the registry, with the principal that makes it. -/
inductive PortOp where
  | registerGeneration (principal : RolePrincipal)
  | createPair (ownerA ownerB : RolePrincipal)
  | send (origin : PortCapability) (sender : RolePrincipal) (payload : PortMessage)
  | transfer (capability : PortCapability) (source target : RolePrincipal)
  | close (capability : PortCapability) (owner : RolePrincipal)
  | recv (capability : PortCapability) (owner : RolePrincipal)
  | pollDisconnect (capability : PortCapability) (owner : RolePrincipal)
  | revokeGeneration (principal : RolePrincipal)
deriving DecidableEq, Repr

/-- What an accepted call returns. -/
inductive PortReply where
  | unit
  | pair (capA capB : PortCapability)
  | capability (capability : PortCapability)
  | message (message : Option PortMessage)
  | disconnect (reason : Option PortDisconnectReason)
deriving DecidableEq, Repr

abbrev PortOutcome := Except VirtualPortError PortReply

/-- One operation under the reply type shared by all. -/
def reply {α : Type} (f : α → PortReply)
    (result : VirtualPortRegistry × Except VirtualPortError α) :
    VirtualPortRegistry × PortOutcome :=
  (result.1, result.2.map f)

def VirtualPortRegistry.step (r : VirtualPortRegistry) :
    PortOp → VirtualPortRegistry × PortOutcome
  | .registerGeneration principal => (r.registerGeneration principal, .ok .unit)
  | .createPair ownerA ownerB => reply (fun caps => .pair caps.1 caps.2) (r.createPair ownerA ownerB)
  | .send origin sender payload => reply (fun _ => .unit) (r.send origin sender payload)
  | .transfer cap source target => reply .capability (r.transfer cap source target)
  | .close cap owner => reply (fun _ => .unit) (r.close cap owner)
  | .recv cap owner => reply .message (r.recv cap owner)
  | .pollDisconnect cap owner => reply .disconnect (r.pollDisconnect cap owner)
  | .revokeGeneration principal => (r.revokeGeneration principal, .ok .unit)

/-- The registry with a given queue bound. -/
def ports (queueCapacity : ℕ) : Machine VirtualPortRegistry PortOp PortOutcome where
  init := VirtualPortRegistry.withQueueCapacity queueCapacity
  step := VirtualPortRegistry.step

end Keld.Runtime
