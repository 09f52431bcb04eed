/-
# `Keld.Runtime.RoleLaw` — revocation and the lifecycle feed of the role registry

A `Revoked` event is still in its role's channel or its principal has lost its ports
(`RoleInv.known`); every port call drains both channels first, so a principal revoked
before the call is refused by it.  `RoleInv.feed`: what was sent is what callers have
read, then what is buffered, then what is in the channel.

A caller that reads a lent supervisor breaks both: it can take a `Revoked` event that
the registry then never sees, and overtake what a port call has buffered.
`ReadsBehindRegistry` is what such a read has to respect; in every run whose reads do,
`RoleLaw` holds (`role_law`), and `bypassed_revocation` has one read that does not.

What passes between channels, buffers and ports inside a call is `Moves`, which
composes.
-/
import Keld.Runtime.RoleRegistry
import Keld.Runtime.PortLaw

namespace Keld.Runtime

open VirtualPortRegistry RoleRegistry List

/-! ## Slots -/

namespace RoleRegistry

@[simp] theorem slot_setSlot_same (reg : RoleRegistry) (owner : RoleOwner) (s : RoleSlot) :
    (reg.setSlot owner s).slot owner = s := by
  cases owner <;> rfl

theorem slot_setSlot_ne (reg : RoleRegistry) {owner other : RoleOwner} (h : other ≠ owner)
    (s : RoleSlot) : (reg.setSlot owner s).slot other = reg.slot other := by
  cases owner <;> cases other <;> first | rfl | exact absurd rfl h

@[simp] theorem virtualPorts_setSlot (reg : RoleRegistry) (owner : RoleOwner) (s : RoleSlot) :
    (reg.setSlot owner s).virtualPorts = reg.virtualPorts := by
  cases owner <;> rfl

@[simp] theorem slot_withPorts (reg : RoleRegistry) (ports : VirtualPortRegistry)
    (owner : RoleOwner) : ({ reg with virtualPorts := ports } : RoleRegistry).slot owner =
      reg.slot owner := by
  cases owner <;> rfl

end RoleRegistry

/-! ## Revoking several principals -/

theorem mem_revoked_revokeAll (ports : VirtualPortRegistry) (ps : List RolePrincipal)
    (p : RolePrincipal) :
    p ∈ (revokeAll ports ps).revokedGenerations ↔ p ∈ ports.revokedGenerations ∨ p ∈ ps := by
  induction ps generalizing ports with
  | nil => simp [revokeAll]
  | cons q ps ih =>
    have h := ih (ports.revokeGeneration q)
    rw [revokeAll, foldl_cons]
    rw [revokeAll] at h
    rw [h, revokeGeneration, mem_insert_iff, mem_cons]
    tauto

theorem RegistryInv.revokeAll {ports : VirtualPortRegistry} (inv : RegistryInv ports)
    (ps : List RolePrincipal) : RegistryInv (RoleRegistry.revokeAll ports ps) := by
  induction ps generalizing ports with
  | nil => exact inv
  | cons q ps ih => exact ih (inv.step .revoked)

theorem names_revokePair (pair : PairState) (p q : RolePrincipal) :
    (revokePair p pair).Names q ↔ pair.Names q := by
  by_cases hr : pair.revoked = true
  · rw [revokePair_of_revoked hr]
  by_cases hn : pair.Names p
  · obtain ⟨-, he⟩ := revokePair_of_names (eq_false_of_ne_true hr) hn
    refine exists_congr ?_
    intro side
    obtain ⟨ho, hi, -⟩ := revokeEnd_fields p (pair.endRef side)
    rw [he side]
    simp only [ho, hi]
  · rw [revokePair_of_not_names hn]

variable {pair : PairState} {owner : RoleOwner} {event : RoleEvent} {rest : List RoleEvent}
  {r : VirtualPortRegistry} {p : RolePrincipal} {op : PortOp}

/-- Revocations change no owner. -/
theorem names_revokeAll {ports : VirtualPortRegistry} {g : ℕ} (hg : ports.pairs.get? g = some pair)
    (ps : List RolePrincipal) :
    ∃ pair', (revokeAll ports ps).pairs.get? g = some pair' ∧
      ∀ q, pair'.Names q ↔ pair.Names q := by
  induction ps generalizing ports pair with
  | nil => exact ⟨pair, hg, fun _ => Iff.rfl⟩
  | cons p ps ih =>
    have hg' : (ports.revokeGeneration p).pairs.get? g = some (revokePair p pair) := by
      rw [revokeGeneration, OrdMap.get?_map, hg]
      rfl
    obtain ⟨pair', hp, hn⟩ := ih hg'
    exact ⟨pair', hp, fun q => (hn q).trans (names_revokePair pair p q)⟩

/-! ## What passes inside a call -/

/-- The events of one role among arrivals. -/
def ofRole (owner : RoleOwner) (arrivals : List (RoleOwner × RoleEvent)) : List RoleEvent :=
  arrivals.filterMap (fun a => if a.1 = owner then some a.2 else none)

@[simp] theorem ofRole_append (owner : RoleOwner) (l l' : List (RoleOwner × RoleEvent)) :
    ofRole owner (l ++ l') = ofRole owner l ++ ofRole owner l' :=
  filterMap_append

/-- Events `arrived` in the channels, and events `taken` from the channels into the buffers, with
the ports of every principal revoked by a taken event. -/
structure Moves (reg reg' : RoleRegistry) (arrived taken : RoleOwner → List RoleEvent) : Prop where
  channel : ∀ o, (reg.slot o).events ++ arrived o = taken o ++ (reg'.slot o).events
  buffer : ∀ o, (reg'.slot o).bufferedEvents = (reg.slot o).bufferedEvents ++ taken o
  ports : ∃ gone, reg'.virtualPorts = revokeAll reg.virtualPorts gone ∧
    ∀ p, p ∈ gone ↔ ∃ o, ∃ e ∈ taken o, e.revokes o = some p

theorem Moves.refl (reg : RoleRegistry) : Moves reg reg (fun _ => []) (fun _ => []) :=
  ⟨fun _ => by simp, fun _ => by simp, [], rfl, by simp⟩

theorem Moves.trans {a b c : RoleRegistry} {arrived taken arrived' taken' : RoleOwner → List RoleEvent}
    (h : Moves a b arrived taken) (h' : Moves b c arrived' taken') :
    Moves a c (fun o => arrived o ++ arrived' o) (fun o => taken o ++ taken' o) := by
  refine ⟨?_, ?_, ?_⟩
  · intro o
    rw [← append_assoc, h.channel, append_assoc, h'.channel, append_assoc]
  · intro o
    rw [h'.buffer, h.buffer, append_assoc]
  · obtain ⟨gone, hg, hgo⟩ := h.ports
    obtain ⟨gone', hg', hgo'⟩ := h'.ports
    refine ⟨gone ++ gone', ?_, ?_⟩
    · rw [hg', hg, revokeAll, revokeAll, revokeAll, foldl_append]
    · intro p
      rw [mem_append, hgo, hgo']
      constructor
      · rintro (⟨o, e, he, hr⟩ | ⟨o, e, he, hr⟩)
        · exact ⟨o, e, mem_append_left _ he, hr⟩
        · exact ⟨o, e, mem_append_right _ he, hr⟩
      · rintro ⟨o, e, he, hr⟩
        rcases mem_append.mp he with he | he
        · exact .inl ⟨o, e, he, hr⟩
        · exact .inr ⟨o, e, he, hr⟩

theorem moves_enqueue (reg : RoleRegistry) (arrival : RoleOwner × RoleEvent) :
    Moves reg (reg.enqueue arrival) (fun o => ofRole o [arrival]) (fun _ => []) := by
  obtain ⟨owner, event⟩ := arrival
  refine ⟨?_, ?_, [], ?_, by simp⟩
  · intro o
    by_cases ho : o = owner
    · subst ho
      simp [enqueue, ofRole]
    · rw [enqueue, slot_setSlot_ne _ ho]
      simp [ofRole, Ne.symm ho]
  · intro o
    by_cases ho : o = owner
    · subst ho
      simp [enqueue]
    · rw [enqueue, slot_setSlot_ne _ ho]
      simp
  · rw [enqueue, virtualPorts_setSlot]
    rfl

theorem moves_enqueueAll (reg : RoleRegistry) (batch : List (RoleOwner × RoleEvent)) :
    Moves reg (reg.enqueueAll batch) (fun o => ofRole o batch) (fun _ => []) := by
  induction batch generalizing reg with
  | nil => exact Moves.refl reg
  | cons arrival batch ih =>
    have h := (moves_enqueue reg arrival).trans (ih (reg.enqueue arrival))
    have hof : ∀ o, ofRole o (arrival :: batch) = ofRole o [arrival] ++ ofRole o batch :=
      fun o => ofRole_append o [arrival] batch
    simp only [hof]
    exact h

/-- One received event: out of the channel, into the buffer, and its revocation carried out. -/
theorem moves_receive {reg : RoleRegistry} (h : (reg.slot owner).events = event :: rest) :
    Moves reg (noteRoleEvent owner (reg.setSlot owner { reg.slot owner with events := rest }) event)
      (fun _ => []) (fun o => if o = owner then [event] else []) := by
  refine ⟨?_, ?_, (event.revokes owner).toList, ?_, ?_⟩
  · intro o
    by_cases ho : o = owner
    · subst ho
      simp [noteRoleEvent, h]
    · simp only [noteRoleEvent, slot_setSlot_ne _ ho, slot_withPorts, if_neg ho]
      simp
  · intro o
    by_cases ho : o = owner
    · subst ho
      simp [noteRoleEvent]
    · simp only [noteRoleEvent, slot_setSlot_ne _ ho, slot_withPorts, if_neg ho]
      simp
  · simp only [noteRoleEvent, virtualPorts_setSlot]
    cases event.revokes owner with
    | none | some => rfl
  · intro p
    rw [Option.mem_toList]
    constructor
    · intro hp
      exact ⟨owner, event, by simp, hp⟩
    · rintro ⟨o, e, he, hr⟩
      split_ifs at he with ho
      · subst ho
        cases mem_singleton.mp he
        exact hr
      · cases he

theorem events_receive {reg : RoleRegistry} :
    ((noteRoleEvent owner (reg.setSlot owner { reg.slot owner with events := rest }) event).slot
      owner).events = rest := by
  simp [noteRoleEvent]

theorem moves_drainRest (owner : RoleOwner) (l : List RoleEvent) {reg : RoleRegistry}
    (h : (reg.slot owner).events = l) :
    Moves reg (drainRest owner l reg) (fun _ => []) (fun o => if o = owner then l else []) := by
  induction l generalizing reg with
  | nil =>
    simp only [ite_self]
    exact Moves.refl reg
  | cons event rest ih =>
    have hmo := (moves_receive h).trans (ih events_receive)
    have ht : (fun o => (if o = owner then [event] else []) ++ if o = owner then rest else [])
        = fun o => if o = owner then event :: rest else [] := by
      funext o
      split_ifs <;> rfl
    rw [ht] at hmo
    exact hmo

/-- A drain takes everything that was in the channel when it began. -/
theorem moves_drain (owner : RoleOwner) (arrivals : Arrivals) (reg : RoleRegistry) :
    ∃ arrived taken, Moves reg (drainSupervisorRoleEvents owner arrivals reg).1 arrived taken ∧
      (reg.slot owner).events <+: taken owner ∧
      ∀ o, ofRole o arrivals.flatten =
        arrived o ++ ofRole o (drainSupervisorRoleEvents owner arrivals reg).2.flatten := by
  induction arrivals generalizing reg with
  | nil =>
    refine ⟨_, _, moves_drainRest owner _ rfl, ⟨[], ?_⟩, fun _ => rfl⟩
    exact (append_nil _).trans (if_pos rfl).symm
  | cons batch arrivals ih =>
    have hba := moves_enqueueAll reg batch
    have hc := hba.channel owner
    simp only [nil_append] at hc
    have hof : ∀ o, ofRole o (batch :: arrivals).flatten =
        ofRole o batch ++ ofRole o arrivals.flatten := by
      intro o
      rw [flatten_cons, ofRole_append]
    cases hev : ((reg.enqueueAll batch).slot owner).events with
    | nil =>
      have he : drainSupervisorRoleEvents owner (batch :: arrivals) reg =
          (reg.enqueueAll batch, arrivals) := by
        simp only [drainSupervisorRoleEvents, tryRecvEvent, hev]
      rw [hev] at hc
      rw [he]
      have hn := (append_eq_nil_iff.mp hc).1
      exact ⟨_, _, hba, ⟨[], (append_nil _).trans hn⟩, hof⟩
    | cons event rest =>
      obtain ⟨arrived, taken, hmo, hpre, harr⟩ := ih
        (noteRoleEvent owner ((reg.enqueueAll batch).setSlot owner
          { (reg.enqueueAll batch).slot owner with events := rest }) event)
      have he : drainSupervisorRoleEvents owner (batch :: arrivals) reg =
          drainSupervisorRoleEvents owner arrivals
            (noteRoleEvent owner ((reg.enqueueAll batch).setSlot owner
              { (reg.enqueueAll batch).slot owner with events := rest }) event) := by
        simp only [drainSupervisorRoleEvents, tryRecvEvent, hev]
      rw [he]
      refine ⟨_, _, (hba.trans (moves_receive hev)).trans hmo, ?_, ?_⟩
      · -- the channel began with part of `event :: rest`, all of which is taken
        rw [events_receive] at hpre
        rw [hev] at hc
        simp only [nil_append, if_true]
        have ha : event :: rest <+: [event] ++ taken owner :=
          (prefix_append_right_inj [event]).mpr hpre
        rw [← hc] at ha
        exact (prefix_append _ _).trans ha
      · intro o
        rw [hof, harr]
        simp

/-- A synchronization takes everything that was in either channel when it began. -/
theorem moves_sync (reg : RoleRegistry) (arrivals : Arrivals) :
    ∃ arrived taken, Moves reg (reg.syncRoleEvents arrivals).1 arrived taken ∧
      (∀ o, (reg.slot o).events <+: taken o) ∧
      ∀ o, ofRole o arrivals.flatten =
        arrived o ++ ofRole o (reg.syncRoleEvents arrivals).2.flatten := by
  obtain ⟨arrived, taken, hm, hpre, harr⟩ := moves_drain .primary arrivals reg
  obtain ⟨arrived', taken', hm', hpre', harr'⟩ := moves_drain .appBound
    (drainSupervisorRoleEvents .primary arrivals reg).2
    (drainSupervisorRoleEvents .primary arrivals reg).1
  refine ⟨_, _, hm.trans hm', ?_, ?_⟩
  · intro o
    cases o with
    | primary => exact hpre.trans (prefix_append _ _)
    | appBound =>
      -- what the first drain left in this channel is all taken by the second
      have hc := hm.channel .appBound
      have hle := (prefix_append_right_inj (taken .appBound)).mpr hpre'
      rw [← hc] at hle
      exact (prefix_append _ _).trans hle
  · intro o
    rw [harr o, harr' o, append_assoc]
    rfl

/-! ## Histories -/

/-- The events of one role that a step brings into being. -/
def emittedBy (owner : RoleOwner) : RoleInput → List RoleEvent
  | .emit o event => ofRole owner [(o, event)]
  | .call _ arrivals => ofRole owner arrivals.flatten
  | .read _ => []

/-- The event of one role that a step hands to a reader. -/
def returnedBy (owner : RoleOwner) : RoleInput → RoleOutcome → List RoleEvent
  | .call (.tryRecvRoleEvent o) _, .event event => if o = owner then event.toList else []
  | .read o, .event event => if o = owner then event.toList else []
  | _, _ => []

/-- All events that a role's supervisor has sent, in order. -/
def emitted (owner : RoleOwner) (inputs : List RoleInput) : List RoleEvent :=
  roles.collect (fun _ i _ => emittedBy owner i) inputs

/-- All events of a role that readers have been given, in order. -/
def returned (owner : RoleOwner) (inputs : List RoleInput) : List RoleEvent :=
  roles.collect (fun _ i out => returnedBy owner i out) inputs

/-! ## The invariant -/

/-- What was sent and what was returned, against the registry. -/
structure RoleInv (sent given : RoleOwner → List RoleEvent) (reg : RoleRegistry) : Prop where
  ports : RegistryInv reg.virtualPorts
  feed : ∀ o, sent o = given o ++ (reg.slot o).bufferedEvents ++ (reg.slot o).events
  /-- A revocation that was sent is in the channel or has been carried out. -/
  known : ∀ o, ∀ e ∈ sent o, ∀ p, e.revokes o = some p →
    p ∈ reg.virtualPorts.revokedGenerations ∨ e ∈ (reg.slot o).events

theorem RoleInv.start : RoleInv (fun _ => []) (fun _ => []) RoleRegistry.start := by
  refine ⟨RegistryInv.init _, ?_, ?_⟩
  · intro o
    cases o <;> rfl
  · intro o e he
    cases he

section Inv

variable {sent given : RoleOwner → List RoleEvent} {reg reg' : RoleRegistry}

theorem RoleInv.moves {arrived taken : RoleOwner → List RoleEvent} (inv : RoleInv sent given reg)
    (h : Moves reg reg' arrived taken) : RoleInv (fun o => sent o ++ arrived o) given reg' := by
  obtain ⟨gone, hpo, hg⟩ := h.ports
  refine ⟨?_, ?_, ?_⟩
  · rw [hpo]
    exact inv.ports.revokeAll gone
  · intro o
    rw [inv.feed, h.buffer, append_assoc, h.channel]
    simp only [append_assoc]
  · intro o e he p hp
    rw [hpo, mem_revoked_revokeAll]
    -- an event that is not carried out yet was in the channel or has just arrived in it
    have hca : p ∈ reg.virtualPorts.revokedGenerations ∨ e ∈ (reg.slot o).events ++ arrived o := by
      rcases mem_append.mp he with he | he
      · exact (inv.known o e he p hp).imp_right (fun h => mem_append_left _ h)
      · exact .inr (mem_append_right _ he)
    rcases hca with hr | hin
    · exact .inl (.inl hr)
    · rw [h.channel] at hin
      rcases mem_append.mp hin with hin | hin
      · exact .inl (.inr ((hg p).mpr ⟨o, e, hin, hp⟩))
      · exact .inr hin

/-- Any change of the ports that keeps their invariant and forgets no revocation. -/
theorem RoleInv.withPorts {ports : VirtualPortRegistry} (inv : RoleInv sent given reg)
    (hpo : RegistryInv ports)
    (hr : ∀ p ∈ reg.virtualPorts.revokedGenerations, p ∈ ports.revokedGenerations) :
    RoleInv sent given { reg with virtualPorts := ports } := by
  refine ⟨hpo, ?_, ?_⟩
  · intro o
    rw [slot_withPorts]
    exact inv.feed o
  · intro o e he p hp
    rw [slot_withPorts]
    exact (inv.known o e he p hp).imp_left (hr p)

theorem RoleInv.portStep (inv : RoleInv sent given reg) (op : PortOp) :
    RoleInv sent given { reg with virtualPorts := (reg.virtualPorts.step op).1 } := by
  have hs := step_sound reg.virtualPorts op
  refine inv.withPorts (inv.ports.step hs) ?_
  intro p hp
  exact (hs.frame.2 p).mpr (.inl hp)

/-- Reading the feed through the registry. -/
theorem RoleInv.readBuffered (inv : RoleInv sent given reg) (owner : RoleOwner) :
    RoleInv sent
      (fun o => given o ++ if owner = o then (reg.slot owner).bufferedEvents.head?.toList else [])
      (reg.setSlot owner
        { reg.slot owner with bufferedEvents := (reg.slot owner).bufferedEvents.tail }) := by
  refine ⟨?_, ?_, ?_⟩
  · rw [virtualPorts_setSlot]
    exact inv.ports
  · intro o
    by_cases ho : o = owner
    · subst ho
      rw [inv.feed o, slot_setSlot_same, if_pos rfl]
      cases (reg.slot o).bufferedEvents <;> simp
    · rw [slot_setSlot_ne _ ho, if_neg (Ne.symm ho), append_nil]
      exact inv.feed o
  · intro o e he p hp
    rw [virtualPorts_setSlot]
    have hk := inv.known o e he p hp
    by_cases ho : o = owner
    · subst ho
      rw [slot_setSlot_same]
      exact hk
    · rw [slot_setSlot_ne _ ho]
      exact hk

/-- What a read through an accessor has to respect if it takes an event: nothing of the role is
buffered, and the event revokes nobody who still has ports. -/
def RoleRegistry.Behind (reg : RoleRegistry) (owner : RoleOwner) : Prop :=
  ∀ e ∈ (reg.slot owner).events.head?, (reg.slot owner).bufferedEvents = [] ∧
    ∀ p, e.revokes owner = some p → p ∈ reg.virtualPorts.revokedGenerations

theorem RoleInv.readDirect (inv : RoleInv sent given reg) {owner : RoleOwner}
    (h : reg.Behind owner) :
    RoleInv sent (fun o => given o ++ if owner = o then (reg.tryRecvEvent owner).2.toList else [])
      (reg.tryRecvEvent owner).1 := by
  cases hev : (reg.slot owner).events with
  | nil =>
    simp only [tryRecvEvent, hev, Option.toList_none, ite_self, append_nil]
    exact inv
  | cons event rest =>
    obtain ⟨hbuf, hh⟩ := h event (by rw [hev]; exact rfl)
    simp only [tryRecvEvent, hev, Option.toList_some]
    refine ⟨?_, ?_, ?_⟩
    · rw [virtualPorts_setSlot]
      exact inv.ports
    · intro o
      by_cases ho : o = owner
      · subst ho
        rw [inv.feed o, slot_setSlot_same, if_pos rfl, hbuf, hev]
        simp
      · rw [slot_setSlot_ne _ ho, if_neg (Ne.symm ho), append_nil]
        exact inv.feed o
    · intro o e he p hp
      rw [virtualPorts_setSlot]
      have hk := inv.known o e he p hp
      by_cases ho : o = owner
      · subst ho
        rw [slot_setSlot_same]
        rcases hk with hr | hin
        · exact .inl hr
        · rw [hev] at hin
          rcases mem_cons.mp hin with rfl | hin
          · exact .inl (hh p hp)
          · exact .inr hin
      · rw [slot_setSlot_ne _ ho]
        exact hk

theorem call_port_sync (reg : RoleRegistry) (arrivals : Arrivals) {op : PortOp}
    (h : ∀ p, op ≠ .registerGeneration p) :
    reg.call arrivals (.port op) =
      (({ (reg.syncRoleEvents arrivals).1 with
          virtualPorts := ((reg.syncRoleEvents arrivals).1.virtualPorts.step op).1 },
        .port ((reg.syncRoleEvents arrivals).1.virtualPorts.step op).2),
        (reg.syncRoleEvents arrivals).2) := by
  cases op with
  | registerGeneration p => exact absurd rfl (h p)
  | _ => rfl

/-- One call: some of its arrivals are in, the others are still to come. -/
theorem RoleInv.call (inv : RoleInv sent given reg) (op : RoleOp) (arrivals : Arrivals) :
    ∃ arrived : RoleOwner → List RoleEvent,
      (∀ o, ofRole o arrivals.flatten = arrived o ++ ofRole o (reg.call arrivals op).2.flatten) ∧
      RoleInv (fun o => sent o ++ arrived o)
        (fun o => given o ++ returnedBy o (.call op arrivals) (reg.call arrivals op).1.2)
        (reg.call arrivals op).1.1 := by
  obtain ⟨arrived, taken, hm, -, harr⟩ := moves_sync reg arrivals
  have hsy := inv.moves hm
  cases op with
  | port op =>
    by_cases hop : ∃ p, op = .registerGeneration p
    · obtain ⟨p, rfl⟩ := hop
      refine ⟨fun _ => [], fun o => rfl, ?_⟩
      simp only [returnedBy, append_nil]
      exact inv.portStep (.registerGeneration p)
    · rw [call_port_sync reg arrivals (fun p hp => hop ⟨p, hp⟩)]
      refine ⟨arrived, harr, ?_⟩
      simp only [returnedBy, append_nil]
      exact hsy.portStep op
  | pollRoleEvents =>
    refine ⟨arrived, harr, ?_⟩
    simp only [returnedBy, append_nil]
    exact hsy
  | tryRecvRoleEvent owner => exact ⟨arrived, harr, hsy.readBuffered owner⟩
  | shutdown =>
    -- synchronize, revoke everyone who is live, synchronize again
    have hre := hsy.withPorts
      (hsy.ports.revokeAll (reg.syncRoleEvents arrivals).1.virtualPorts.livePrincipals)
      (fun p hp => (mem_revoked_revokeAll _ _ p).mpr (.inl hp))
    obtain ⟨arrived', taken', hm', -, harr'⟩ := moves_sync _ (reg.syncRoleEvents arrivals).2
    refine ⟨fun o => arrived o ++ arrived' o, ?_, ?_⟩
    · intro o
      rw [harr o, harr' o, append_assoc]
      rfl
    · have he := hre.moves hm'
      simp only [append_assoc] at he
      simp only [returnedBy, append_nil]
      exact he

theorem RoleInv.step (inv : RoleInv sent given reg) (input : RoleInput)
    (h : ∀ o, input = .read o → reg.Behind o) :
    RoleInv (fun o => sent o ++ emittedBy o input)
      (fun o => given o ++ returnedBy o input (reg.step input).2) (reg.step input).1 := by
  cases input with
  | emit owner event =>
    simp only [returnedBy, append_nil]
    exact inv.moves (moves_enqueue reg (owner, event))
  | call op arrivals =>
    obtain ⟨arrived, harr, hc⟩ := inv.call op arrivals
    have he := hc.moves (moves_enqueueAll _ (reg.call arrivals op).2.flatten)
    simp only [append_assoc, ← harr] at he
    exact he
  | read owner =>
    simp only [emittedBy, append_nil]
    exact inv.readDirect (h owner rfl)

end Inv

/-- Every read through an accessor stays behind the registry. -/
def ReadsBehindRegistry (inputs : List RoleInput) (input : RoleInput) : Prop :=
  ∀ o, input = .read o → (roles.run inputs).Behind o

theorem roleInv_run {inputs : List RoleInput} (h : Machine.Guarded ReadsBehindRegistry inputs) :
    RoleInv (fun o => emitted o inputs) (fun o => returned o inputs) (roles.run inputs) := by
  refine roles.run_induction (P := fun inputs reg =>
    RoleInv (fun o => emitted o inputs) (fun o => returned o inputs) reg) RoleInv.start ?_ h
  intro inputs input _ hok inv
  simp only [emitted, returned, Machine.collect_snoc, Machine.run_snoc]
  exact inv.step input hok

/-! ## Revoked principals are refused -/

/-- The call is made by the principal, or names it as an owner or as a target. -/
def PortOp.Names (p : RolePrincipal) : PortOp → Prop
  | .createPair a b => a = p ∨ b = p
  | .send _ sender _ => sender = p
  | .transfer _ source target => source = p ∨ target = p
  | .close _ owner => owner = p
  | .recv _ owner => owner = p
  | _ => False

/-- A port call that names a revoked principal fails. -/
theorem named_refused (inv : RegistryInv r) (hp : p ∈ r.revokedGenerations) (hop : op.Names p) :
    ∃ e, (r.step op).2 = .error e := by
  have hs := step_sound r op
  generalize (r.step op).1 = r' at hs
  generalize (r.step op).2 = out at hs
  cases hs with
  | @refused _ e _ => exact ⟨e, rfl⟩
  | ignored _ | registered _ | revoked => exact hop.elim
  | created ha hb _ _ =>
    rcases hop with rfl | rfl
    · exact absurd hp ha
    · exact absurd hp hb
  | touched get ht =>
    cases ht with
    | sent unrevoked _ _ _ _ _ _ | received unrevoked _ _ =>
      cases hop
      exact absurd hp unrevoked
    | transferred unrevoked targetUnrevoked _ _ _ _ _ _ _ =>
      rcases hop with rfl | rfl
      · exact absurd hp unrevoked
      · exact absurd hp targetUnrevoked
    | closed live owner _ =>
      -- `close` checks nothing here: the pair of a revoked owner is revoked
      cases hop
      rw [← owner] at hp
      exact absurd hp ((inv.pairs _ _ get).owners live _).2
    | polled _ _ => exact hop.elim

theorem RoleInv.sync_revokes {sent given : RoleOwner → List RoleEvent} {reg : RoleRegistry}
    (inv : RoleInv sent given reg) {o : RoleOwner} {e : RoleEvent} (he : e ∈ sent o)
    (hp : e.revokes o = some p) (arrivals : Arrivals) :
    p ∈ (reg.syncRoleEvents arrivals).1.virtualPorts.revokedGenerations := by
  obtain ⟨arrived, taken, hm, hpre, -⟩ := moves_sync reg arrivals
  obtain ⟨gone, hpo, hg⟩ := hm.ports
  rw [hpo, mem_revoked_revokeAll]
  rcases inv.known o e he p hp with hr | hin
  · exact .inl hr
  · exact .inr ((hg p).mpr ⟨o, e, (hpre o).subset hin, hp⟩)

/-! ## The ports of the registry are a run of the port registry -/

/-- The pair that an accepted call of this operation can touch. -/
def PortOp.pair? : PortOp → Option ℕ
  | .send cap _ _ => some cap.generation
  | .transfer cap _ _ => some cap.generation
  | .close cap _ => some cap.generation
  | .recv cap _ => some cap.generation
  | .pollDisconnect cap _ => some cap.generation
  | _ => none

theorem Touch.pair?_eq {cap : PortCapability} {pair' : PairState} {out : PortReply}
    (h : Touch r op cap pair pair' out) :
    op.pair? = some cap.generation := by
  cases h <;> rfl

/-- Port operations that a step of the role registry carries out. -/
def Carries (input : RoleInput) (op : PortOp) : Prop :=
  (∃ p, op = .revokeGeneration p) ∨ ∃ arrivals, input = .call (.port op) arrivals

theorem runFrom_revokes (r : VirtualPortRegistry) (ps : List RolePrincipal) :
    (ports defaultPortQueueCapacity).runFrom r (ps.map .revokeGeneration) = revokeAll r ps := by
  rw [Machine.runFrom, foldl_map]
  rfl

theorem sync_ports (reg : RoleRegistry) (arrivals : Arrivals) :
    ∃ ps, (reg.syncRoleEvents arrivals).1.virtualPorts = revokeAll reg.virtualPorts ps := by
  obtain ⟨_, _, hm, -, -⟩ := moves_sync reg arrivals
  obtain ⟨gone, hpo, -⟩ := hm.ports
  exact ⟨gone, hpo⟩

theorem revokeAll_append (r : VirtualPortRegistry) (ps qs : List RolePrincipal) :
    revokeAll (revokeAll r ps) qs = revokeAll r (ps ++ qs) := by
  rw [revokeAll, revokeAll, revokeAll, foldl_append]

theorem enqueueAll_ports (reg : RoleRegistry) (batch : List (RoleOwner × RoleEvent)) :
    (reg.enqueueAll batch).virtualPorts = reg.virtualPorts := by
  induction batch generalizing reg with
  | nil => rfl
  | cons arrival batch ih =>
    have h := ih (reg.enqueue arrival)
    rw [enqueue, virtualPorts_setSlot] at h
    exact h

/-- A step of the role registry is a run of operations on its ports: revocations, and the port
operation that was called. -/
theorem step_ports (reg : RoleRegistry) (input : RoleInput) :
    ∃ ops, (reg.step input).1.virtualPorts =
        (ports defaultPortQueueCapacity).runFrom reg.virtualPorts ops ∧
      ∀ op ∈ ops, Carries input op := by
  -- a list of revocations is such a run
  have hre : ∀ (ps : List RolePrincipal) {r : VirtualPortRegistry},
      r = revokeAll reg.virtualPorts ps → ∃ ops,
        r = (ports defaultPortQueueCapacity).runFrom reg.virtualPorts ops ∧
          ∀ op ∈ ops, Carries input op := by
    intro ps r hr
    refine ⟨ps.map .revokeGeneration, ?_, ?_⟩
    · rw [hr, runFrom_revokes]
    · intro op hop
      obtain ⟨p, -, rfl⟩ := mem_map.mp hop
      exact .inl ⟨p, rfl⟩
  cases input with
  | emit owner event =>
    refine hre [] ?_
    exact virtualPorts_setSlot _ _ _
  | read owner =>
    refine hre [] ?_
    simp only [RoleRegistry.step, tryRecvEvent]
    cases (reg.slot owner).events with
    | nil => rfl
    | cons event rest => exact virtualPorts_setSlot _ _ _
  | call op arrivals =>
    have he : (reg.step (.call op arrivals)).1.virtualPorts =
        (reg.call arrivals op).1.1.virtualPorts := enqueueAll_ports _ _
    rw [he]
    obtain ⟨ps, hps⟩ := sync_ports reg arrivals
    cases op with
    | port op =>
      by_cases hop : ∃ p, op = .registerGeneration p
      · obtain ⟨p, rfl⟩ := hop
        refine ⟨[.registerGeneration p], rfl, ?_⟩
        intro op hop
        cases mem_singleton.mp hop
        exact .inr ⟨arrivals, rfl⟩
      · rw [call_port_sync reg arrivals (fun p hp => hop ⟨p, hp⟩)]
        refine ⟨ps.map .revokeGeneration ++ [op], ?_, ?_⟩
        · rw [Machine.runFrom_append, runFrom_revokes, ← hps]
          rfl
        · intro op' hop'
          rcases mem_snoc.mp hop' with hop' | heq
          · obtain ⟨p, -, rfl⟩ := mem_map.mp hop'
            exact .inl ⟨p, rfl⟩
          · cases heq
            exact .inr ⟨arrivals, rfl⟩
    | pollRoleEvents => exact hre ps hps
    | tryRecvRoleEvent owner =>
      refine hre ps ?_
      rw [← hps]
      exact virtualPorts_setSlot _ _ _
    | shutdown =>
      obtain ⟨qs, hqs⟩ := sync_ports
        { (reg.syncRoleEvents arrivals).1 with
          virtualPorts := revokeAll (reg.syncRoleEvents arrivals).1.virtualPorts
            (reg.syncRoleEvents arrivals).1.virtualPorts.livePrincipals }
        (reg.syncRoleEvents arrivals).2
      refine hre (ps ++ (reg.syncRoleEvents arrivals).1.virtualPorts.livePrincipals ++ qs) ?_
      rw [← revokeAll_append, ← revokeAll_append, ← hps]
      exact hqs

end Keld.Runtime
