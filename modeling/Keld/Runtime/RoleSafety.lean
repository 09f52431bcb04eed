/-
# `Keld.Runtime.RoleSafety` — the role registry over every run

`RoleLaw` is what the registry owes its callers after any inputs: a principal
whose revocation was sent is refused by every later port call and gets and
gives no message; a revocation reaches no pair that the principal never owned;
and each role's feed is read once and in order.

The third promise holds of every run.  The others hold of the runs whose reads
through `primary()` and `app_bound()` stay behind the registry, and fail of
`bypassRun`, where one such read takes the `Revoked` event away.
-/
import Keld.Runtime.RoleLaw
import Keld.Runtime.PortSafety

namespace Keld.Runtime

open VirtualPortRegistry RoleRegistry List

/-! ## Pairs that a step leaves alone -/

variable {g : ℕ} {pair : PairState}

/-- A run of port operations that touches a pair in no call, and revokes nobody who owned it. -/
theorem kept_runFrom {r : VirtualPortRegistry} (inv : RegistryInv r)
    (hg : r.pairs.get? g = some pair) {ops : List PortOp} (hops : ∀ op ∈ ops, op.pair? ≠ some g)
    (hr : ∀ p, PortOp.revokeGeneration p ∈ ops → pair.revoked = true ∨ ¬ pair.Names p) :
    ((ports defaultPortQueueCapacity).runFrom r ops).pairs.get? g = some pair := by
  induction ops generalizing r with
  | nil => exact hg
  | cons op ops ih =>
    have hs := step_sound r op
    refine ih (inv.step hs) ?_ (fun op' h => hops op' (mem_cons_of_mem _ h))
      (fun p h => hr p (mem_cons_of_mem _ h))
    obtain ⟨pair', hg', hmo⟩ := step_pair hs (inv.fresh _ le_rfl) hg
    suffices he : pair' = pair by
      rw [he] at hg'
      exact hg'
    have hpa := hops op mem_cons_self
    generalize noted g op (r.step op).2 = notes at hmo
    cases hmo with
    | keep => rfl
    | touched gen ht => exact absurd (ht.pair?_eq.trans (congrArg some gen)) hpa
    | @revoked p _ hop =>
      subst hop
      rcases hr p mem_cons_self with h | h
      · exact revokePair_of_revoked h p
      · exact revokePair_of_not_names h

theorem mem_revoked_runFrom (r : VirtualPortRegistry) (ops : List PortOp) (p : RolePrincipal) :
    p ∈ ((ports defaultPortQueueCapacity).runFrom r ops).revokedGenerations ↔
      p ∈ r.revokedGenerations ∨ PortOp.revokeGeneration p ∈ ops := by
  induction ops generalizing r with
  | nil => simp [Machine.runFrom]
  | cons op ops ih =>
    have h := ih (r.step op).1
    rw [(step_sound r op).frame.2 p] at h
    rw [mem_cons, eq_comm, ← or_assoc]
    exact h

/-- The ports of every run keep the invariant of the port registry. -/
theorem registryInv_roles (inputs : List RoleInput) :
    RegistryInv (roles.run inputs).virtualPorts := by
  induction inputs using reverseRecOn with
  | nil => exact RegistryInv.init _
  | append_singleton inputs input ih =>
    obtain ⟨ops, hops, -⟩ := step_ports (roles.run inputs) input
    rw [Machine.run_snoc]
    have hr : RegistryInv
        ((ports defaultPortQueueCapacity).runFrom (roles.run inputs).virtualPorts ops) := by
      clear hops
      generalize (roles.run inputs).virtualPorts = r at ih
      induction ops generalizing r with
      | nil => exact ih
      | cons op ops ihops => exact ihops _ (ih.step (step_sound r op))
    rw [← hops] at hr
    exact hr

/-! ## The law -/

/-- What the registry owes its callers after the inputs so far. -/
structure RoleLaw (inputs : List RoleInput) : Prop where
  /-- Once the revocation of a principal was sent, every later call that names it fails. -/
  revoked_refused : ∀ o, ∀ e ∈ emitted o inputs, ∀ p, e.revokes o = some p →
    ∀ (op : PortOp) arrivals, op.Names p →
      ∃ err, roles.outcome inputs (.call (.port op) arrivals) = .port (.error err)
  /-- Once the revocation of a principal was sent, no message comes out of a pair it has owned. -/
  nothing_delivered : ∀ o, ∀ e ∈ emitted o inputs, ∀ p, e.revokes o = some p →
    ∀ cap who m arrivals pair,
      roles.outcome inputs (.call (.port (.recv cap who)) arrivals) =
        .port (.ok (.message (some m))) →
      (roles.run inputs).virtualPorts.pairs.get? cap.generation = some pair → ¬ pair.Names p
  /-- A pair changes only in a call made on it or by the revocation of someone who owned it. -/
  others_unaffected : ∀ input g pair,
    (roles.run inputs).virtualPorts.pairs.get? g = some pair →
    (∀ op arrivals, input = .call (.port op) arrivals → op.pair? ≠ some g) →
    (∀ p ∈ (roles.run (inputs ++ [input])).virtualPorts.revokedGenerations,
      p ∉ (roles.run inputs).virtualPorts.revokedGenerations → ¬ pair.Names p) →
    (roles.run (inputs ++ [input])).virtualPorts.pairs.get? g = some pair
  /-- What was sent is what has been read, then what is buffered, then what is in the channel. -/
  feed_in_order : ∀ o, emitted o inputs =
    returned o inputs ++ ((roles.run inputs).slot o).bufferedEvents ++
      ((roles.run inputs).slot o).events

theorem outcome_port (inputs : List RoleInput) (arrivals : Arrivals) {op : PortOp}
    (h : ∀ p, op ≠ .registerGeneration p) :
    roles.outcome inputs (.call (.port op) arrivals) =
      .port (((roles.run inputs).syncRoleEvents arrivals).1.virtualPorts.step op).2 := by
  have hc := call_port_sync (roles.run inputs) arrivals h
  show ((roles.run inputs).call arrivals (.port op)).1.2 = _
  rw [hc]

theorem others_unaffected_run (inputs : List RoleInput) (input : RoleInput)
    (hg : (roles.run inputs).virtualPorts.pairs.get? g = some pair)
    (hop : ∀ op arrivals, input = .call (.port op) arrivals → op.pair? ≠ some g)
    (hre : ∀ p ∈ (roles.run (inputs ++ [input])).virtualPorts.revokedGenerations,
      p ∉ (roles.run inputs).virtualPorts.revokedGenerations → ¬ pair.Names p) :
    (roles.run (inputs ++ [input])).virtualPorts.pairs.get? g = some pair := by
  have inv := registryInv_roles inputs
  obtain ⟨ops, hops, hca⟩ := step_ports (roles.run inputs) input
  have hru : (roles.run (inputs ++ [input])).virtualPorts =
      (ports defaultPortQueueCapacity).runFrom (roles.run inputs).virtualPorts ops := by
    rw [Machine.run_snoc]
    exact hops
  rw [hru]
  refine kept_runFrom inv hg ?_ ?_
  · intro op hm
    rcases hca op hm with ⟨p, rfl⟩ | ⟨arrivals, he⟩
    · exact nofun
    · exact hop op arrivals he
  · intro p hm
    have haf : p ∈ (roles.run (inputs ++ [input])).virtualPorts.revokedGenerations := by
      rw [hru, mem_revoked_runFrom]
      exact .inr hm
    by_cases hb : p ∈ (roles.run inputs).virtualPorts.revokedGenerations
    · -- a principal that was revoked before owns no live pair
      cases hr : pair.revoked with
      | true => exact .inl rfl
      | false =>
        refine .inr ?_
        rintro ⟨side, hi | ho⟩
        · exact ((inv.pairs g pair hg).owners hr side).1 (hi ▸ hb)
        · exact ((inv.pairs g pair hg).owners hr side).2 (ho ▸ hb)
    · exact .inr (hre p haf hb)

/-- **Revocation is not bypassed by readers that stay behind the registry.**  In every run, with
the supervisors sending at any time, in which a read through an accessor takes an event only from
a role with nothing buffered, and never one that revokes a principal with live ports, `RoleLaw`
holds. -/
theorem role_law (inputs : List RoleInput) (h : Machine.Guarded ReadsBehindRegistry inputs) :
    RoleLaw inputs := by
  have inv := roleInv_run h
  refine ⟨?_, ?_, fun input g pair hg hop hr => others_unaffected_run inputs input hg hop hr,
    inv.feed⟩
  · intro o e he p hp op arrivals hop
    have hre := inv.sync_revokes he hp arrivals
    obtain ⟨_, _, hm, -, -⟩ := moves_sync (roles.run inputs) arrivals
    obtain ⟨err, her⟩ := named_refused (inv.moves hm).ports hre hop
    refine ⟨err, ?_⟩
    rw [outcome_port, her]
    rintro q rfl
    exact hop
  · intro o e he p hp cap who m arrivals pair hou hg hna
    have hre := inv.sync_revokes he hp arrivals
    obtain ⟨_, _, hm, -, -⟩ := moves_sync (roles.run inputs) arrivals
    obtain ⟨gone, hpo, -⟩ := hm.ports
    rw [outcome_port inputs arrivals (fun _ h => by cases h)] at hou
    -- the message comes out of the pair as the synchronization left it
    have hs := step_sound ((roles.run inputs).syncRoleEvents arrivals).1.virtualPorts
      (.recv cap who)
    rw [RoleOutcome.port.inj hou] at hs
    have hsy := (inv.moves hm).ports
    obtain ⟨pair', hg', hna'⟩ := names_revokeAll hg gone
    rw [← hpo] at hg'
    obtain ⟨pair'', get, live, -⟩ := recv_accepted hs
    cases get.symm.trans hg'
    obtain ⟨side, hi | ho⟩ := (hna' p).mpr hna
    · exact ((hsy.pairs _ _ get).owners live side).1 (hi ▸ hre)
    · exact ((hsy.pairs _ _ get).owners live side).2 (ho ▸ hre)

/-! ## The bypass -/

/-- Two bound roles with a pair between them; the primary's revocation is sent, and a caller takes
it through `primary()`. -/
def bypassRun : List RoleInput :=
  [.call (.port (.registerGeneration ⟨.primary, 1⟩)) [],
    .call (.port (.registerGeneration ⟨.appBound, 1⟩)) [],
    .call (.port (.createPair ⟨.primary, 1⟩ ⟨.appBound, 1⟩)) [],
    .emit .primary (.revoked 1 1 .childExited),
    .read .primary]

/-- After the bypass the revoked primary still sends, and the law does not hold. -/
theorem bypassed_revocation : ¬ RoleLaw bypassRun := by
  intro law
  have hse : RoleEvent.revoked 1 1 .childExited ∈ emitted .primary bypassRun := by
    decide +kernel
  obtain ⟨err, he⟩ := law.revoked_refused .primary _ hse ⟨.primary, 1⟩ rfl
    (.send ⟨1, .a⟩ ⟨.primary, 1⟩ [120]) [] rfl
  have hok : roles.outcome bypassRun
      (.call (.port (.send ⟨1, .a⟩ ⟨.primary, 1⟩ [120])) []) = .port (.ok .unit) := by
    rfl
  rw [hok] at he
  cases he

/-- The same roles; the caller reads a harmless event, and a port call drains the revocation. -/
def readBehindRun : List RoleInput :=
  [.call (.port (.registerGeneration ⟨.primary, 1⟩)) [],
    .emit .primary (.linkBound 1 1),
    .read .primary,
    .emit .primary (.revoked 1 1 .childExited)]

theorem role_law_readBehind :
    Machine.Guarded ReadsBehindRegistry readBehindRun ∧ RoleLaw readBehindRun := by
  have hr : (roles.run (readBehindRun.take 2)).Behind .primary := by
    intro e he
    have heq : e = .linkBound 1 1 := (Option.some.inj he).symm
    subst heq
    exact ⟨rfl, nofun⟩
  have h : Machine.Guarded ReadsBehindRegistry readBehindRun := by
    -- the only read is the third input
    rintro before i after heq o rfl
    rcases before with _ | ⟨x, _ | ⟨y, _ | ⟨z, _ | ⟨w, l⟩⟩⟩⟩ <;>
      simp only [readBehindRun, nil_append, cons_append, List.cons.injEq, reduceCtorEq,
        false_and, and_false, RoleInput.read.injEq, nil_eq, append_eq_nil_iff] at heq
    obtain ⟨rfl, rfl, rfl, -⟩ := heq
    exact hr
  exact ⟨h, role_law readBehindRun h⟩

end Keld.Runtime
