/-
# `Keld.Guard.Admit` — admission of a strict profile

`admitRequest` makes its checks in order and stops at the first that fails.  Of an
archive it asks something of each row (`ProbeRecord.Lawful`) and one pass for each
probe of the catalog, so order and duplicates do not count.  A row that failed
refuses nothing where its probe has also passed.
-/
import Keld.Lib.Except
import Keld.Lib.Hex
import Keld.Lib.Layout

namespace Keld.Guard.Admit

open List

/-! ## Requests, hosts and archives -/

inductive HostOs where
  | macos | windows | linux
deriving DecidableEq

def HostOs.asStr : HostOs → String
  | .macos => "macos"
  | .windows => "windows"
  | .linux => "linux"

inductive ProfileState where
  | unverified | legacy | strict
deriving DecidableEq

abbrev Digest := Chunk 32

structure ProofIdentity where
  os : HostOs
  artifactDigest : Digest
  profileDigest : Digest
  archiveId : String
deriving DecidableEq

structure AdmissionRequest where
  requested : ProfileState
  artifactDigest : Digest
  profileDigest : Digest
  proof : Option ProofIdentity
  electronSandboxOff : Bool
  inheritFromHost : Bool

inductive ProbeLayer where
  | osContainment | supervisorCleanup | hostProtocol | resourceLimits
deriving DecidableEq

inductive ProbeOracle where
  | osDeny | notOsDeny | jsShim | hostProtocol | supervisorReap | resourceLimit
deriving DecidableEq

def ProbeOracle.admitsOsContainmentPass (oracle : ProbeOracle) : Bool := oracle = .osDeny

inductive ProbeVerdict where
  | pass | fail
deriving DecidableEq

structure ProbeRecord where
  probe : String
  expectedLayer : ProbeLayer
  recordedLayer : ProbeLayer
  verdict : ProbeVerdict
  oracle : ProbeOracle
deriving DecidableEq

structure ProofArchive where
  identity : ProofIdentity
  rows : List ProbeRecord
  policyGeneration : UInt64

structure HostFacts where
  os : HostOs
  missingPrimitives : List String
  policyGeneration : UInt64
  handleLeak : Option String

def osContainmentProbes : List String :=
  ["direct_filesystem", "direct_network", "direct_spawn", "inherited_handles", "scm_rights",
    "descendants", "broker_bypass", "token_theft", "addon_escape", "updater_boundary"]

def expectedLayerFor (probe : String) : Option ProbeLayer :=
  if probe = "crash_cleanup" then some .supervisorCleanup
  else if probe = "protocol_confusion" then some .hostProtocol
  else if probe = "resource" then some .resourceLimits
  else if probe ∈ osContainmentProbes then some .osContainment
  else none

/-! ## Errors -/

inductive MismatchField where
  | artifactDigest | profileDigest | os | archiveId
deriving DecidableEq

inductive AdmissionError where
  | primitiveUnavailable (os : HostOs) (primitive fix : String)
  | unexpectedGrant (os : HostOs) (grant fix : String)
  | handleLeak (description fix : String)
  | proofMissing (os : HostOs) (fix : String)
  | proofStale (os : HostOs) (archiveId reason fix : String)
  | proofMismatch (os : HostOs) (field : MismatchField) (expected found fix : String)
  | proofIncomplete (os : HostOs) (missing fix : String)
  | proofLayerMismatch (os : HostOs) (probe : String) (expectedLayer recordedLayer : ProbeLayer)
      (oracle : ProbeOracle) (fix : String)
deriving DecidableEq

def fixNoChild : String :=
  "Do not start a child and do not restart unsandboxed; keep requested=Strict or declare explicit Keld legacy."

/-! ## The checks -/

def rejectUnexpected (req : AdmissionRequest) (facts : HostFacts) : Except AdmissionError Unit := do
  require (!req.electronSandboxOff) (.unexpectedGrant facts.os "electron.appSandbox=off"
    "Declare the Keld profile key explicitly; Electron sandbox/appSandbox is not Strict or Legacy. Do not start.")
  require (!req.inheritFromHost) (.unexpectedGrant facts.os "inherit-from-host"
    "Sign a separate helper with its own App Sandbox; do not inherit keld-host. Do not start.")
  match facts.handleLeak with
  | some description => .error (.handleLeak description
      "Strip inherited handles to app-link + log sinks, then retry admission. Do not start.")
  | none => .ok ()

def requirePrimitives (facts : HostFacts) : Except AdmissionError Unit :=
  match facts.missingPrimitives.head? with
  | some primitive => .error (.primitiveUnavailable facts.os primitive fixNoChild)
  | none => .ok ()

def requireNonemptyArchive (os : HostOs) : Option ProofArchive → Except AdmissionError ProofArchive
  | some archive =>
    if archive.rows.isEmpty then .error (.proofMissing os fixNoChild) else .ok archive
  | none => .error (.proofMissing os fixNoChild)

def mismatch (os : HostOs) (field : MismatchField) (expected found : String) : AdmissionError :=
  .proofMismatch os field expected found fixNoChild

def hex32 (digest : Digest) : String := String.ofList (encodeLowerHex digest.bytes)

def matchIdentity (req : AdmissionRequest) (facts : HostFacts) (proof : ProofIdentity)
    (archive : ProofArchive) : Except AdmissionError Unit := do
  require (proof.os = facts.os) (mismatch facts.os .os facts.os.asStr proof.os.asStr)
  require (proof.artifactDigest = req.artifactDigest) (mismatch facts.os .artifactDigest
    (hex32 req.artifactDigest) (hex32 proof.artifactDigest))
  require (proof.profileDigest = req.profileDigest) (mismatch facts.os .profileDigest
    (hex32 req.profileDigest) (hex32 proof.profileDigest))
  require (proof.archiveId = archive.identity.archiveId) (mismatch facts.os .archiveId
    proof.archiveId archive.identity.archiveId)
  if archive.identity = proof then .ok ()
  else if archive.identity.artifactDigest ≠ proof.artifactDigest then
    .error (mismatch facts.os .artifactDigest (hex32 proof.artifactDigest)
      (hex32 archive.identity.artifactDigest))
  else if archive.identity.profileDigest ≠ proof.profileDigest then
    .error (mismatch facts.os .profileDigest (hex32 proof.profileDigest)
      (hex32 archive.identity.profileDigest))
  else .error (mismatch facts.os .os proof.os.asStr archive.identity.os.asStr)

def proofLayerMismatch (os : HostOs) (row : ProbeRecord) (expected : ProbeLayer) : AdmissionError :=
  .proofLayerMismatch os row.probe expected row.recordedLayer row.oracle fixNoChild

def layerMismatch (os : HostOs) : List ProbeRecord → Option AdmissionError
  | [] => none
  | row :: rows =>
    match expectedLayerFor row.probe with
    | none => layerMismatch os rows
    | some expected =>
      if row.expectedLayer ≠ expected ∨ row.recordedLayer ≠ expected then
        some (proofLayerMismatch os row expected)
      else if expected = .osContainment ∧ row.verdict = .pass ∧
          row.oracle.admitsOsContainmentPass = false then
        some (proofLayerMismatch os row .osContainment)
      else layerMismatch os rows

/-- The row shows that the probe was denied by the operating system. -/
def ProbeRecord.passes (row : ProbeRecord) (probe : String) : Bool :=
  row.probe = probe && row.verdict = .pass && row.recordedLayer = .osContainment &&
    row.oracle.admitsOsContainmentPass

def incompleteOsRows (rows : List ProbeRecord) : Option String :=
  let missing := osContainmentProbes.filter fun probe => !rows.any (·.passes probe)
  if missing.isEmpty then none else some (", ".intercalate missing)

def admitStrict (req : AdmissionRequest) (facts : HostFacts) (archive : Option ProofArchive) :
    Except AdmissionError ProfileState := do
  rejectUnexpected req facts
  requirePrimitives facts
  let proof ← orElseError req.proof (.proofMissing facts.os fixNoChild)
  let archive ← requireNonemptyArchive facts.os archive
  matchIdentity req facts proof archive
  require (facts.policyGeneration ≤ archive.policyGeneration) (.proofStale facts.os proof.archiveId
    "archive predates the current §4 policy generation" fixNoChild)
  match layerMismatch facts.os archive.rows with
  | some err => .error err
  | none =>
    match incompleteOsRows archive.rows with
    | some missing => .error (.proofIncomplete facts.os missing fixNoChild)
    | none => .ok .strict

/-- `admit`. -/
def admitRequest (req : AdmissionRequest) (facts : HostFacts) (archive : Option ProofArchive) :
    Except AdmissionError ProfileState :=
  match req.requested with
  | .unverified => .ok .unverified
  | .legacy => .ok .legacy
  | .strict => admitStrict req facts archive

/-! ## Rows -/

/-- What a row of a catalog probe has to record. -/
def ProbeRecord.Lawful (row : ProbeRecord) : Prop :=
  ∀ expected, expectedLayerFor row.probe = some expected →
    row.expectedLayer = expected ∧ row.recordedLayer = expected ∧
      (expected = .osContainment → row.verdict = .pass → row.oracle = .osDeny)

/-- Every probe of the catalog was denied by the operating system, in some row. -/
def Complete (rows : List ProbeRecord) : Prop :=
  ∀ probe ∈ osContainmentProbes, ∃ row ∈ rows, row.probe = probe ∧ row.verdict = .pass ∧
    row.recordedLayer = .osContainment ∧ row.oracle = .osDeny

variable {os : HostOs} {rows : List ProbeRecord}

theorem layerMismatch_eq_none : layerMismatch os rows = none ↔ ∀ row ∈ rows, row.Lawful := by
  induction rows with
  | nil => exact ⟨fun _ _ h => (not_mem_nil h).elim, fun _ => rfl⟩
  | cons row rows ih =>
    rw [forall_mem_cons, ← ih, layerMismatch, ProbeRecord.Lawful]
    cases hexp : expectedLayerFor row.probe with
    | none => exact (and_iff_right nofun).symm
    | some expected =>
      simp only [Option.some.injEq, forall_eq']
      split_ifs with hla hp
      · refine iff_of_false nofun ?_
        rintro ⟨⟨hexp, hre, -⟩, -⟩
        exact hla.elim (fun hne => hne hexp) fun hne => hne hre
      · refine iff_of_false nofun ?_
        rintro ⟨⟨-, -, hor⟩, -⟩
        have ha := hp.2.2
        rw [hor hp.1 hp.2.1] at ha
        cases ha
      · rw [not_or, not_not, not_not] at hla
        refine (and_iff_right ⟨hla.1, hla.2, fun hos hvdt => ?_⟩).symm
        by_contra hor
        exact hp ⟨hos, hvdt, decide_eq_false hor⟩

theorem incompleteOsRows_eq_none : incompleteOsRows rows = none ↔ Complete rows := by
  unfold incompleteOsRows Complete
  dsimp only
  split_ifs with hmi
  · refine iff_of_true rfl fun probe hpr => ?_
    have hany := filter_eq_nil_iff.mp (isEmpty_iff.mp hmi) probe hpr
    simpa [ProbeRecord.passes, ProbeOracle.admitsOsContainmentPass, and_assoc] using hany
  · refine iff_of_false nofun fun hco => hmi ?_
    rw [List.isEmpty_iff, filter_eq_nil_iff]
    intro probe hpr
    obtain ⟨row, hrow, hp⟩ := hco probe hpr
    have hany : rows.any (·.passes probe) = true := by
      refine any_eq_true.mpr ⟨row, hrow, ?_⟩
      simpa [ProbeRecord.passes, ProbeOracle.admitsOsContainmentPass, and_assoc] using hp
    rw [hany]
    decide

/-! ## Admission -/

variable {req : AdmissionRequest} {facts : HostFacts} {archive : ProofArchive}

/-- What is asked of everything but the rows. -/
structure Grounds (req : AdmissionRequest) (facts : HostFacts) (archive : ProofArchive) :
    Prop where
  ungranted : req.electronSandboxOff = false ∧ req.inheritFromHost = false
  unleaked : facts.handleLeak = none
  primitives : facts.missingPrimitives = []
  /-- the archive is the one that the request proves itself with -/
  proof : req.proof = some archive.identity
  os : archive.identity.os = facts.os
  artifactDigest : archive.identity.artifactDigest = req.artifactDigest
  profileDigest : archive.identity.profileDigest = req.profileDigest
  fresh : facts.policyGeneration ≤ archive.policyGeneration

theorem rejectUnexpected_ok : rejectUnexpected req facts = .ok () ↔
    (req.electronSandboxOff = false ∧ req.inheritFromHost = false) ∧ facts.handleLeak = none := by
  unfold rejectUnexpected
  rw [bind_unit_ok, bind_unit_ok, require_ok, require_ok]
  cases facts.handleLeak <;> simp

theorem requirePrimitives_ok : requirePrimitives facts = .ok () ↔ facts.missingPrimitives = [] := by
  unfold requirePrimitives
  cases facts.missingPrimitives <;> simp

theorem matchIdentity_ok {proof : ProofIdentity} : matchIdentity req facts proof archive = .ok () ↔
    archive.identity = proof ∧ proof.os = facts.os ∧ proof.artifactDigest = req.artifactDigest ∧
      proof.profileDigest = req.profileDigest := by
  unfold matchIdentity
  simp only [bind_unit_ok, require_ok, decide_eq_true_eq]
  constructor
  · rintro ⟨hos, har, hpr, -, h⟩
    split_ifs at h with hs
    exact ⟨hs, hos, har, hpr⟩
  · rintro ⟨rfl, hos, har, hpr⟩
    exact ⟨hos, har, hpr, rfl, if_pos rfl⟩

/-- With its grounds an archive is judged by its rows. -/
theorem admitStrict_of_grounds (h : Grounds req facts archive) :
    admitStrict req facts (some archive) =
      if archive.rows.isEmpty then .error (.proofMissing facts.os fixNoChild)
      else
        match layerMismatch facts.os archive.rows with
        | some err => .error err
        | none =>
          match incompleteOsRows archive.rows with
          | some missing => .error (.proofIncomplete facts.os missing fixNoChild)
          | none => .ok .strict := by
  have hma := matchIdentity_ok.mpr ⟨rfl, h.os, h.artifactDigest, h.profileDigest⟩
  unfold admitStrict
  rw [rejectUnexpected_ok.mpr ⟨h.ungranted, h.unleaked⟩, requirePrimitives_ok.mpr h.primitives,
    h.proof, requireNonemptyArchive]
  split_ifs with he
  · rfl
  · show (matchIdentity req facts archive.identity archive >>= fun _ =>
      require (facts.policyGeneration ≤ archive.policyGeneration) _ >>= fun _ => _) = _
    rw [hma, require_ok.mpr (decide_eq_true h.fresh)]
    rfl

theorem admitStrict_ok {archive : Option ProofArchive} {state : ProfileState} :
    admitStrict req facts archive = .ok state ↔
      state = .strict ∧ ∃ a, archive = some a ∧ Grounds req facts a ∧
        (∀ row ∈ a.rows, row.Lawful) ∧ Complete a.rows := by
  constructor
  · intro h
    obtain ⟨hun, h⟩ := bind_unit_ok.mp h
    obtain ⟨hpr, h⟩ := bind_unit_ok.mp h
    obtain ⟨proof, hpf, h⟩ := orElseError_bind_ok.mp h
    obtain ⟨a, ha, h⟩ := bind_ok.mp h
    obtain ⟨hid, h⟩ := bind_unit_ok.mp h
    obtain ⟨hf, h⟩ := bind_unit_ok.mp h
    obtain ⟨hug, hul⟩ := rejectUnexpected_ok.mp hun
    obtain ⟨hs, hos, har, hprof⟩ := matchIdentity_ok.mp hid
    rw [← hs] at hos har hprof hpf
    have hac : archive = some a := by
      cases archive with
      | none => cases ha
      | some other =>
        dsimp only [requireNonemptyArchive] at ha
        split_ifs at ha
        cases ha
        rfl
    cases hla : layerMismatch facts.os a.rows with
    | some err =>
      rw [hla] at h
      cases h
    | none =>
      rw [hla] at h
      cases hro : incompleteOsRows a.rows with
      | some missing =>
        rw [hro] at h
        cases h
      | none =>
        rw [hro] at h
        cases h
        exact ⟨rfl, a, hac, ⟨hug, hul, requirePrimitives_ok.mp hpr, hpf,
          hos, har, hprof, of_decide_eq_true (require_ok.mp hf)⟩,
          layerMismatch_eq_none.mp hla, incompleteOsRows_eq_none.mp hro⟩
  · rintro ⟨rfl, a, rfl, hgrd, hlaw, hco⟩
    obtain ⟨row, hrow, -⟩ := hco "direct_network" (by simp [osContainmentProbes])
    rw [admitStrict_of_grounds hgrd, layerMismatch_eq_none.mpr hlaw,
      incompleteOsRows_eq_none.mpr hco, if_neg]
    exact fun he => not_mem_nil (List.isEmpty_iff.mp he ▸ hrow)

/-- What admission says of a request on a host. -/
structure AdmissionLaw (req : AdmissionRequest) (facts : HostFacts) : Prop where
  /-- when a strict profile is admitted -/
  strict : ∀ archive, admitRequest req facts archive = .ok .strict ↔
    req.requested = .strict ∧ ∃ a, archive = some a ∧ Grounds req facts a ∧
      (∀ row ∈ a.rows, row.Lawful) ∧ Complete a.rows
  /-- more rows do not lift a refusal for a layer -/
  mismatched : ∀ archive os probe expected recorded oracle fix,
    admitRequest req facts (some archive) =
        .error (.proofLayerMismatch os probe expected recorded oracle fix) →
      ∀ rows, archive.rows ⊆ rows → ∀ state,
        admitRequest req facts (some { archive with rows := rows }) ≠ .ok state
  /-- neither the order of the rows counts nor how often they stand there -/
  rows : ∀ archive rows, (∀ row, row ∈ rows ↔ row ∈ archive.rows) → ∀ state,
    (admitRequest req facts (some { archive with rows := rows }) = .ok state ↔
      admitRequest req facts (some archive) = .ok state)

theorem admitRequest_law (req : AdmissionRequest) (facts : HostFacts) : AdmissionLaw req facts := by
  have hok : ∀ {archive state}, admitRequest req facts archive = .ok state ↔
      state = req.requested ∧ (req.requested = .strict → ∃ a, archive = some a ∧ Grounds req facts a ∧
        (∀ row ∈ a.rows, row.Lawful) ∧ Complete a.rows) := by
    intro archive state
    unfold admitRequest
    cases req.requested with
    | unverified | legacy =>
      exact ⟨fun h => ⟨(Except.ok.inj h).symm, nofun⟩, fun h => congrArg Except.ok h.1.symm⟩
    | strict =>
      exact admitStrict_ok.trans (and_congr_right fun _ => ⟨fun h _ => h, fun h => h rfl⟩)
  constructor
  case strict =>
    intro archive
    rw [hok]
    exact ⟨fun h => ⟨h.1.symm, h.2 h.1.symm⟩, fun h => ⟨h.1.symm, fun _ => h.2⟩⟩
  case mismatched =>
    intro archive os probe expected recorded oracle fix href rows hsu state hst
    have hre : req.requested = .strict := by
      unfold admitRequest at href
      cases hre : req.requested with
      | strict => rfl
      | unverified | legacy =>
        rw [hre] at href
        cases href
    obtain ⟨-, ha⟩ := hok.mp hst
    obtain ⟨_, ⟨⟩, hgrd, hlaw, -⟩ := ha hre
    have hgrd : Grounds req facts archive := { hgrd with }
    have hla : layerMismatch facts.os archive.rows = none :=
      layerMismatch_eq_none.mpr fun row hrow => hlaw row (hsu hrow)
    rw [admitRequest, hre] at href
    dsimp only at href
    rw [admitStrict_of_grounds hgrd, hla] at href
    split_ifs at href
    · cases href
    · dsimp only at href
      split at href <;> cases href
  case rows =>
    intro archive rows hs state
    have hlaw : (∀ row ∈ rows, row.Lawful) ↔ ∀ row ∈ archive.rows, row.Lawful :=
      forall_congr' fun row => imp_congr_left (hs row)
    have hco : Complete rows ↔ Complete archive.rows :=
      forall₂_congr fun probe _ => exists_congr fun row => and_congr_left fun _ => hs row
    rw [hok, hok]
    refine and_congr_right fun _ => forall_congr' fun _ => ?_
    constructor
    · rintro ⟨_, ⟨⟩, hgrd, hro, hpr⟩
      exact ⟨archive, rfl, { hgrd with }, hlaw.mp hro, hco.mp hpr⟩
    · rintro ⟨_, ⟨⟩, hgrd, hro, hpr⟩
      exact ⟨_, rfl, { hgrd with }, hlaw.mpr hro, hco.mpr hpr⟩

/-! A probe that has failed and passed. -/

def sampleIdentity : ProofIdentity := ⟨.linux, .zero 32, .zero 32, "archive"⟩

def sampleRequest : AdmissionRequest :=
  ⟨.strict, .zero 32, .zero 32, some sampleIdentity, false, false⟩

def failedRow : ProbeRecord :=
  ⟨"direct_network", .osContainment, .osContainment, .fail, .notOsDeny⟩

def sampleArchive : ProofArchive :=
  ⟨sampleIdentity, failedRow :: osContainmentProbes.map fun probe =>
    ⟨probe, .osContainment, .osContainment, .pass, .osDeny⟩, 1⟩

/-- A recorded failure of a probe does not refuse the archive that also has a pass of it. -/
theorem recorded_failure_admitted :
    admitRequest sampleRequest ⟨.linux, [], 1, none⟩ (some sampleArchive) = .ok .strict ∧
      failedRow ∈ sampleArchive.rows ∧ failedRow.probe ∈ osContainmentProbes ∧
        failedRow.verdict = .fail := by
  decide +kernel

end Keld.Guard.Admit
