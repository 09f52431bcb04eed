/-
# `Keld.Update.Records` — artifacts, the activation journal and its admission

The local records of an installation (`records.rs`): the identity of an artifact, the
journal of one activation attempt, and what a record must meet before it is written.
Bytes appear only through their number: the lengths of the canonical encodings are
computed here, field by field, as a record over 64 KiB is refused.

`validateActivationJournal` is the one gate of the transaction.  `ValidJournal` is its
meaning; later proofs need three separations of it: the candidate is above the prior
floor, every recorded known-good is not, and the older known-good is strictly below the
newer one.
-/
import Mathlib.Data.Nat.Log
import Keld.Lib.Except
import Keld.Lib.SemVer
import Mathlib.Algebra.GroupWithZero.Nat

namespace Keld.Update

open List

open SemVer (Version)

/-! ## Refusals -/

/-- What a refusal of the activation transaction left behind. -/
inductive ActivationEffect where
  | protectedStateUnchanged
  | journalBoundRecoveryRequired
  | resolvedWithLeftovers
deriving DecidableEq, Repr

inductive UpdateError where
  | localRecordInvalid (detail : String)
  | baseline (step detail : String)
  | versionFloorInvalid
  | provenanceMismatch
  | activation (step : String) (effect : ActivationEffect) (detail : String)
deriving DecidableEq, Repr

/-- The failed step and its detail, for re-labelling under an enclosing refusal. -/
def UpdateError.stepAndDetail : UpdateError → String × String
  | .activation step _ detail | .baseline step detail => (step, detail)
  | .localRecordInvalid detail => ("local record", detail)
  | .versionFloorInvalid | .provenanceMismatch => ("update", "")

def invalid (detail : String) : UpdateError := .localRecordInvalid detail

/-! ## Artifacts -/

/-- Thirty-two bytes: a digest or a minted identity. -/
abbrev Digest : Type := BitVec 256

inductive Channel where
  | stable
  | beta
  | canary
deriving DecidableEq, Repr

def Channel.asStr : Channel → String
  | .stable => "stable"
  | .beta => "beta"
  | .canary => "canary"

structure ArtifactIdentity where
  appId : String
  channel : Channel
  target : String
  version : String
  contentBlake3 : Digest
deriving DecidableEq, Repr

def sameArtifactScope (left right : ArtifactIdentity) : Bool :=
  left.appId == right.appId && left.channel == right.channel && left.target == right.target

def isControl (c : Char) : Bool :=
  decide (c.toNat < 0x20) || (decide (0x7f ≤ c.toNat) && decide (c.toNat ≤ 0x9f))

def nonempty (text : String) : Except UpdateError Unit :=
  require (!text.toList.isEmpty && !text.toList.any isControl)
    (invalid "identity text must be nonempty and contain no control characters")

def strictVersion (text : String) : Except UpdateError Unit :=
  require (Version.parse text).isSome (invalid "version must be strict SemVer")

/-- The checks an artifact passes before it is written into any record. -/
def wireArtifact (identity : ArtifactIdentity) : Except UpdateError Unit := do
  nonempty identity.appId
  nonempty identity.target
  strictVersion identity.version

/-! ## Lengths of canonical encodings -/

def maxLocalRecordBytes : ℕ := 64 * 1024

/-- Number of UTF-8 bytes of a text. -/
def byteLength (text : String) : ℕ := (text.toList.map Char.utf8Size).sum

/-- A JSON string: its quotes, and a backslash before a quote or a backslash.  Control characters
never reach the encoder. -/
def jsonString (text : String) : ℕ :=
  2 + (text.toList.map fun c => if c = '"' ∨ c = '\\' then 2 else c.utf8Size).sum

/-- A JSON object with these keys and value lengths. -/
def jsonObject (fields : List (String × ℕ)) : ℕ :=
  1 + (fields.map fun field => byteLength field.1 + 3 + field.2 + 1).sum

/-- A digest in hexadecimal, between quotes. -/
def jsonDigest : ℕ := 66

/-- A 64-bit value as sixteen hexadecimal digits, between quotes. -/
def jsonH16 : ℕ := 18

def artifactLength (identity : ArtifactIdentity) : ℕ :=
  jsonObject [("app_id", jsonString identity.appId), ("channel", jsonString identity.channel.asStr),
    ("target", jsonString identity.target), ("version", jsonString identity.version),
    ("content_blake3", jsonDigest)]

/-- Refuses a record whose encoding has this length. -/
def encodeLength (length : ℕ) : Except UpdateError Unit :=
  require (decide (length ≤ maxLocalRecordBytes)) (invalid "record exceeds 64 KiB")

def encodeFloor (version : String) : Except UpdateError Unit := do
  strictVersion version
  encodeLength (jsonObject [("schema", jsonString "keld.version-floor/v1"),
    ("version", jsonString version)])

inductive PointerKind where
  | current
  | lastKnownGood
  | previousKnownGood
deriving DecidableEq, Repr

def PointerKind.schema : PointerKind → String
  | .current => "keld.current/v1"
  | .lastKnownGood => "keld.last-known-good/v1"
  | .previousKnownGood => "keld.previous-known-good/v1"

def encodePointer (kind : PointerKind) (identity : ArtifactIdentity) : Except UpdateError Unit := do
  wireArtifact identity
  encodeLength (jsonObject [("schema", jsonString kind.schema),
    ("artifact", artifactLength identity)])

/-! ## The activation journal -/

structure InitiatingLogon where
  authenticationId : ℕ
  logonTime : ℤ
deriving DecidableEq, Repr

structure AttemptOwner where
  ownerProcessId : UInt32
  ownerCreationTime : ℕ
deriving DecidableEq, Repr

structure AttemptOwnership where
  initiatingLogon : InitiatingLogon
  attemptOwner : AttemptOwner
deriving DecidableEq, Repr

inductive ActivationFailureClass where
  | candidateLaunch
  | healthRejected
  | healthTimeout
  | processCrash
deriving DecidableEq, Repr

def ActivationFailureClass.asStr : ActivationFailureClass → String
  | .candidateLaunch => "candidate-launch"
  | .healthRejected => "health-rejected"
  | .healthTimeout => "health-timeout"
  | .processCrash => "process-crash"

inductive ActivationPhase where
  | publishPending
  | awaitingHealth
  | healthAccepted (healthReceiptDigest : Digest)
  | rollbackPending (failure : ActivationFailureClass)
deriving DecidableEq, Repr

structure ActivationJournal where
  attemptId : Digest
  candidate : ArtifactIdentity
  rollbackTarget : ArtifactIdentity
  priorFloor : String
  priorLastKnownGood : ArtifactIdentity
  priorPreviousKnownGood : Option ArtifactIdentity
  helperImageBlake3 : Digest
  healthChannelId : Digest
  lifecycleChannelId : Digest
  ownership : Option AttemptOwnership
  phase : ActivationPhase
deriving DecidableEq, Repr

def validateAttemptOwnership (ownership : AttemptOwnership) : Except UpdateError Unit := do
  require (ownership.attemptOwner.ownerProcessId != 0)
    (invalid "attempt owner process ID must be in 1..=4294967295")
  require (ownership.attemptOwner.ownerCreationTime != 0)
    (invalid "attempt owner creation time must be nonzero")
  require (ownership.initiatingLogon.authenticationId != 0)
    (invalid "initiating logon authentication ID must be nonzero")
  require (decide (0 < ownership.initiatingLogon.logonTime))
    (invalid "initiating logon time must be positive")

/-- The artifacts a journal records as known good. -/
def ActivationJournal.knownGood (journal : ActivationJournal) : List ArtifactIdentity :=
  [journal.rollbackTarget, journal.priorLastKnownGood] ++ journal.priorPreviousKnownGood.toList

/-- The floor of the prior context covers a recorded known-good. -/
def coveredByFloor (priorFloor : Version) (identity : ArtifactIdentity) :
    Except UpdateError Unit := do
  let version ← orElseError (Version.parse identity.version)
    (invalid "known-good artifacts must carry strict SemVer")
  require (version.cmpPrecedence priorFloor != .gt)
    (invalid "prior floor must cover every recorded known-good artifact")

/-- The checks of the older known-good of a journal. -/
def validatePrevious (journal : ActivationJournal) (previous : ArtifactIdentity) :
    Except UpdateError Unit := do
  wireArtifact previous
  require (sameArtifactScope journal.candidate previous && previous != journal.priorLastKnownGood)
    (invalid "previous known-good artifact has mixed or duplicate scope")
  let previousVersion ← orElseError (Version.parse previous.version)
    (invalid "previous known-good artifact must carry strict SemVer")
  let lastKnownGoodVersion ← orElseError (Version.parse journal.priorLastKnownGood.version)
    (invalid "last-known-good artifact must carry strict SemVer")
  require (previousVersion.cmpPrecedence lastKnownGoodVersion == .lt)
    (invalid "previous known-good artifact must be older than prior last-known-good")

def validateActivationJournal (journal : ActivationJournal) : Except UpdateError Unit := do
  require (journal.lifecycleChannelId != journal.attemptId &&
      journal.lifecycleChannelId != journal.healthChannelId)
    (invalid
      "lifecycle keeper channel must be fresh and distinct from attempt and health identities")
  strictVersion journal.priorFloor
  let priorFloor ← orElseError (Version.parse journal.priorFloor)
    (invalid "prior floor must be strict SemVer")
  let candidateVersion ← orElseError (Version.parse journal.candidate.version)
    (invalid "candidate version must be strict SemVer")
  require (candidateVersion.cmpPrecedence priorFloor == .gt)
    (invalid "candidate must advance the exact prior trust floor")
  journal.knownGood.forM (coveredByFloor priorFloor)
  [journal.candidate, journal.rollbackTarget, journal.priorLastKnownGood].forM fun identity => do
    wireArtifact identity
    require (sameArtifactScope journal.candidate identity)
      (invalid "journal artifacts differ in app/channel/target scope")
  journal.priorPreviousKnownGood.toList.forM (validatePrevious journal)
  require (journal.rollbackTarget == journal.priorLastKnownGood ||
      journal.priorPreviousKnownGood == some journal.rollbackTarget)
    (invalid "rollback target is not a recorded known-good artifact")
  journal.ownership.toList.forM validateAttemptOwnership

def phaseLength : ActivationPhase → ℕ
  | .publishPending => jsonObject [("phase", jsonString "publish-pending")]
  | .awaitingHealth => jsonObject [("phase", jsonString "awaiting-health")]
  | .healthAccepted _ =>
    jsonObject [("phase", jsonString "health-accepted"), ("health_receipt_digest", jsonDigest)]
  | .rollbackPending failure =>
    jsonObject [("phase", jsonString "rollback-pending"), ("failure", jsonString failure.asStr)]

/-- The two owner fields, present exactly in a v2 record. -/
def ownershipFields : Option AttemptOwnership → List (String × ℕ)
  | none => []
  | some ownership =>
    [("initiating_logon",
        jsonObject [("authentication_id", jsonH16), ("logon_time", jsonH16)]),
      ("attempt_owner",
        jsonObject [("owner_process_id",
            Nat.log 10 ownership.attemptOwner.ownerProcessId.toNat + 1),
          ("owner_creation_time", jsonH16)])]

def journalSchema : Option AttemptOwnership → String
  | none => "keld.activation-journal/v1"
  | some _ => "keld.activation-journal/v2"

def journalLength (journal : ActivationJournal) : ℕ :=
  jsonObject ([("schema", jsonString (journalSchema journal.ownership)),
    ("attempt_id", jsonDigest), ("candidate", artifactLength journal.candidate),
    ("rollback_target", artifactLength journal.rollbackTarget),
    ("prior_floor", jsonString journal.priorFloor),
    ("prior_last_known_good", artifactLength journal.priorLastKnownGood),
    ("prior_previous_known_good",
      match journal.priorPreviousKnownGood with
      | some previous => artifactLength previous
      | none => byteLength "null"),
    ("helper_image_blake3", jsonDigest), ("health_channel_id", jsonDigest),
    ("lifecycle_channel_id", jsonDigest)] ++
    ownershipFields journal.ownership ++ [("phase", phaseLength journal.phase)])

def encodeActivationJournal (journal : ActivationJournal) : Except UpdateError Unit := do
  validateActivationJournal journal
  encodeLength (journalLength journal)

/-- The digest of one exact health receipt.  `blake3` is the hash of the receipt domain, the two
identities and the canonical artifact. -/
def activationHealthReceiptDigest (blake3 : Digest → Digest → ArtifactIdentity → Digest)
    (attemptId healthChannelId : Digest) (candidate : ArtifactIdentity) :
    Except UpdateError Digest := do
  wireArtifact candidate
  encodeLength (artifactLength candidate)
  pure (blake3 attemptId healthChannelId candidate)

/-! ## What a valid journal says -/

variable {a : ArtifactIdentity} {j : ActivationJournal}

theorem wireArtifact_version (h : wireArtifact a = .ok ()) :
    ∃ v, Version.parse a.version = some v := by
  obtain ⟨-, h⟩ := bind_unit_ok.mp h
  obtain ⟨-, h⟩ := bind_unit_ok.mp h
  exact Option.isSome_iff_exists.mp (require_ok.mp h)

/-- The facts of a journal that no later write of its attempt changes. -/
structure ValidContext (j : ActivationJournal) : Prop where
  floors : ∃ floor version, Version.parse j.priorFloor = some floor ∧
    Version.parse j.candidate.version = some version ∧ floor.precedence < version.precedence ∧
    ∀ a ∈ j.knownGood, ∃ v, Version.parse a.version = some v ∧ v.precedence ≤ floor.precedence
  wire : ∀ a ∈ j.candidate :: j.knownGood, wireArtifact a = .ok ()
  scope : ∀ a ∈ j.candidate :: j.knownGood, sameArtifactScope j.candidate a = true
  previous : ∀ a ∈ j.priorPreviousKnownGood, a ≠ j.priorLastKnownGood ∧
    ∃ v w, Version.parse a.version = some v ∧ Version.parse j.priorLastKnownGood.version = some w ∧
      v.precedence < w.precedence
  rollback : j.rollbackTarget = j.priorLastKnownGood ∨
    j.priorPreviousKnownGood = some j.rollbackTarget

/-- The identities of the current owner of the attempt. -/
structure ValidOwner (j : ActivationJournal) : Prop where
  lifecycle_ne_attempt : j.lifecycleChannelId ≠ j.attemptId
  lifecycle_ne_health : j.lifecycleChannelId ≠ j.healthChannelId
  ownership : ∀ o ∈ j.ownership, validateAttemptOwnership o = .ok ()

theorem validatePrevious_ok :
    validatePrevious j a = .ok () ↔
      wireArtifact a = .ok () ∧ sameArtifactScope j.candidate a = true ∧
      a ≠ j.priorLastKnownGood ∧
      ∃ v w, Version.parse a.version = some v ∧
        Version.parse j.priorLastKnownGood.version = some w ∧ v.precedence < w.precedence := by
  unfold validatePrevious
  simp only [bind_unit_ok, orElseError_bind_ok, require_ok, Bool.and_eq_true, bne_iff_ne,
    beq_iff_eq, SemVer.cmpPrecedence_eq_lt]
  constructor
  · rintro ⟨h1, ⟨h2, h3⟩, v, hv, w, hw, hlt⟩
    exact ⟨h1, h2, h3, v, w, hv, hw, hlt⟩
  · rintro ⟨h1, h2, h3, v, w, hv, hw, hlt⟩
    exact ⟨h1, ⟨h2, h3⟩, v, hv, w, hw, hlt⟩

theorem coveredByFloor_ok {floor : Version} :
    coveredByFloor floor a = .ok () ↔
      ∃ v, Version.parse a.version = some v ∧ v.precedence ≤ floor.precedence := by
  unfold coveredByFloor
  simp only [orElseError_bind_ok, require_ok, bne_iff_ne, SemVer.cmpPrecedence_ne_gt]

theorem validateActivationJournal_ok :
    validateActivationJournal j = .ok () ↔ ValidContext j ∧ ValidOwner j := by
  unfold validateActivationJournal
  simp only [bind_unit_ok, orElseError_bind_ok, require_ok, Bool.and_eq_true, bne_iff_ne,
    beq_iff_eq, SemVer.cmpPrecedence_eq_gt, forM_ok, coveredByFloor_ok, Bool.or_eq_true]
  constructor
  · rintro ⟨⟨hl1, hl2⟩, -, floor, hf, version, hver, hlt, hco, hth, hpr, hro, hown⟩
    refine ⟨⟨⟨floor, version, hf, hver, hlt, hco⟩, ?_, ?_, ?_, hro⟩,
      ⟨hl1, hl2, fun o ho => hown o (Option.mem_toList.mpr ho)⟩⟩
    · intro a ha
      simp only [ActivationJournal.knownGood, mem_cons, mem_append, not_mem_nil, or_false] at ha
      rcases ha with rfl | (rfl | rfl) | ha
      · exact (hth _ (by simp)).1
      · exact (hth _ (by simp)).1
      · exact (hth _ (by simp)).1
      · exact (validatePrevious_ok.mp (hpr a ha)).1
    · intro a ha
      simp only [ActivationJournal.knownGood, mem_cons, mem_append, not_mem_nil, or_false] at ha
      rcases ha with rfl | (rfl | rfl) | ha
      · exact (hth _ (by simp)).2
      · exact (hth _ (by simp)).2
      · exact (hth _ (by simp)).2
      · exact (validatePrevious_ok.mp (hpr a ha)).2.1
    · intro a ha
      exact (validatePrevious_ok.mp (hpr a (Option.mem_toList.mpr ha))).2.2
  · rintro ⟨⟨⟨floor, version, hf, hver, hlt, hco⟩, hwi, hsc, hpr, hro⟩, ⟨hl1, hl2, hown⟩⟩
    refine ⟨⟨hl1, hl2⟩, ?_, floor, hf, version, hver, hlt, hco, ?_, ?_, hro,
      fun o ho => hown o (Option.mem_toList.mp ho)⟩
    · exact require_ok.mpr (by simp [hf])
    · intro a ha
      have hm : a ∈ j.candidate :: j.knownGood := by
        simp only [mem_cons, not_mem_nil, or_false] at ha
        rcases ha with rfl | rfl | rfl <;> simp [ActivationJournal.knownGood]
      exact ⟨hwi a hm, hsc a hm⟩
    · intro a ha
      have hm : a ∈ j.candidate :: j.knownGood := by simp [ActivationJournal.knownGood, ha]
      obtain ⟨hne, hlt⟩ := hpr a (Option.mem_toList.mp ha)
      exact validatePrevious_ok.mpr ⟨hwi a hm, hsc a hm, hne, hlt⟩

/-! ## Records of bounded texts fit

The application id and the target come from the signed build identity, which holds them to 255
and 64 bytes; a version is the name of a directory. -/

/-- The texts of an artifact are within their bounds. -/
structure Bounded (a : ArtifactIdentity) : Prop where
  appId : byteLength a.appId ≤ 255
  target : byteLength a.target ≤ 64
  version : byteLength a.version ≤ 255

/-- The texts of a journal are within their bounds. -/
structure BoundedJournal (j : ActivationJournal) : Prop where
  artifact : ∀ a ∈ j.candidate :: j.knownGood, Bounded a
  floor : byteLength j.priorFloor ≤ 255

theorem jsonString_le (text : String) : jsonString text ≤ 2 + 2 * byteLength text := by
  have hsum : ∀ l : List Char, (l.map fun c => if c = '"' ∨ c = '\\' then 2 else c.utf8Size).sum ≤
        2 * (l.map Char.utf8Size).sum := by
    intro l
    induction l with
    | nil => simp
    | cons c l ih =>
      have hpos := c.utf8Size_pos
      simp only [map_cons, sum_cons]
      split_ifs <;> omega
  have := hsum text.toList
  unfold jsonString byteLength
  omega

theorem channel_length (c : Channel) : byteLength c.asStr ≤ 6 := by
  cases c <;> decide

theorem artifactLength_le (h : Bounded a) : artifactLength a ≤ 1400 := by
  have h1 := jsonString_le a.appId
  have h2 := jsonString_le a.target
  have h3 := jsonString_le a.version
  have h4 := jsonString_le a.channel.asStr
  have h5 := channel_length a.channel
  have h6 := h.appId
  have h7 := h.target
  have h8 := h.version
  have hke : byteLength "app_id" = 6 ∧ byteLength "channel" = 7 ∧ byteLength "target" = 6 ∧
      byteLength "version" = 7 ∧ byteLength "content_blake3" = 14 := by decide
  obtain ⟨k1, k2, k3, k4, k5⟩ := hke
  simp only [artifactLength, jsonObject, jsonDigest, map_cons, map_nil, sum_cons,
    sum_nil, k1, k2, k3, k4, k5]
  omega

theorem phaseLength_le (phase : ActivationPhase) : phaseLength phase ≤ 200 := by
  cases phase with
  | publishPending | awaitingHealth => decide
  | healthAccepted digest =>
    change jsonObject [("phase", jsonString "health-accepted"),
      ("health_receipt_digest", jsonDigest)] ≤ 200
    decide
  | rollbackPending failure => cases failure <;> decide

theorem ownershipFields_le (ownership : Option AttemptOwnership) :
    jsonObject (ownershipFields ownership) ≤ 300 := by
  cases ownership with
  | none => decide
  | some ownership =>
    have hl : Nat.log 10 ownership.attemptOwner.ownerProcessId.toNat < 10 := by
      refine Nat.log_lt_of_lt_pow' (by decide) ?_
      have := ownership.attemptOwner.ownerProcessId.toNat_lt
      omega
    have hke : byteLength "initiating_logon" = 16 ∧ byteLength "attempt_owner" = 13 ∧
        byteLength "authentication_id" = 17 ∧ byteLength "logon_time" = 10 ∧
        byteLength "owner_process_id" = 16 ∧ byteLength "owner_creation_time" = 19 := by decide
    obtain ⟨k1, k2, k3, k4, k5, k6⟩ := hke
    simp only [ownershipFields, jsonObject, jsonH16, map_cons, map_nil, sum_cons,
      sum_nil, k1, k2, k3, k4, k5, k6]
    omega

theorem journalLength_le (h : BoundedJournal j) : journalLength j ≤ maxLocalRecordBytes := by
  have hca := artifactLength_le (h.artifact j.candidate (by simp))
  have htgt := artifactLength_le
    (h.artifact j.rollbackTarget (by simp [ActivationJournal.knownGood]))
  have hgo := artifactLength_le
    (h.artifact j.priorLastKnownGood (by simp [ActivationJournal.knownGood]))
  have hpr : (match j.priorPreviousKnownGood with
      | some previous => artifactLength previous
      | none => byteLength "null") ≤ 1400 := by
    cases hp : j.priorPreviousKnownGood with
    | none => decide
    | some previous =>
      exact artifactLength_le (h.artifact previous (by simp [ActivationJournal.knownGood, hp]))
  have hf := jsonString_le j.priorFloor
  have hf' := h.floor
  have hsc : jsonString (journalSchema j.ownership) = 28 := by
    cases j.ownership with
    | none => decide
    | some _ =>
      change jsonString "keld.activation-journal/v2" = 28
      decide
  have hph := phaseLength_le j.phase
  have ho := ownershipFields_le j.ownership
  have hke : byteLength "schema" = 6 ∧ byteLength "attempt_id" = 10 ∧
      byteLength "candidate" = 9 ∧ byteLength "rollback_target" = 15 ∧
      byteLength "prior_floor" = 11 ∧ byteLength "prior_last_known_good" = 21 ∧
      byteLength "prior_previous_known_good" = 25 ∧ byteLength "helper_image_blake3" = 19 ∧
      byteLength "health_channel_id" = 17 ∧ byteLength "lifecycle_channel_id" = 20 ∧
      byteLength "phase" = 5 := by decide
  obtain ⟨k1, k2, k3, k4, k5, k6, k7, k8, k9, k10, k11⟩ := hke
  simp only [journalLength, jsonObject, jsonDigest, map_append, map_cons, map_nil,
    sum_append, sum_cons, sum_nil, k1, k2, k3, k4, k5, k6, k7, k8, k9, k10, k11,
    hsc, maxLocalRecordBytes] at ho ⊢
  omega

theorem encodeActivationJournal_ok (h : BoundedJournal j) :
    encodeActivationJournal j = .ok () ↔ ValidContext j ∧ ValidOwner j := by
  unfold encodeActivationJournal
  rw [bind_unit_ok, validateActivationJournal_ok]
  simp [encodeLength, journalLength_le h]

theorem encodePointer_ok (kind : PointerKind) (h : Bounded a) (hw : wireArtifact a = .ok ()) :
    encodePointer kind a = .ok () := by
  have hl := artifactLength_le h
  have hsc : jsonString kind.schema ≤ 40 := by
    cases kind <;> decide
  have hke : byteLength "schema" = 6 ∧ byteLength "artifact" = 8 := by decide
  obtain ⟨k1, k2⟩ := hke
  refine bind_unit_ok.mpr ⟨hw, require_ok.mpr (decide_eq_true ?_)⟩
  simp only [jsonObject, map_cons, map_nil, sum_cons, sum_nil, k1, k2, maxLocalRecordBytes]
  omega

theorem encodeFloor_ok (h : Bounded a) (hw : wireArtifact a = .ok ()) :
    encodeFloor a.version = .ok () := by
  obtain ⟨v, hv⟩ := wireArtifact_version hw
  have hl := jsonString_le a.version
  have hb := h.version
  have hke : byteLength "schema" = 6 ∧ byteLength "version" = 7 ∧
      jsonString "keld.version-floor/v1" = 23 := by decide
  obtain ⟨k1, k2, k3⟩ := hke
  refine bind_unit_ok.mpr ⟨require_ok.mpr (by simp [hv]), require_ok.mpr (decide_eq_true ?_)⟩
  simp only [jsonObject, map_cons, map_nil, sum_cons, sum_nil, k1, k2, k3, maxLocalRecordBytes]
  omega

theorem receiptDigest_ok (blake3 : Digest → Digest → ArtifactIdentity → Digest)
    (attemptId healthChannelId : Digest) (h : Bounded a) (hw : wireArtifact a = .ok ()) :
    activationHealthReceiptDigest blake3 attemptId healthChannelId a =
      .ok (blake3 attemptId healthChannelId a) := by
  have hl := artifactLength_le h
  have hf : encodeLength (artifactLength a) = .ok () :=
    require_ok.mpr (decide_eq_true (by unfold maxLocalRecordBytes; omega))
  exact bind_unit_ok.mpr ⟨hw, bind_unit_ok.mpr ⟨hf, rfl⟩⟩

end Keld.Update
