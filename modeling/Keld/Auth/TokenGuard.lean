/-
# `Keld.Auth.TokenGuard` — a token request behind the guard

The broker is handed what the guard says of a token request.  Here the guard is
the real one: it judges the issuer of the account, or a resource that no account
has.  A denial is rendered without the resource, so a request for an account
whose issuer is not granted and one for an account that is not there are told
the same, whatever the registry holds.
-/
import Keld.Auth.Broker
import Keld.Guard.MatcherLaw
import Keld.Guard.Paths

namespace Keld.Auth

open Guard SessionRegistry

open Guard (PermissionsManifest Principal DenyReason dispatchPrivileged evaluate parseManifest)

def unresolvedResource : Text := '\x00' :: "unresolved".toList

inductive TokenDenial where
  | notGranted
  | outOfScope
deriving DecidableEq

namespace TokenDenial

/-- Of an error of the two kinds that can name the token capability, the code decides. -/
def byCode (capability : Text) (code : String) : Option TokenDenial :=
  if capability ≠ Guard.Capability.authToken then none
  else if code = "KELD-GUARD001" then some .notGranted
  else if code = "KELD-GUARD002" then some .outOfScope
  else none

def fromGuard (reason : DenyReason) : Option TokenDenial :=
  match reason with
  | .notGranted capability .. => byCode capability reason.code
  | .outOfScope capability .. => byCode capability reason.code
  | _ => none

def parts : TokenDenial → String × String
  | .notGranted =>
    ("KELD-GUARD001",
      "KELD-GUARD001: auth.token is not granted. Add the intended declared issuer to " ++
        "/app/auth/token in keld.permissions.jsonc.")
  | .outOfScope =>
    ("KELD-GUARD002",
      "KELD-GUARD002: auth.token is outside its grant. Add the intended declared issuer to " ++
        "/app/auth/token in keld.permissions.jsonc.")

def callError (denial : TokenDenial) : CallError where
  code := denial.parts.1
  message := denial.parts.2

end TokenDenial

/-- What the guard judges a token request by. -/
def SessionRegistry.tokenResource (r : SessionRegistry) (accountId : Text) : Text :=
  match r.issuerFor accountId with
  | some issuer => issuer.toList
  | none => unresolvedResource

/-- What the dispatcher makes of the decision; the broker runs on no Windows. -/
def tokenGuard (manifest : PermissionsManifest) (principal : Principal) (resource : Text) :
    TokenGuard :=
  match dispatchPrivileged .mac manifest principal Guard.Capability.authToken resource id with
  | .ok _ => .allowed
  | .error reason =>
    match TokenDenial.fromGuard reason with
    | some denial => .denied denial.callError
    | none => .unexpected

/-- What the host answers while a request is handled. -/
structure TokenAnswers where
  /-- Whether the manifest is the one the broker was prepared with. -/
  verified : Bool
  admits : Bool
  now : ℕ
  deadline : Option ℕ
  clientId : Except CallError Unit

/-- `handle_request`, for a token, behind the guard. -/
def AuthBroker.handleToken (b : AuthBroker) (manifest : PermissionsManifest) (principal : Principal)
    (accountId : Text) (scopes : Option (List Text)) (answers : TokenAnswers) :
    HandleState × AuthBroker :=
  b.token accountId scopes
    { verified := answers.verified
      guard := tokenGuard manifest principal (b.registry.tokenResource accountId)
      admits := answers.admits
      now := answers.now
      deadline := answers.deadline
      clientId := answers.clientId
      outOfScope := TokenDenial.outOfScope.callError }

/-! ## What is denied -/

/-- The guard allows the resource under no grant. -/
def NotAllowed (manifest : PermissionsManifest) (principal : Principal) (resource : Text) : Prop :=
  ∀ i, evaluate manifest principal Guard.Capability.authToken resource ≠ .allow i

variable {manifest : PermissionsManifest} {principal : Principal} {resource accountId : Text}
  {b : AuthBroker} {issuer : String}

/-- Only for files does the dispatcher look at the path itself. -/
theorem dispatchPrivileged_token :
    dispatchPrivileged .mac manifest principal Guard.Capability.authToken resource id =
      match evaluate manifest principal Guard.Capability.authToken resource with
      | .allow i => .ok i
      | .deny reason => .error reason := by
  have hv : filesystemDispatchPathIsValid .mac Guard.Capability.authToken resource = true := rfl
  unfold dispatchPrivileged
  cases evaluate manifest principal Guard.Capability.authToken resource with
  | allow i => simp [hv]
  | deny reason => cases reason <;> simp [hv]

theorem tokenGuard_ne_allowed (h : NotAllowed manifest principal resource) :
    tokenGuard manifest principal resource ≠ .allowed := by
  unfold tokenGuard
  rw [dispatchPrivileged_token]
  cases hdcn : evaluate manifest principal Guard.Capability.authToken resource with
  | allow i => exact absurd hdcn (h i)
  | deny reason =>
    dsimp only
    cases TokenDenial.fromGuard reason <;> nofun

/-- What is told of a resource that is not allowed says nothing of the resource. -/
theorem tokenGuard_denied {one other : Text} (hon : NotAllowed manifest principal one)
    (ho : NotAllowed manifest principal other) :
    tokenGuard manifest principal one = tokenGuard manifest principal other := by
  unfold tokenGuard
  rw [dispatchPrivileged_token, dispatchPrivileged_token]
  by_cases hpr : principal = .appProcess
  · subst hpr
    by_cases hgrs : ∃ grants, Guard.Grants manifest Guard.Capability.authToken grants
    · obtain ⟨grants, hgrs⟩ := hgrs
      have hde : ∀ {resource : Text}, NotAllowed manifest .appProcess resource →
          evaluate manifest .appProcess Guard.Capability.authToken resource =
            denyOutOfScope Guard.Capability.authToken resource (grants.map .string) := by
        intro resource hre
        have hdcn : evaluate manifest .appProcess Guard.Capability.authToken resource = _ :=
          evaluate_grants hgrs
        rw [hdcn]
        split
        · rfl
        · rename_i hdots
          rw [if_neg hdots] at hdcn
          split
          · rfl
          · rename_i i hfind
            rw [hfind] at hdcn
            exact absurd hdcn (hre i)
      rw [hde hon, hde ho]
      rfl
    · rw [evaluate_not_granted (not_exists.mp hgrs), evaluate_not_granted (not_exists.mp hgrs)]
      rfl
  · rw [evaluate_principal hpr, evaluate_principal hpr]

theorem hasGlob_append (root : Text) : hasGlob (root ++ globSuffix) = true := by
  induction root with
  | nil => rfl
  | cons c rest ih =>
    rw [List.cons_append]
    unfold hasGlob
    split
    · rfl
    · rename_i hc
      cases hc
      exact ih
    · rename_i hn
      cases hn

/-- No grant of an accepted manifest allows the resource that no account has. -/
theorem unresolved_not_allowed {reader : Guard.Reader} {text : String}
    (h : parseManifest reader text = .ok manifest) (principal : Principal) :
    NotAllowed manifest principal unresolvedResource := by
  intro i ha
  have hpr : principal = .appProcess := by
    by_contra hne
    rw [evaluate_principal hne] at ha
    cases ha
  subst hpr
  obtain ⟨grants, ⟨-, hnode⟩, -, ⟨pattern, hpat, hm⟩, -⟩ := evaluate_allow_iff.mp ha
  have hli := (parseManifest_literal h).2 (grants.map .string) (by rw [hnode]; rfl) pattern
    (by rw [filterMap_asStr]; exact List.mem_of_getElem? hpat)
  have hno : ∀ root, pattern ≠ root ++ globSuffix := by
    rintro root rfl
    rw [hasGlob_append] at hli
    cases hli.1
  rw [pathInScope_literal hno] at hm
  rw [← hm] at hli
  exact absurd (hli.2 '\x00' List.mem_cons_self) (by decide)

/-! ## What is answered -/

/-- The answer to a request whose resource is not allowed. -/
def refusal (manifest : PermissionsManifest) (principal : Principal) (verified : Bool) :
    HandleState :=
  if ¬ verified then .hostFault .snapshotMismatch
  else
    match tokenGuard manifest principal unresolvedResource with
    | .denied error => readyError error
    | _ => .hostFault .unexpectedTokenDenial

/-- A request that is not allowed is answered by the refusal, and changes nothing. -/
theorem handleToken_refused (hun : NotAllowed manifest principal unresolvedResource)
    (h : NotAllowed manifest principal (b.registry.tokenResource accountId))
    (scopes : Option (List Text)) (answers : TokenAnswers) :
    b.handleToken manifest principal accountId scopes answers =
      (refusal manifest principal answers.verified, b) := by
  unfold AuthBroker.handleToken AuthBroker.token refusal
  by_cases hve : answers.verified
  · rw [if_neg (not_not.mpr hve), if_neg (not_not.mpr hve), tokenGuard_denied h hun]
    cases hgu : tokenGuard manifest principal unresolvedResource with
    | allowed => exact absurd hgu (tokenGuard_ne_allowed hun)
    | denied | unexpected => rfl
  · rw [if_pos hve, if_pos hve]

theorem refusal_settled {verified : Bool} :
    (∀ operation leads, refusal manifest principal verified ≠ .pending operation leads) ∧
      ∀ response fault, refusal manifest principal verified ≠ .deniedInvariant response fault := by
  unfold refusal
  split
  · exact ⟨nofun, nofun⟩
  · split
    · exact ⟨nofun, nofun⟩
    · exact ⟨nofun, nofun⟩

/-- The registry plans nothing as unresolved for an account it has an issuer for. -/
theorem SessionRegistry.tokenRequest_resolved {A : Type} {r : SessionRegistry}
    (h : r.issuerFor accountId = some issuer) (scopes : Option (List Text)) (admitted : Option A)
    (now : ℕ) :
    (r.tokenRequest accountId scopes admitted now).1 ≠ .ok .unresolved := by
  unfold tokenRequest
  cases ha : r.accounts.get? accountId with
  | none =>
    rw [issuerFor, profileFor, ha] at h
    cases h
  | some account =>
    dsimp only
    split
    · nofun
    · split
      · nofun
      · nofun
      · split <;> nofun

theorem AuthBroker.tokenAllowed_resolved (h : b.registry.issuerFor accountId = some issuer)
    (scopes : Option (List Text)) (c : TokenChecks) (response : ReadyResponse) (fault : HostFault) :
    (b.tokenAllowed accountId scopes c).1 ≠ .deniedInvariant response fault := by
  have hp := tokenRequest_resolved h scopes (if c.admits then some () else none) c.now
  unfold tokenAllowed
  cases hreq : b.registry.tokenRequest accountId scopes
      (if c.admits then some () else none) c.now with
  | mk plan registry =>
    rw [hreq] at hp
    cases plan with
    | error fault => nofun
    | ok plan =>
      cases plan with
      | unresolved => exact absurd rfl hp
      | atCapacity | ready => nofun
      | inFlight flight =>
        dsimp only
        split <;> nofun
      | leader flight admission =>
        dsimp only
        split
        · nofun
        · split <;> nofun

/-- Under an accepted manifest no request reaches the branch of an unresolved account. -/
theorem handleToken_no_breach (hun : NotAllowed manifest principal unresolvedResource)
    (accountId : Text) (scopes : Option (List Text)) (answers : TokenAnswers)
    (response : ReadyResponse) (fault : HostFault) :
    (b.handleToken manifest principal accountId scopes answers).1 ≠
      .deniedInvariant response fault := by
  by_cases ha : NotAllowed manifest principal (b.registry.tokenResource accountId)
  · rw [handleToken_refused hun ha]
    exact refusal_settled.2 response fault
  · cases hiss : b.registry.issuerFor accountId with
    | none =>
      have hre : b.registry.tokenResource accountId = unresolvedResource := by
        rw [tokenResource, hiss]
      exact absurd (hre ▸ hun) ha
    | some issuer =>
      unfold AuthBroker.handleToken AuthBroker.token
      rw [hiss]
      split
      · nofun
      · split
        · nofun
        · nofun
        · rename_i hn
          cases hn
        · exact AuthBroker.tokenAllowed_resolved hiss _ _ response fault

/-- The account is there, under an issuer that the guard does not allow. -/
def Ungranted (b : AuthBroker) (manifest : PermissionsManifest) (principal : Principal)
    (accountId : Text) : Prop :=
  ∃ issuer : String, b.registry.issuerFor accountId = some issuer ∧
    NotAllowed manifest principal issuer.toList

/-- A request for an account without a grant is answered as one for no account at all: by one
answer that the registries have no part in, with nothing changed. -/
theorem no_account_oracle (reader : Guard.Reader) (text : String) (manifest : PermissionsManifest)
    (h : parseManifest reader text = .ok manifest) (principal : Principal) :
    (∀ verified : Bool, ∃ refused : HandleState,
      (∀ operation leads, refused ≠ .pending operation leads) ∧
      ∀ (b : AuthBroker) (accountId : Text) (scopes : Option (List Text)) (answers : TokenAnswers),
        answers.verified = verified →
        Ungranted b manifest principal accountId ∨ b.registry.issuerFor accountId = none →
        b.handleToken manifest principal accountId scopes answers = (refused, b)) ∧
    (∀ i, evaluate manifest principal Guard.Capability.authToken unresolvedResource ≠ .allow i) ∧
    (∀ (b : AuthBroker) (accountId : Text) (scopes : Option (List Text)) (answers : TokenAnswers)
      (response : ReadyResponse) (fault : HostFault),
      (b.handleToken manifest principal accountId scopes answers).1 ≠
        .deniedInvariant response fault) := by
  have hun := unresolved_not_allowed h principal
  refine ⟨?_, hun, fun b => handleToken_no_breach hun⟩
  intro verified
  refine ⟨refusal manifest principal verified, refusal_settled.1, ?_⟩
  rintro b accountId scopes answers rfl (⟨issuer, hiss, hden⟩ | hn)
  · refine handleToken_refused hun ?_ scopes answers
    rw [tokenResource, hiss]
    exact hden
  · refine handleToken_refused hun ?_ scopes answers
    rw [tokenResource, hn]
    exact hun

/-- A reader that finds the token capability granted to one issuer. -/
def issuerReader : Guard.Reader where
  document _ :=
    { value := .object [("app".toList, .object [("auth".toList, .object
        [("token".toList, .array [.string "https://issuer.test".toList] none)] none)] none)] none
      trailing := none }
  shape _ := ""

def issuerManifest : PermissionsManifest where
  app := [("auth".toList, .object
    [("token".toList, .array [.string "https://issuer.test".toList])])]

theorem no_account_oracle_issuer :
    (∃ refused : HandleState, ∀ (b : AuthBroker) (answers : TokenAnswers),
      answers.verified = true → b.registry.issuerFor [] = none →
      b.handleToken issuerManifest .appProcess [] none answers = (refused, b)) ∧
    evaluate issuerManifest .appProcess Guard.Capability.authToken unresolvedResource ≠ .allow 0 := by
  obtain ⟨href, hne, -⟩ :=
    no_account_oracle issuerReader "" issuerManifest (by rfl) .appProcess
  obtain ⟨refused, -, hs⟩ := href true
  exact ⟨⟨refused, fun b answers hve hn => hs b [] none answers hve (.inr hn)⟩,
    hne 0⟩

end Keld.Auth
