/-
# `Keld.Auth.Registry` — the accounts and token flights of a session

A flight is one exchange of an account's refresh credential for an access token,
known by its serial number and filed under the canonical form of the scopes that
were asked for.  `refreshOwner` is the one flight of an account whose exchange
is under way.  An operation returns what it emits together with the registry it
leaves; the clock is an argument where the source reads it.
-/
import Keld.Lib.Hex
import Keld.Lib.OrdMap
import Mathlib.Data.Char
import Mathlib.Data.List.Lex
import Mathlib.Data.List.Sort

namespace Keld.Auth

abbrev Text := List Char

structure CallError where
  code : String
  message : String
deriving DecidableEq

inductive StateFault where
  | stopping
  | counterExhausted
  | unknownProfile
  | invalidReceiptClock
  | expiryOverflow
  | emptyCredential
  | expiredAccess
  | missingRefreshCredential
deriving DecidableEq

namespace StateFault

def code : StateFault → String
  | .emptyCredential => "KELD-AUTH-013"
  | _ => "KELD-AUTH-016"

def condition : StateFault → String
  | .stopping => "the host is ending this auth session"
  | .counterExhausted => "host token identity space is exhausted"
  | .unknownProfile => "the completed flow has no compiled-in profile"
  | .invalidReceiptClock => "token receipt predates the UNIX epoch"
  | .expiryOverflow => "token expiry cannot be represented"
  | .emptyCredential => "the exchange returned an empty access credential or token type"
  | .expiredAccess => "the returned access token is no longer fresh"
  | .missingRefreshCredential => "the host has no refresh credential"

def fix : StateFault → String
  | .stopping =>
    "Wait for shutdown to finish, restart the host, then start a fresh user-initiated auth.begin"
  | .counterExhausted =>
    "Restart the host to restore local identity capacity before starting a fresh " ++
      "user-initiated auth.begin"
  | .unknownProfile =>
    "Correct host completed-flow/profile binding before starting a fresh user-initiated auth.begin"
  | .invalidReceiptClock =>
    "Restore a valid host receipt clock before starting a fresh user-initiated auth.begin"
  | .expiryOverflow =>
    "Correct token expiry input or the host receipt clock before starting a fresh " ++
      "user-initiated auth.begin"
  | .emptyCredential =>
    "Resolve the token exchange response failure before starting a fresh user-initiated auth.begin"
  | .expiredAccess => "Request a fresh token explicitly"
  | .missingRefreshCredential =>
    "Start a fresh user-initiated auth.begin if interaction is still needed"

def wireError (fault : StateFault) : CallError where
  code := fault.code
  message := fault.code ++ ": " ++ fault.condition ++ ". " ++ fault.fix ++
    "; do not automatically retry a consumed exchange."

end StateFault

/-! ## Scopes -/

/-- `Vec::dedup`: of equal neighbours the first. -/
def dedup {α : Type*} [DecidableEq α] : List α → List α
  | [] => []
  | [a] => [a]
  | a :: b :: l => if a = b then dedup (b :: l) else a :: dedup (b :: l)

abbrev ScopeKey := List Text

/-- `ScopeKey::new`. -/
def scopeKey (scopes : Option (List Text)) : ScopeKey :=
  dedup ((scopes.getD []).insertionSort (· ≤ ·))

/-! ## The registry -/

structure AccessToken where
  access : Text
  tokenType : Text
  expiresAt : ℕ
  freshUntil : ℕ
deriving DecidableEq

def AccessToken.freshAt (token : AccessToken) (now : ℕ) : Bool := now < token.freshUntil

/-- `SharedOutcome`. -/
abbrev TokenOutcome := Except CallError AccessToken

structure ProviderProfile where
  key : String
  issuer : String
deriving DecidableEq

def providerProfiles : List ProviderProfile :=
  [{ key := "entra-common", issuer := "https://login.microsoftonline.com/common" }]

def providerProfile (key : String) : Option ProviderProfile :=
  providerProfiles.find? fun profile => profile.key = key

structure FlightId where
  accountId : Text
  serial : ℕ
deriving DecidableEq

inductive Phase where
  | awaitingRefresh
  | active
deriving DecidableEq

structure Flight where
  serial : ℕ
  requestedScopes : Option (List Text)
  phase : Phase

structure Account where
  profile : ProviderProfile
  refresh : Option Text
  cached : Option (ScopeKey × TokenOutcome)
  flights : OrdMap ScopeKey Flight
  refreshOwner : Option ℕ

structure SessionRegistry where
  accounts : OrdMap Text Account := .empty
  nextAccount : ℕ := 0
  nextFlight : ℕ := 0
  stopping : Bool := false

inductive AuthResponse where
  | begin (accountId : Text) (grantedScopes : List Text)
  | token (accessToken : Text) (expiresAt : ℕ) (tokenType : Text)

inductive TokenPlan (A : Type) where
  | unresolved
  | atCapacity
  | ready (outcome : TokenOutcome)
  | inFlight (flight : FlightId)
  | leader (flight : FlightId) (admission : A)

structure Completion where
  flight : FlightId
  result : TokenOutcome

structure ExchangeInput where
  profile : ProviderProfile
  refresh : Text
  requestedScopes : Option (List Text)

inductive StartState where
  | waitingForRefresh
  | started (input : ExchangeInput)
  | alreadyStarted
  | completed (completion : Completion)
  | retired

inductive ExchangeFailure where
  | failed (error : CallError)
  | invalidGrant (error : CallError)

/-- The counters are 64 bits wide. -/
def checkedSucc (n : ℕ) : Option ℕ := if n + 1 < 2 ^ 64 then some (n + 1) else none

namespace Account

def currentKey (account : Account) (serial : ℕ) : Option ScopeKey :=
  (account.flights.find? fun flight => flight.serial = serial).map Prod.fst

def removeFlight (account : Account) (key : ScopeKey) (serial : ℕ) : Account :=
  { account with
    flights := account.flights.erase key
    refreshOwner := if account.refreshOwner = some serial then none else account.refreshOwner }

/-- Whether the flight under `key` is the one whose exchange is under way. -/
def ownsRefresh (account : Account) (key : ScopeKey) (serial : ℕ) : Bool :=
  account.refreshOwner = some serial &&
    (account.flights.get? key).any fun flight => flight.phase = .active

/-- The flights in the order in which they are completed together. -/
def flightIds (account : Account) (accountId : Text) : List FlightId :=
  account.flights.values.map fun flight => ⟨accountId, flight.serial⟩

end Account

/-- `{:016x}`. -/
def hex16 (n : ℕ) : Text := encodeLowerHex ((leBytes 8 n).reverse)

def accountIdOf (entropy : List Byte) (serial : ℕ) : Text :=
  encodeLowerHex entropy ++ '-' :: hex16 serial

namespace SessionRegistry

def setAccount (r : SessionRegistry) (accountId : Text) (account : Account) : SessionRegistry :=
  { r with accounts := r.accounts.set accountId account }

def registerCompletedBegin (r : SessionRegistry) (profileKey : String) (entropy : List Byte)
    (refreshToken : Option Text) (requestedScopes : Option (List Text))
    (initialAccess : Option AccessToken) (grantedScopes : List Text) (now : ℕ) :
    Except StateFault AuthResponse × SessionRegistry :=
  if r.stopping then (.error .stopping, r)
  else
    match providerProfile profileKey with
    | none => (.error .unknownProfile, r)
    | some profile =>
      match checkedSucc r.nextAccount with
      | none => (.error .counterExhausted, r)
      | some nextAccount =>
        let accountId := accountIdOf entropy nextAccount
        let account : Account :=
          { profile := profile
            refresh := refreshToken
            cached := (initialAccess.filter (·.freshAt now)).map fun token =>
              (scopeKey requestedScopes, .ok token)
            flights := .empty
            refreshOwner := none }
        (.ok (.begin accountId grantedScopes),
          { r with
            nextAccount := nextAccount
            accounts := r.accounts.insert accountId account })

def admissionOpen (r : SessionRegistry) : Bool := !r.stopping

def closeAdmission (r : SessionRegistry) : SessionRegistry := { r with stopping := true }

def profileFor (r : SessionRegistry) (accountId : Text) : Option ProviderProfile :=
  (r.accounts.get? accountId).map Account.profile

def issuerFor (r : SessionRegistry) (accountId : Text) : Option String :=
  (r.profileFor accountId).map ProviderProfile.issuer

/-- What the account's cache answers. -/
def cachedFor (account : Account) (key : ScopeKey) (now : ℕ) : Option TokenOutcome :=
  (account.cached.filter fun (cachedKey, outcome) =>
    cachedKey = key && outcome.toOption.any (·.freshAt now)).map Prod.snd

/-- `token_request_at`; `admitted` is what the reservation would return. -/
def tokenRequest {A : Type} (r : SessionRegistry) (accountId : Text) (scopes : Option (List Text))
    (admitted : Option A) (now : ℕ) : Except StateFault (TokenPlan A) × SessionRegistry :=
  match r.accounts.get? accountId with
  | none => (.ok .unresolved, r)
  | some account =>
    if r.stopping then (.error .stopping, r)
    else
      let key := scopeKey scopes
      match cachedFor account key now, account.flights.get? key with
      | some outcome, _ => (.ok (.ready outcome), r)
      | none, some flight => (.ok (.inFlight ⟨accountId, flight.serial⟩), r)
      | none, none =>
        match checkedSucc r.nextFlight, admitted with
        | none, _ => (.error .counterExhausted, r)
        | some _, none => (.ok .atCapacity, r)
        | some serial, some admission =>
          let flight : Flight :=
            { serial := serial
              requestedScopes := scopes
              phase := .awaitingRefresh }
          (.ok (.leader ⟨accountId, serial⟩ admission),
            { r.setAccount accountId
                { account with flights := account.flights.insert key flight } with
              nextFlight := serial })

/-- The account of a flight, the key it is filed under, and the flight. -/
def current (r : SessionRegistry) (id : FlightId) : Option (Account × ScopeKey × Flight) := do
  let account ← r.accounts.get? id.accountId
  let key ← account.currentKey id.serial
  let flight ← account.flights.get? key
  return (account, key, flight)

def tryStart (r : SessionRegistry) (id : FlightId) : StartState × SessionRegistry :=
  if r.stopping then (.retired, r)
  else
    match r.current id with
    | none => (.retired, r)
    | some (account, key, flight) =>
      if flight.phase = .active then (.alreadyStarted, r)
      else if account.refreshOwner.isSome then (.waitingForRefresh, r)
      else
        match account.refresh with
        | none =>
          (.completed ⟨id, .error StateFault.missingRefreshCredential.wireError⟩,
            r.setAccount id.accountId (account.removeFlight key id.serial))
        | some refresh =>
          (.started
            { profile := account.profile
              refresh := refresh
              requestedScopes := flight.requestedScopes },
            r.setAccount id.accountId
              { account with
                refreshOwner := some id.serial
                flights := account.flights.set key { flight with phase := .active } })

/-- `finish_success_at`. -/
def finishSuccess (r : SessionRegistry) (id : FlightId) (token : AccessToken)
    (rotatedRefresh : Option Text) (now : ℕ) : Option Completion × SessionRegistry :=
  if r.stopping then (none, r)
  else
    match r.current id with
    | none => (none, r)
    | some (account, key, _) =>
      if ¬ account.ownsRefresh key id.serial then (none, r)
      else
        let result : TokenOutcome :=
          if token.freshAt now then .ok token
          else .error StateFault.expiredAccess.wireError
        let account :=
          { account with
            refresh := rotatedRefresh.orElse fun _ => account.refresh
            cached := result.toOption.map fun _ => (key, result) }
        (some ⟨id, result⟩, r.setAccount id.accountId (account.removeFlight key id.serial))

/-- The completions come in the order of the calls of `emit`. -/
def finishFailure (r : SessionRegistry) (id : FlightId) (failure : ExchangeFailure) :
    Bool × List Completion × SessionRegistry :=
  if r.stopping then (false, [], r)
  else
    match r.current id with
    | none => (false, [], r)
    | some (account, key, _) =>
      if ¬ account.ownsRefresh key id.serial then (false, [], r)
      else
        match failure with
        | .invalidGrant error =>
          (true, (account.flightIds id.accountId).map fun flight => ⟨flight, .error error⟩,
            { r with accounts := r.accounts.erase id.accountId })
        | .failed error =>
          (true, [⟨id, .error error⟩],
            r.setAccount id.accountId (account.removeFlight key id.serial))

def abandon (r : SessionRegistry) (id : FlightId) (error : CallError) :
    Option Completion × SessionRegistry :=
  match r.current id with
  | none => (none, r)
  | some (account, key, _) =>
    (some ⟨id, .error error⟩, r.setAccount id.accountId (account.removeFlight key id.serial))

/-- Every flight of every account. -/
def live (r : SessionRegistry) : List FlightId :=
  r.accounts.toList.flatMap fun entry => entry.2.flightIds entry.1

def stopForHostTail (r : SessionRegistry) : List Completion × SessionRegistry :=
  (r.live.map fun flight => ⟨flight, .error StateFault.stopping.wireError⟩,
    { r with
      stopping := true
      accounts := r.accounts.map fun account =>
        { account with
          flights := .empty
          refreshOwner := none } })

end SessionRegistry

end Keld.Auth
