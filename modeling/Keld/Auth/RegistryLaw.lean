/-
# `Keld.Auth.RegistryLaw` — one exchange at a time, one outcome a flight

The flights that were led are those that are completed and those that are live,
each once (`accounted`): an operation that takes flights out of the registry
completes exactly these.  Everything about one account is a property of that
account and the log (`AccountOk`), and only the account that an operation
addresses has to be looked at again.
-/
import Keld.Auth.RegistryRuns

namespace Keld.Auth

open List

/-! ## Canonical scopes -/

variable {α : Type*} {m n : ℕ}

theorem hex16_injective (hm : m < 2 ^ 64) (hn : n < 2 ^ 64) (h : hex16 m = hex16 n) : m = n := by
  unfold hex16 at h
  have hby : (leBytes 8 m).reverse = (leBytes 8 n).reverse := by
    have hpa := congrArg decodePairs h
    rw [decodePairs_encodeLowerHex, decodePairs_encodeLowerHex] at hpa
    exact Option.some.inj hpa
  have hle := congrArg leNat (reverse_injective hby)
  rwa [leNat_leBytes hm, leNat_leBytes hn] at hle

theorem length_hex16 (n : ℕ) : (hex16 n).length = 16 := by
  unfold hex16
  rw [length_encodeLowerHex, length_reverse, length_leBytes]

theorem accountIdOf_injective {e e' : List Byte} (hm : m < 2 ^ 64) (hn : n < 2 ^ 64)
    (h : accountIdOf e m = accountIdOf e' n) : m = n := by
  obtain ⟨-, hsuf⟩ := append_inj' h (by simp [length_hex16])
  exact hex16_injective hm hn (List.cons.inj hsuf).2

/-! ## The invariant -/

@[simp] def RegistryFact.led : RegistryFact → Option FlightId
  | .leader flight _ => some flight
  | _ => none

@[simp] def RegistryFact.done : RegistryFact → Option FlightId
  | .completed completion => some completion.flight
  | _ => none

@[simp] def RegistryFact.account : RegistryFact → Option Text
  | .registered accountId _ _ => some accountId
  | _ => none

def leaders (log : List RegistryFact) : List FlightId := log.filterMap RegistryFact.led

def completions (log : List RegistryFact) : List FlightId := log.filterMap RegistryFact.done

def accountIds (log : List RegistryFact) : List Text := log.filterMap RegistryFact.account

/-- A token that was given to an account for these scopes, when it signed in or by a flight. -/
def Obtained (log : List RegistryFact) (accountId : Text) (key : ScopeKey) (token : AccessToken) :
    Prop :=
  (∃ scopes, .registered accountId scopes (some token) ∈ log ∧ scopeKey scopes = key) ∨
    ∃ serial scopes, .leader ⟨accountId, serial⟩ scopes ∈ log ∧ scopeKey scopes = key ∧
      .completed ⟨⟨accountId, serial⟩, .ok token⟩ ∈ log

structure AccountOk (log : List RegistryFact) (accountId : Text) (account : Account) : Prop where
  keyed : ∀ key flight, account.flights.get? key = some flight →
    scopeKey flight.requestedScopes = key
  led : ∀ key flight, account.flights.get? key = some flight →
    .leader ⟨accountId, flight.serial⟩ flight.requestedScopes ∈ log
  single : ∀ key key' flight flight', account.flights.get? key = some flight →
    account.flights.get? key' = some flight' → flight.serial = flight'.serial → key = key'
  owner : ∀ serial, account.refreshOwner = some serial ↔
    ∃ key flight, account.flights.get? key = some flight ∧ flight.serial = serial ∧
      flight.phase = .active
  cached : ∀ key outcome, account.cached = some (key, outcome) →
    ∃ token, outcome = .ok token ∧ Obtained log accountId key token
  registered : accountId ∈ accountIds log

structure RegistryInv (s : RegistrySession) : Prop where
  accounts : ∀ accountId account, s.registry.accounts.get? accountId = some account →
    AccountOk s.log accountId account
  accounted : (completions s.log ++ s.registry.live).Perm (leaders s.log)
  serials : ((leaders s.log).map FlightId.serial).Pairwise (· < ·)
  bound : ∀ flight ∈ leaders s.log, flight.serial ≤ s.registry.nextFlight
  ids : (accountIds s.log).Nodup
  idBound : ∀ accountId ∈ accountIds s.log, ∃ entropy n, accountId = accountIdOf entropy n ∧
    n ≤ s.registry.nextAccount
  evicted : ∀ accountId, .evicted accountId ∈ s.log →
    s.registry.accounts.get? accountId = none ∧ accountId ∈ accountIds s.log
  stopped : .stopped ∈ s.log → s.registry.stopping = true ∧ s.registry.live = []

section Log

variable {log facts : List RegistryFact} {accountId : Text} {account : Account}

@[simp] theorem leaders_append : leaders (log ++ facts) = leaders log ++ leaders facts :=
  filterMap_append

@[simp] theorem completions_append :
    completions (log ++ facts) = completions log ++ completions facts := filterMap_append

@[simp] theorem accountIds_append : accountIds (log ++ facts) = accountIds log ++ accountIds facts :=
  filterMap_append

@[simp] theorem leaders_cons (fact : RegistryFact) :
    leaders (fact :: facts) = fact.led.toList ++ leaders facts := by
  cases h : fact.led with
  | none => exact filterMap_cons_none h
  | some flight => exact filterMap_cons_some h

@[simp] theorem completions_cons (fact : RegistryFact) :
    completions (fact :: facts) = fact.done.toList ++ completions facts := by
  cases h : fact.done with
  | none => exact filterMap_cons_none h
  | some flight => exact filterMap_cons_some h

@[simp] theorem accountIds_cons (fact : RegistryFact) :
    accountIds (fact :: facts) = fact.account.toList ++ accountIds facts := by
  cases h : fact.account with
  | none => exact filterMap_cons_none h
  | some accountId => exact filterMap_cons_some h

@[simp] theorem leaders_nil : leaders [] = [] := rfl

@[simp] theorem completions_nil : completions [] = [] := rfl

@[simp] theorem accountIds_nil : accountIds [] = [] := rfl

theorem Obtained.append {key : ScopeKey} {token : AccessToken}
    (h : Obtained log accountId key token) (facts : List RegistryFact) :
    Obtained (log ++ facts) accountId key token := by
  rcases h with ⟨scopes, hm, hk⟩ | ⟨serial, scopes, hled, hk, hd⟩
  · exact .inl ⟨scopes, mem_append_left _ hm, hk⟩
  · exact .inr ⟨serial, scopes, mem_append_left _ hled, hk, mem_append_left _ hd⟩

theorem AccountOk.append (h : AccountOk log accountId account) (facts : List RegistryFact) :
    AccountOk (log ++ facts) accountId account := { h with
  led key flight hfl := mem_append_left _ (h.led key flight hfl)
  cached key outcome hca := by
    obtain ⟨token, hto, hobt⟩ := h.cached key outcome hca
    exact ⟨token, hto, hobt.append facts⟩
  registered := by
    rw [accountIds_append]
    exact mem_append_left _ h.registered }

end Log

/-! ## Live flights -/

namespace Account

variable {account account' : Account} {key : ScopeKey} {flight : Flight}

theorem flightIds_eq (account : Account) (accountId : Text) :
    account.flightIds accountId =
      account.flights.toList.map fun entry => ⟨accountId, entry.2.serial⟩ := by
  unfold flightIds OrdMap.values
  rw [map_map]
  rfl

theorem flightIds_insert (accountId : Text) (hf : account.flights.get? key = none)
    (hfls : account'.flights = account.flights.insert key flight) :
    (account'.flightIds accountId).Perm (⟨accountId,
      flight.serial⟩ :: account.flightIds accountId) := by
  rw [flightIds_eq, flightIds_eq, hfls]
  exact (OrdMap.toList_insert_perm hf flight).map _

theorem flightIds_erase (accountId : Text) (hfl : account.flights.get? key = some flight)
    (hfls : account'.flights = account.flights.erase key) :
    (account.flightIds accountId).Perm (⟨accountId,
      flight.serial⟩ :: account'.flightIds accountId) := by
  rw [flightIds_eq, flightIds_eq, hfls]
  exact (OrdMap.toList_perm_erase hfl).map _

theorem flightIds_set (accountId : Text) (hfl : account.flights.get? key = some flight)
    {flight' : Flight} (hser : flight'.serial = flight.serial)
    (hfls : account'.flights = account.flights.set key flight') :
    (account'.flightIds accountId).Perm (account.flightIds accountId) := by
  rw [flightIds_eq, flightIds_eq, hfls]
  refine ((OrdMap.toList_set_perm hfl flight').map _).trans ?_
  refine List.Perm.trans ?_ ((OrdMap.toList_perm_erase hfl).map _).symm
  rw [map_cons, map_cons, hser]

end Account

namespace SessionRegistry

variable {r : SessionRegistry} {accountId : Text} {account account' : Account}

/-- The flights of the other accounts. -/
def liveBut (r : SessionRegistry) (accountId : Text) : List FlightId :=
  { r with accounts := r.accounts.erase accountId }.live

theorem live_perm (h : r.accounts.get? accountId = some account) :
    r.live.Perm (account.flightIds accountId ++ r.liveBut accountId) :=
  (OrdMap.toList_perm_erase h).flatMap_right _

theorem live_setAccount (h : r.accounts.get? accountId = some account) (account' : Account) :
    (r.setAccount accountId account').live.Perm
      (account'.flightIds accountId ++ r.liveBut accountId) :=
  (OrdMap.toList_set_perm h account').flatMap_right _

theorem live_insert (h : r.accounts.get? accountId = none) (hfls : account.flights = .empty) :
    { r with accounts := r.accounts.insert accountId account }.live.Perm r.live := by
  have hp : { r with accounts := r.accounts.insert accountId account }.live.Perm
      (account.flightIds accountId ++ r.live) :=
    (OrdMap.toList_insert_perm h account).flatMap_right _
  rwa [Account.flightIds_eq, hfls] at hp

theorem live_tail (r : SessionRegistry) : r.stopForHostTail.2.live = [] := by
  unfold live stopForHostTail OrdMap.map OrdMap.mapEntries
  rw [flatMap_map]
  exact flatMap_eq_nil_iff.mpr fun entry _ => rfl

theorem get?_setAccount_self (h : r.accounts.get? accountId = some account) (account' : Account) :
    (r.setAccount accountId account').accounts.get? accountId = some account' :=
  (OrdMap.get?_set h account' accountId).trans (if_pos rfl)

theorem get?_setAccount_of_ne (h : r.accounts.get? accountId = some account) (account' : Account)
    {other : Text} (hne : other ≠ accountId) :
    (r.setAccount accountId account').accounts.get? other = r.accounts.get? other :=
  (OrdMap.get?_set h account' other).trans (if_neg hne)

end SessionRegistry

end Keld.Auth
