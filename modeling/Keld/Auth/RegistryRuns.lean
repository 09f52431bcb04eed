/-
# `Keld.Auth.RegistryRuns` — the operations of a registry one after another

A run applies operations to one registry and notes what they gave: an account
registered, a flight led, a token handed out of the cache, a completion.  What
one operation can do is one of a few moves (`step_move`), from which the laws of
every run are derived.
-/
import Keld.Auth.Registry
import Keld.Lib.Trace

namespace Keld.Auth

open List SessionRegistry

inductive RegistryOp where
  | register (profileKey : String) (entropy : List Byte) (refreshToken : Option Text)
      (requestedScopes : Option (List Text)) (initialAccess : Option AccessToken)
      (grantedScopes : List Text) (now : ℕ)
  /-- `admits` is whether the executor has a lease to give. -/
  | tokenRequest (accountId : Text) (scopes : Option (List Text)) (admits : Bool) (now : ℕ)
  | tryStart (id : FlightId)
  | finishSuccess (id : FlightId) (token : AccessToken) (rotatedRefresh : Option Text) (now : ℕ)
  | finishFailure (id : FlightId) (failure : ExchangeFailure)
  | abandon (id : FlightId) (error : CallError)
  | closeAdmission
  | stopForHostTail

inductive RegistryFact where
  | registered (accountId : Text) (scopes : Option (List Text)) (initial : Option AccessToken)
  | leader (flight : FlightId) (scopes : Option (List Text))
  | ready (accountId : Text) (scopes : Option (List Text)) (outcome : TokenOutcome) (now : ℕ)
  | completed (completion : Completion)
  /-- An account that a terminal `invalid_grant` removed. -/
  | evicted (accountId : Text)
  | stopped

structure RegistrySession where
  registry : SessionRegistry := {}
  log : List RegistryFact := []

namespace RegistrySession

def note (s : RegistrySession) (registry : SessionRegistry) (facts : List RegistryFact) :
    RegistrySession where
  registry := registry
  log := s.log ++ facts

def step (s : RegistrySession) : RegistryOp → RegistrySession
  | .register profileKey entropy refreshToken scopes initial granted now =>
    match s.registry.registerCompletedBegin profileKey entropy refreshToken scopes initial granted
      now with
    | (.ok (.begin accountId _), registry) =>
      s.note registry [.registered accountId scopes initial]
    | (_, registry) => s.note registry []
  | .tokenRequest accountId scopes admits now =>
    match s.registry.tokenRequest accountId scopes (if admits then some () else none) now with
    | (.ok (.leader flight _), registry) => s.note registry [.leader flight scopes]
    | (.ok (.ready outcome), registry) =>
      s.note registry [.ready accountId scopes outcome now]
    | (_, registry) => s.note registry []
  | .tryStart id =>
    match s.registry.tryStart id with
    | (.completed completion, registry) => s.note registry [.completed completion]
    | (_, registry) => s.note registry []
  | .finishSuccess id token rotated now =>
    match s.registry.finishSuccess id token rotated now with
    | (completion, registry) => s.note registry (completion.toList.map .completed)
  | .finishFailure id failure =>
    match failure, s.registry.finishFailure id failure with
    | .invalidGrant _, (true, completions, registry) =>
      s.note registry (completions.map .completed ++ [.evicted id.accountId])
    | _, (_, completions, registry) => s.note registry (completions.map .completed)
  | .abandon id error =>
    match s.registry.abandon id error with
    | (completion, registry) => s.note registry (completion.toList.map .completed)
  | .closeAdmission => s.note s.registry.closeAdmission []
  | .stopForHostTail =>
    match s.registry.stopForHostTail with
    | (completions, registry) => s.note registry (completions.map .completed ++ [.stopped])

def run (ops : List RegistryOp) : RegistrySession := ops.foldl step {}

example : (run [.closeAdmission]).log = [] := by
  simp only [run, foldl_cons, foldl_nil, step, note, append_nil]

theorem run_snoc (ops : List RegistryOp) (op : RegistryOp) :
    run (ops ++ [op]) = (run ops).step op := foldl_concat ..

end RegistrySession

/-! ## What one operation can do -/

/-- An account that a flight was taken out of, with its credential rotated or not. -/
structure Settles (account account' : Account) (key : ScopeKey) (serial : ℕ)
    (result : TokenOutcome) : Prop where
  flights : account'.flights = account.flights.erase key
  refreshOwner : account'.refreshOwner =
    if account.refreshOwner = some serial then none else account.refreshOwner
  cached : account'.cached = account.cached ∨ account'.cached = none ∨
    ∃ token, result = .ok token ∧ account'.cached = some (key, result)

inductive RegistryMove (r : SessionRegistry) : SessionRegistry → List RegistryFact → Prop
  | idle : RegistryMove r r []
  | ready (accountId : Text) (scopes : Option (List Text)) (outcome : TokenOutcome) (now : ℕ)
      (account : Account) (haccount : r.accounts.get? accountId = some account)
      (hcached : cachedFor account (scopeKey scopes) now = some outcome) :
      RegistryMove r r [.ready accountId scopes outcome now]
  | registered (entropy : List Byte) (account : Account) (scopes : Option (List Text))
      (initial : Option AccessToken) (hnext : r.nextAccount + 1 < 2 ^ 64)
      (hflights : account.flights = .empty) (howner : account.refreshOwner = none)
      (hcached : ∀ key outcome, account.cached = some (key, outcome) →
        ∃ token, initial = some token ∧ outcome = .ok token ∧ key = scopeKey scopes) :
      RegistryMove r
        { r with
          nextAccount := r.nextAccount + 1
          accounts := r.accounts.insert (accountIdOf entropy (r.nextAccount + 1)) account }
        [.registered (accountIdOf entropy (r.nextAccount + 1)) scopes initial]
  | led (accountId : Text) (scopes : Option (List Text)) (account : Account)
      (hstopping : r.stopping = false) (haccount : r.accounts.get? accountId = some account)
      (hfree : account.flights.get? (scopeKey scopes) = none) :
      RegistryMove r
        { r.setAccount accountId
            { account with
              flights := account.flights.insert (scopeKey scopes)
                { serial := r.nextFlight + 1
                  requestedScopes := scopes
                  phase := .awaitingRefresh } } with
          nextFlight := r.nextFlight + 1 }
        [.leader ⟨accountId, r.nextFlight + 1⟩ scopes]
  | started (id : FlightId) (account : Account) (key : ScopeKey) (flight : Flight)
      (hcurrent : r.current id = some (account, key, flight))
      (howner : account.refreshOwner = none) :
      RegistryMove r
        (r.setAccount id.accountId
          { account with
            refreshOwner := some id.serial
            flights := account.flights.set key { flight with phase := .active } }) []
  | settled (id : FlightId) (account account' : Account) (key : ScopeKey) (flight : Flight)
      (result : TokenOutcome) (hcurrent : r.current id = some (account, key, flight))
      (hsettles : Settles account account' key id.serial result) :
      RegistryMove r (r.setAccount id.accountId account') [.completed ⟨id, result⟩]
  | evicted (id : FlightId) (account : Account) (error : CallError)
      (haccount : r.accounts.get? id.accountId = some account) :
      RegistryMove r { r with accounts := r.accounts.erase id.accountId }
        ((account.flightIds id.accountId).map (fun flight => .completed ⟨flight, .error error⟩) ++
          [.evicted id.accountId])
  | closed : RegistryMove r r.closeAdmission []
  | tail : RegistryMove r r.stopForHostTail.2
      (r.stopForHostTail.1.map .completed ++ [.stopped])

namespace SessionRegistry

variable {r : SessionRegistry} {id : FlightId} {account : Account} {key : ScopeKey}
  {flight : Flight}

theorem current_spec (h : r.current id = some (account, key, flight)) :
    r.accounts.get? id.accountId = some account ∧ account.flights.get? key = some flight ∧
      flight.serial = id.serial := by
  unfold current at h
  cases ha : r.accounts.get? id.accountId with
  | none => simp [ha] at h
  | some account' =>
    cases hk : account'.currentKey id.serial with
    | none => simp [ha, hk] at h
    | some key' =>
      cases hfl : account'.flights.get? key' with
      | none => simp [ha, hk, hfl] at h
      | some flight' =>
        simp only [ha, hk, hfl, bind, Option.bind_some, pure, Option.some.injEq, Prod.mk.injEq] at h
        obtain ⟨rfl, rfl, rfl⟩ := h
        refine ⟨rfl, hfl, ?_⟩
        obtain ⟨⟨key'', flight''⟩, hfi, rfl⟩ := Option.map_eq_some_iff.mp hk
        obtain ⟨hg, hser⟩ := OrdMap.find?_eq_some hfi
        rw [hg] at hfl
        cases hfl
        exact of_decide_eq_true hser

/-- A flight that is there is found by its identity. -/
theorem current_isSome (ha : r.accounts.get? id.accountId = some account)
    (hfl : account.flights.get? key = some flight) (hser : flight.serial = id.serial) :
    (r.current id).isSome = true := by
  unfold current
  rw [ha]
  cases hk : account.currentKey id.serial with
  | none =>
    have hn := Option.map_eq_none_iff.mp hk
    have := OrdMap.find?_eq_none hn hfl
    simp [hser] at this
  | some key' =>
    obtain ⟨⟨key'', flight''⟩, hfi, rfl⟩ := Option.map_eq_some_iff.mp hk
    obtain ⟨hg, -⟩ := OrdMap.find?_eq_some hfi
    simp only [bind, Option.bind_some, hk, hg, pure, Option.isSome_some]

theorem removeFlight_settles (account : Account) (key : ScopeKey) (serial : ℕ)
    (result : TokenOutcome) : Settles account (account.removeFlight key serial) key serial result where
  flights := rfl
  refreshOwner := rfl
  cached := .inl rfl

theorem finishSuccess_settles (account : Account) (key : ScopeKey) (serial : ℕ)
    (result : TokenOutcome) (refresh : Option Text) :
    Settles account
      ({ account with
        refresh := refresh
        cached := result.toOption.map fun _ => (key, result) } |>.removeFlight key serial)
      key serial result where
  flights := rfl
  refreshOwner := rfl
  cached := by
    cases result with
    | error _ => exact .inr (.inl rfl)
    | ok token => exact .inr (.inr ⟨token, rfl, rfl⟩)

end SessionRegistry

theorem checkedSucc_eq {n m : ℕ} (h : checkedSucc n = some m) : m = n + 1 := by
  unfold checkedSucc at h
  split_ifs at h
  exact (Option.some.inj h).symm

namespace RegistrySession

open SessionRegistry

variable {s : RegistrySession}

/-- What a step notes and leaves. -/
def Steps (s s' : RegistrySession) : Prop :=
  ∃ registry facts, RegistryMove s.registry registry facts ∧ s' = s.note registry facts

theorem steps_idle (s : RegistrySession) : Steps s (s.note s.registry []) := ⟨_, _, .idle, rfl⟩

theorem register_steps (profileKey : String) (entropy : List Byte) (refreshToken : Option Text)
    (scopes : Option (List Text)) (initial : Option AccessToken) (granted : List Text) (now : ℕ) :
    Steps s (s.step (.register profileKey entropy refreshToken scopes initial granted now)) := by
  simp only [step, registerCompletedBegin]
  split_ifs with hs
  · exact s.steps_idle
  · cases providerProfile profileKey with
    | none => exact s.steps_idle
    | some profile =>
      unfold checkedSucc
      split_ifs with hn
      · refine ⟨_, _, .registered entropy _ scopes initial hn rfl rfl ?_, rfl⟩
        intro key outcome hca
        obtain ⟨token, hfi, he⟩ := Option.map_eq_some_iff.mp hca
        obtain ⟨rfl, rfl⟩ := Prod.mk.inj he
        exact ⟨token, (Option.filter_eq_some_iff.mp hfi).1, rfl, rfl⟩
      · exact s.steps_idle

theorem tokenRequest_steps (accountId : Text) (scopes : Option (List Text)) (admits : Bool)
    (now : ℕ) : Steps s (s.step (.tokenRequest accountId scopes admits now)) := by
  simp only [step, tokenRequest]
  cases ha : s.registry.accounts.get? accountId with
  | none => exact s.steps_idle
  | some account =>
    dsimp only
    by_cases hs : s.registry.stopping = true
    · rw [if_pos hs]
      exact s.steps_idle
    · rw [if_neg hs]
      cases hca : cachedFor account (scopeKey scopes) now with
      | some outcome => exact ⟨_, _, .ready accountId scopes outcome now account ha hca, rfl⟩
      | none =>
        cases hfl : account.flights.get? (scopeKey scopes) with
        | some flight => exact s.steps_idle
        | none =>
          cases hn : checkedSucc s.registry.nextFlight with
          | none => exact s.steps_idle
          | some serial =>
            obtain rfl := checkedSucc_eq hn
            cases admits with
            | false => exact s.steps_idle
            | true =>
              exact ⟨_, _, .led accountId scopes account (by simpa using hs) ha hfl, rfl⟩

theorem tryStart_steps (id : FlightId) : Steps s (s.step (.tryStart id)) := by
  simp only [step, tryStart]
  split_ifs with hs
  · exact s.steps_idle
  · cases hc : s.registry.current id with
    | none => exact s.steps_idle
    | some entry =>
      obtain ⟨account, key, flight⟩ := entry
      dsimp only
      split_ifs with ha ho
      · exact s.steps_idle
      · exact s.steps_idle
      · split
        · rename_i he
          split at he
          · cases he
            exact ⟨_, _, .settled id account _ key flight _ hc
              (removeFlight_settles account key id.serial _), rfl⟩
          · cases he
        · rename_i he
          split at he
          · cases he
            rename_i hco
            exact absurd rfl (hco _)
          · cases he
            exact ⟨_, _, .started id account key flight hc (by simpa using ho), rfl⟩

theorem finishSuccess_steps (id : FlightId) (token : AccessToken) (rotated : Option Text)
    (now : ℕ) : Steps s (s.step (.finishSuccess id token rotated now)) := by
  simp only [step, finishSuccess]
  by_cases hs : s.registry.stopping = true
  · rw [if_pos hs]
    exact s.steps_idle
  · rw [if_neg hs]
    cases hc : s.registry.current id with
    | none => exact s.steps_idle
    | some entry =>
      obtain ⟨account, key, flight⟩ := entry
      dsimp only
      by_cases howns : account.ownsRefresh key id.serial = true
      · rw [if_neg (not_not.mpr howns)]
        exact ⟨_, _, .settled id account _ key flight _ hc
          (finishSuccess_settles account key id.serial _ _), rfl⟩
      · rw [if_pos howns]
        exact s.steps_idle

theorem finishFailure_steps (id : FlightId) (failure : ExchangeFailure) :
    Steps s (s.step (.finishFailure id failure)) := by
  simp only [step, finishFailure]
  by_cases hs : s.registry.stopping = true
  · rw [if_pos hs]
    cases failure with
    | failed | invalidGrant => exact s.steps_idle
  · rw [if_neg hs]
    cases hc : s.registry.current id with
    | none =>
      cases failure with
      | failed | invalidGrant => exact s.steps_idle
    | some entry =>
      obtain ⟨account, key, flight⟩ := entry
      dsimp only
      cases failure with
      | failed error =>
        by_cases howns : account.ownsRefresh key id.serial = true
        · rw [if_neg (not_not.mpr howns)]
          exact ⟨_, _, .settled id account _ key flight _ hc
            (removeFlight_settles account key id.serial _), rfl⟩
        · rw [if_pos howns]
          exact s.steps_idle
      | invalidGrant error =>
        by_cases howns : account.ownsRefresh key id.serial = true
        · rw [if_neg (not_not.mpr howns)]
          refine ⟨_, _, .evicted id account error (current_spec hc).1, ?_⟩
          simp only [map_map]
          rfl
        · rw [if_pos howns]
          exact s.steps_idle

theorem abandon_steps (id : FlightId) (error : CallError) :
    Steps s (s.step (.abandon id error)) := by
  simp only [step, abandon]
  cases hc : s.registry.current id with
  | none => exact s.steps_idle
  | some entry =>
    obtain ⟨account, key, flight⟩ := entry
    exact ⟨_, _, .settled id account _ key flight _ hc
      (removeFlight_settles account key id.serial _), rfl⟩

theorem step_steps (s : RegistrySession) (op : RegistryOp) : Steps s (s.step op) := by
  cases op with
  | register profileKey entropy refreshToken scopes initial granted now =>
    exact register_steps profileKey entropy refreshToken scopes initial granted now
  | tokenRequest accountId scopes admits now => exact tokenRequest_steps accountId scopes admits now
  | tryStart id => exact tryStart_steps id
  | finishSuccess id token rotated now => exact finishSuccess_steps id token rotated now
  | finishFailure id failure => exact finishFailure_steps id failure
  | abandon id error => exact abandon_steps id error
  | closeAdmission => exact ⟨_, _, .closed, rfl⟩
  | stopForHostTail => exact ⟨_, _, .tail, rfl⟩

end RegistrySession

end Keld.Auth
