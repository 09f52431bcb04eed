/-
# `Keld.Auth.RegistryCompletes` — which flights an operation completes

`Completes r r' flights` is what those who wait for the flights of a registry
need to know of an operation: these flights are no longer live, and the others
are and go on as they did.  A flight begins its exchange (`Begins`) when
`tryStart` gives it to its owner.
-/
import Keld.Auth.RegistrySafety

namespace Keld.Auth

open List

namespace SessionRegistry

/-- The exchange of the flight is under way. -/
def Active (r : SessionRegistry) (id : FlightId) : Prop :=
  ∃ account, r.accounts.get? id.accountId = some account ∧ account.refreshOwner = some id.serial

def Wf (r : SessionRegistry) : Prop := ∃ log, RegistryInv ⟨r, log⟩

/-- The registry completed these flights, and leaves the exchanges of the others alone. -/
structure Completes (r r' : SessionRegistry) (flights : List FlightId) : Prop where
  wf : r'.Wf
  live : r.live.Perm (flights ++ r'.live)
  active : ∀ id ∈ r'.live, r'.Active id ↔ r.Active id
  stopping : r'.stopping = r.stopping
  nextFlight : r'.nextFlight = r.nextFlight

variable {r r' : SessionRegistry} {id : FlightId} {account : Account} {key : ScopeKey}
  {flight : Flight}

theorem Wf.move (h : r.Wf) {facts : List RegistryFact} (hmo : RegistryMove r r' facts) : r'.Wf := by
  obtain ⟨log, hinv⟩ := h
  exact ⟨log ++ facts, hinv.move hmo⟩

theorem Wf.nodup_live (h : r.Wf) : r.live.Nodup := by
  obtain ⟨log, hinv⟩ := h
  exact (nodup_append.mp (hinv.accounted.nodup_iff.mpr hinv.nodup_leaders)).2.1

theorem mem_live_iff : id ∈ r.live ↔ ∃ account key flight,
    r.accounts.get? id.accountId = some account ∧ account.flights.get? key = some flight ∧
      flight.serial = id.serial := by
  constructor
  · intro h
    obtain ⟨⟨accountId, account⟩, he, hid⟩ := mem_flatMap.mp h
    obtain ⟨flight, hfl, rfl⟩ := mem_map.mp hid
    obtain ⟨key, hk⟩ := OrdMap.mem_values_iff.mp hfl
    exact ⟨account, key, flight, OrdMap.mem_toList_iff.mp he, hk, rfl⟩
  · rintro ⟨account, key, flight, ha, hfl, hser⟩
    refine mem_flatMap.mpr ⟨(id.accountId, account), OrdMap.mem_toList_iff.mpr ha, ?_⟩
    refine mem_map.mpr ⟨flight, OrdMap.mem_values_iff.mpr ⟨key, hfl⟩, ?_⟩
    rw [hser]

theorem current_of_live (h : id ∈ r.live) : ∃ account key flight,
    r.current id = some (account, key, flight) := by
  obtain ⟨account, key, flight, ha, hfl, hser⟩ := mem_live_iff.mp h
  obtain ⟨⟨account', key', flight'⟩, hc⟩ := Option.isSome_iff_exists.mp (current_isSome ha hfl hser)
  exact ⟨account', key', flight', hc⟩

variable {accountId : Text}

theorem Wf.accountOk (h : r.Wf) (ha : r.accounts.get? accountId = some account) :
    ∃ log, AccountOk log accountId account := by
  obtain ⟨log, hinv⟩ := h
  exact ⟨log, hinv.accounts accountId account ha⟩

theorem Wf.active_live (h : r.Wf) (hac : r.Active id) : id ∈ r.live := by
  obtain ⟨account, ha, ho⟩ := hac
  obtain ⟨log, hok⟩ := h.accountOk ha
  obtain ⟨key, flight, hfl, hser, -⟩ := (hok.owner id.serial).mp ho
  exact mem_live_iff.mpr ⟨account, key, flight, ha, hfl, hser⟩

theorem ownsRefresh_of_active (h : r.Wf) (hac : r.Active id)
    (hc : r.current id = some (account, key, flight)) :
    account.ownsRefresh key id.serial = true := by
  obtain ⟨ha, hfl, hser⟩ := current_spec hc
  obtain ⟨account', ha', ho⟩ := hac
  rw [ha] at ha'
  cases ha'
  obtain ⟨log, hok⟩ := h.accountOk ha
  obtain ⟨key', flight', hfl', hser', hph⟩ := (hok.owner id.serial).mp ho
  have hke := hok.single key key' flight flight' hfl hfl' (hser.trans hser'.symm)
  subst hke
  rw [hfl] at hfl'
  cases hfl'
  unfold Account.ownsRefresh
  rw [ho, hfl]
  simp [hph]

/-- Taking one flight out of its account. -/
theorem completes_settled (h : r.Wf) {account' : Account} {result : TokenOutcome}
    (hc : r.current id = some (account, key, flight))
    (hse : Settles account account' key id.serial result) :
    r.Completes (r.setAccount id.accountId account') [id] := by
  obtain ⟨ha, hfl, hser⟩ := current_spec hc
  have hl : r.live.Perm ([id] ++ (r.setAccount id.accountId account').live) := by
    refine (live_perm ha).trans ?_
    refine ((Account.flightIds_erase id.accountId hfl hse.flights).append_right _).trans ?_
    rw [hser, cons_append]
    exact (live_setAccount ha account').symm.cons _
  refine
    { wf := h.move (.settled id account account' key flight result hc hse)
      live := hl
      active := fun other hot => ?_
      stopping := rfl
      nextFlight := rfl }
  have hne : other ≠ id := by
    rintro rfl
    have hno := hl.nodup_iff.mp h.nodup_live
    exact (nodup_cons.mp hno).1 hot
  by_cases haccountId : other.accountId = id.accountId
  · have hsers : other.serial ≠ id.serial := fun hs =>
      hne (by cases other; cases id; simp_all)
    unfold Active
    rw [haccountId, get?_setAccount_self ha, ha]
    simp only [Option.some.injEq, exists_eq_left']
    rw [hse.refreshOwner]
    split_ifs with ho
    · rw [ho]
      simp [Ne.symm hsers]
    · exact Iff.rfl
  · unfold Active
    rw [get?_setAccount_of_ne ha account' haccountId]

theorem abandon_live (h : r.Wf) (hl : id ∈ r.live) (error : CallError) :
    (r.abandon id error).1 = some ⟨id, .error error⟩ ∧ r.Completes (r.abandon id error).2 [id] := by
  obtain ⟨account, key, flight, hc⟩ := current_of_live hl
  unfold abandon
  rw [hc]
  exact ⟨rfl, completes_settled h hc (removeFlight_settles account key id.serial (.error error))⟩

theorem abandon_retired (hl : id ∉ r.live) (error : CallError) :
    r.abandon id error = (none, r) := by
  unfold abandon
  rw [current_of_retired hl]

theorem finishSuccess_active (h : r.Wf) (hs : r.stopping = false) (ha : r.Active id)
    (token : AccessToken) (rotated : Option Text) (now : ℕ) :
    ∃ result, (r.finishSuccess id token rotated now).1 = some ⟨id, result⟩ ∧
      r.Completes (r.finishSuccess id token rotated now).2 [id] := by
  obtain ⟨account, key, flight, hc⟩ := current_of_live (h.active_live ha)
  unfold finishSuccess
  rw [if_neg (by simp [hs]), hc]
  dsimp only
  rw [if_neg (not_not.mpr (ownsRefresh_of_active h ha hc))]
  exact ⟨_, rfl, completes_settled h hc (finishSuccess_settles account key id.serial _ _)⟩

/-- All the flights of an account are completed when it is evicted. -/
theorem completes_evicted (h : r.Wf) (ha : r.accounts.get? id.accountId = some account)
    (error : CallError) :
    r.Completes { r with accounts := r.accounts.erase id.accountId }
      (account.flightIds id.accountId) where
  wf := h.move (.evicted id account error ha)
  live := live_perm ha
  active other ho := by
    obtain ⟨account', key, flight, ha', -, -⟩ := mem_live_iff.mp ho
    have hne : other.accountId ≠ id.accountId := by
      intro hs
      rw [hs] at ha'
      have hes : (r.accounts.erase id.accountId).get? id.accountId = some account' := ha'
      rw [OrdMap.get?_erase, if_pos rfl] at hes
      cases hes
    unfold Active
    rw [OrdMap.get?_erase, if_neg hne]
  stopping := rfl
  nextFlight := rfl

theorem finishFailure_active (h : r.Wf) (hs : r.stopping = false) (ha : r.Active id)
    (failure : ExchangeFailure) :
    r.Completes (r.finishFailure id failure).2.2
        ((r.finishFailure id failure).2.1.map Completion.flight) ∧
      id ∈ (r.finishFailure id failure).2.1.map Completion.flight := by
  obtain ⟨account, key, flight, hc⟩ := current_of_live (h.active_live ha)
  unfold finishFailure
  rw [if_neg (by simp [hs]), hc]
  dsimp only
  rw [if_neg (not_not.mpr (ownsRefresh_of_active h ha hc))]
  cases failure with
  | failed error =>
    exact ⟨completes_settled h hc
      (removeFlight_settles account key id.serial (.error error)), mem_singleton_self _⟩
  | invalidGrant error =>
    obtain ⟨hac, hfl, hser⟩ := current_spec hc
    have hfls : ((account.flightIds id.accountId).map
        fun flight => (⟨flight, .error error⟩ : Completion)).map Completion.flight =
          account.flightIds id.accountId := by
      rw [map_map]
      exact map_id _
    rw [hfls]
    refine ⟨completes_evicted h hac error, ?_⟩
    refine mem_map.mpr ⟨flight, OrdMap.mem_values_iff.mpr ⟨key, hfl⟩, ?_⟩
    rw [hser]

/-- The exchange of a live flight begins. -/
structure Begins (r r' : SessionRegistry) (id : FlightId) : Prop where
  wf : r'.Wf
  live : r'.live.Perm r.live
  active : r'.Active id
  others : ∀ other ∈ r.live, other ≠ id → (r'.Active other ↔ r.Active other)
  stopping : r'.stopping = r.stopping
  nextFlight : r'.nextFlight = r.nextFlight

/-- A flight that began its exchange is completed. -/
theorem Begins.completes {r'' : SessionRegistry} (h : r.Begins r' id)
    (hco : r'.Completes r'' [id]) : r.Completes r'' [id] where
  wf := hco.wf
  live := h.live.symm.trans hco.live
  active other ho := by
    rw [hco.active other ho]
    have hne : other ≠ id := by
      rintro rfl
      exact (nodup_cons.mp (hco.live.nodup_iff.mp h.wf.nodup_live)).1 ho
    have hl : other ∈ r.live := h.live.mem_iff.mp (hco.live.mem_iff.mpr (mem_cons_of_mem _ ho))
    exact h.others other hl hne
  stopping := hco.stopping.trans h.stopping
  nextFlight := hco.nextFlight.trans h.nextFlight

/-- What an attempt to start a live flight that has not started gives. -/
inductive Starts (r : SessionRegistry) (id : FlightId) : StartState × SessionRegistry → Prop
  | waiting : Starts r id (.waitingForRefresh, r)
  | completed (completion : Completion) (r' : SessionRegistry) (hflight : completion.flight = id)
      (hcompletes : r.Completes r' [id]) : Starts r id (.completed completion, r')
  | started (input : ExchangeInput) (r' : SessionRegistry) (hbegins : r.Begins r' id) :
      Starts r id (.started input, r')

theorem tryStart_starts (h : r.Wf) (hs : r.stopping = false) (hl : id ∈ r.live)
    (hi : ¬ r.Active id) : Starts r id (r.tryStart id) := by
  obtain ⟨account, key, flight, hc⟩ := current_of_live hl
  obtain ⟨ha, hfl, hser⟩ := current_spec hc
  obtain ⟨log, hok⟩ := h.accountOk ha
  unfold tryStart
  rw [if_neg (by simp [hs]), hc]
  dsimp only
  rw [if_neg]
  · split_ifs with ho
    · exact .waiting
    · split
      · exact .completed _ _ rfl (completes_settled h hc (removeFlight_settles account key id.serial
            (.error StateFault.missingRefreshCredential.wireError)))
      · have hn : account.refreshOwner = none := by simpa using ho
        refine .started _ _ ⟨h.move (.started id account key flight hc hn), ?_, ?_, ?_, rfl, rfl⟩
        · have hids : (Account.flightIds
              { account with
                refreshOwner := some id.serial
                flights := account.flights.set key { flight with phase := .active } }
              id.accountId).Perm (account.flightIds id.accountId) :=
            Account.flightIds_set id.accountId hfl
              (show ({ flight with phase := .active } : Flight).serial = flight.serial from rfl) rfl
          exact ((live_setAccount ha _).trans (hids.append_right _)).trans (live_perm ha).symm
        · exact ⟨_, get?_setAccount_self ha _, rfl⟩
        · intro other _ hne
          by_cases haccountId : other.accountId = id.accountId
          · have hse : other.serial ≠ id.serial := fun hsa =>
              hne (by cases other; cases id; simp_all)
            unfold Active
            rw [haccountId, get?_setAccount_self ha, ha]
            simp [hn, Ne.symm hse]
          · unfold Active
            rw [get?_setAccount_of_ne ha _ haccountId]
  · intro hph
    exact hi ⟨account, ha, (hok.owner id.serial).mpr ⟨key, flight, hfl, hser, hph⟩⟩

theorem tryStart_retired (h : r.stopping = true ∨ id ∉ r.live) : r.tryStart id = (.retired, r) := by
  unfold tryStart
  rcases h with hs | hl
  · rw [if_pos hs]
  · rw [current_of_retired hl]
    exact ite_self _

/-- The host tail completes every flight. -/
theorem completes_tail (h : r.Wf) :
    r.closeAdmission.Completes r.stopForHostTail.2 (r.stopForHostTail.1.map Completion.flight) where
  wf := h.move .tail
  live := by
    have ha : r.stopForHostTail.1.map Completion.flight = r.live := by
      unfold stopForHostTail
      rw [map_map]
      exact map_id _
    rw [live_tail, append_nil, ha]
    exact List.Perm.refl _
  active id hid := by
    rw [live_tail] at hid
    cases hid
  stopping := rfl
  nextFlight := rfl

/-- A flight is led by a request. -/
structure Leads (r r' : SessionRegistry) (id : FlightId) : Prop where
  wf : r'.Wf
  live : r'.live.Perm (id :: r.live)
  idle : ¬ r'.Active id
  others : ∀ other ∈ r.live, (r'.Active other ↔ r.Active other)
  stopping : r'.stopping = false
  stopping' : r.stopping = false
  serial : id.serial = r.nextFlight + 1
  nextFlight : r'.nextFlight = r.nextFlight + 1
  account : (r'.accounts.get? id.accountId).isSome = true

/-- What a request can come to. -/
inductive Requests (r : SessionRegistry) (accountId : Text) :
    Except StateFault (TokenPlan Unit) × SessionRegistry → Prop
  | refused (result : Except StateFault (TokenPlan Unit))
      (hflight : ∀ flight, result ≠ .ok (.inFlight flight))
      (hleader : ∀ flight admission, result ≠ .ok (.leader flight admission)) :
      Requests r accountId (result, r)
  | inFlight (flight : FlightId) (hlive : flight ∈ r.live) :
      Requests r accountId (.ok (.inFlight flight), r)
  | leader (flight : FlightId) (r' : SessionRegistry) (haccount : flight.accountId = accountId)
      (hleads : r.Leads r' flight) : Requests r accountId (.ok (.leader flight ()), r')

theorem leads_led (h : r.Wf) (scopes : Option (List Text)) (hst : r.stopping = false)
    (ha : r.accounts.get? accountId = some account)
    (hf : account.flights.get? (scopeKey scopes) = none) :
    r.Leads
      { r.setAccount accountId
          { account with
            flights := account.flights.insert (scopeKey scopes)
              { serial := r.nextFlight + 1
                requestedScopes := scopes
                phase := .awaitingRefresh } } with
        nextFlight := r.nextFlight + 1 } ⟨accountId, r.nextFlight + 1⟩ := by
  obtain ⟨log, hinv⟩ := h
  have hse := get?_setAccount_self ha
    { account with
      flights := account.flights.insert (scopeKey scopes)
        { serial := r.nextFlight + 1
          requestedScopes := scopes
          phase := .awaitingRefresh } }
  have ho : account.refreshOwner ≠ some (r.nextFlight + 1) := by
    intro ho
    obtain ⟨key, flight, hfl, hser, -⟩ := ((hinv.accounts accountId account ha).owner _).mp ho
    exact hinv.lt_fresh ha hfl hser
  refine
    { wf := (show r.Wf from ⟨log, hinv⟩).move (.led accountId scopes account hst ha hf)
      live := ?_
      idle := ?_
      others := fun other hot => ?_
      stopping := hst
      stopping' := hst
      serial := rfl
      nextFlight := rfl
      account := ?_ }
  · refine (live_setAccount ha _).trans ?_
    refine ((Account.flightIds_insert accountId hf rfl).append_right _).trans ?_
    rw [cons_append]
    exact (live_perm ha).symm.cons _
  · rintro ⟨account', ha', ho'⟩
    have he := hse.symm.trans ha'
    cases he
    exact ho ho'
  · by_cases hs : other.accountId = accountId
    · constructor
      · rintro ⟨account', ha', ho'⟩
        rw [hs] at ha'
        have he := hse.symm.trans ha'
        cases he
        exact ⟨account, by rw [hs, ha], ho'⟩
      · rintro ⟨account', ha', ho'⟩
        rw [hs, ha] at ha'
        cases ha'
        exact ⟨_, (congrArg _ hs).trans hse, ho'⟩
    · have hot := get?_setAccount_of_ne ha
        { account with
          flights := account.flights.insert (scopeKey scopes)
            { serial := r.nextFlight + 1
              requestedScopes := scopes
              phase := .awaitingRefresh } } hs
      constructor
      · rintro ⟨account', ha', ho'⟩
        exact ⟨account', hot.symm.trans ha', ho'⟩
      · rintro ⟨account', ha', ho'⟩
        exact ⟨account', hot.trans ha', ho'⟩
  · exact Option.isSome_iff_exists.mpr ⟨_, hse⟩

theorem tokenRequest_requests (h : r.Wf) (accountId : Text) (scopes : Option (List Text))
    (admitted : Option Unit) (now : ℕ) :
    Requests r accountId (r.tokenRequest accountId scopes admitted now) := by
  unfold tokenRequest
  cases ha : r.accounts.get? accountId with
  | none => exact .refused _ nofun nofun
  | some account =>
    dsimp only
    split_ifs with hs
    · exact .refused _ nofun nofun
    · split
      · exact .refused _ nofun nofun
      · rename_i flight hcach hfl
        exact .inFlight _ (mem_live_iff.mpr ⟨account, _, flight, ha, hfl, rfl⟩)
      · rename_i hcach hf
        unfold checkedSucc
        split_ifs with hn
        · cases admitted with
          | none => exact .refused _ nofun nofun
          | some _ =>
            exact .leader _ _ rfl (leads_led h scopes (eq_false_of_ne_true hs) ha hf)
        · exact .refused _ nofun nofun

end SessionRegistry

end Keld.Auth
