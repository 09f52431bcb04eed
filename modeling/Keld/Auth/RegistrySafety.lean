/-
# `Keld.Auth.RegistrySafety` — the laws of a registry over every run

Each move keeps the invariant: it looks at the one account it addresses and at
the flights that come and go.  The laws of a run follow, among them that a late
callback finds nothing to do.
-/
import Keld.Auth.RegistryLaw

namespace Keld.Auth

open List SessionRegistry RegistrySession

/-! ## One account -/

section Accounts

variable {log : List RegistryFact} {accountId : Text} {account account' : Account}
  {key : ScopeKey} {flight : Flight}

theorem get?_of_erase {flights flights' : OrdMap ScopeKey Flight} {j : ScopeKey} {other : Flight}
    (hfls : flights' = flights.erase key) (h : flights'.get? j = some other) :
    j ≠ key ∧ flights.get? j = some other := by
  rw [hfls, OrdMap.get?_erase] at h
  split_ifs at h with hj
  exact ⟨hj, h⟩

theorem AccountOk.settle {result : TokenOutcome} (h : AccountOk log accountId account)
    (hfl : account.flights.get? key = some flight)
    (hse : Settles account account' key flight.serial result) :
    AccountOk (log ++ [.completed ⟨⟨accountId, flight.serial⟩, result⟩]) accountId account' where
  keyed key' flight' hfl' := h.keyed key' flight' (get?_of_erase hse.flights hfl').2
  led key' flight' hfl' := mem_append_left _ (h.led key' flight' (get?_of_erase hse.flights hfl').2)
  single key₁ key₂ flight₁ flight₂ h₁ h₂ :=
    h.single key₁ key₂ flight₁ flight₂ (get?_of_erase hse.flights h₁).2
      (get?_of_erase hse.flights h₂).2
  owner serial := by
    rw [hse.refreshOwner]
    constructor
    · intro ho
      split_ifs at ho with hs
      obtain ⟨key', flight', hfl', hser, ha⟩ := (h.owner serial).mp ho
      refine ⟨key', flight', ?_, hser, ha⟩
      rw [hse.flights, OrdMap.get?_erase, if_neg]
      · exact hfl'
      · rintro rfl
        rw [hfl] at hfl'
        cases hfl'
        exact hs (ho.trans (congrArg some hser.symm))
    · rintro ⟨key', flight', hfl', hser, ha⟩
      obtain ⟨hne, hb⟩ := get?_of_erase hse.flights hfl'
      have ho := (h.owner serial).mpr ⟨key', flight', hb, hser, ha⟩
      rw [if_neg]
      · exact ho
      · intro hs
        have hsers : flight'.serial = flight.serial := by
          rw [hs] at ho
          exact hser.trans (Option.some.inj ho).symm
        exact hne (h.single key' key flight' flight hb hfl hsers)
  cached key' outcome hca := by
    rcases hse.cached with hs | hn | ⟨token, hres, hnew⟩
    · rw [hs] at hca
      obtain ⟨token, hto, hobt⟩ := h.cached key' outcome hca
      exact ⟨token, hto, hobt.append _⟩
    · rw [hn] at hca
      cases hca
    · rw [hnew] at hca
      obtain ⟨rfl, rfl⟩ := Prod.mk.inj (Option.some.inj hca)
      refine ⟨token, hres, .inr ⟨flight.serial, flight.requestedScopes, ?_, ?_, ?_⟩⟩
      · exact mem_append_left _ (h.led key flight hfl)
      · exact h.keyed key flight hfl
      · rw [hres]
        exact mem_concat_self
  registered := by
    rw [accountIds_append]
    exact mem_append_left _ h.registered

variable {serial : ℕ}

theorem AccountOk.lead {scopes : Option (List Text)} (h : AccountOk log accountId account)
    (hfr : account.flights.get? (scopeKey scopes) = none)
    (hf : ∀ key flight, account.flights.get? key = some flight → flight.serial ≠ serial)
    (hfls : account'.flights = account.flights.insert (scopeKey scopes) ⟨serial, scopes,
      .awaitingRefresh⟩)
    (how : account'.refreshOwner = account.refreshOwner)
    (hca : account'.cached = account.cached) :
    AccountOk (log ++ [.leader ⟨accountId, serial⟩ scopes]) accountId account' := by
  have hg : ∀ key flight, account'.flights.get? key = some flight →
      key = scopeKey scopes ∧ flight = ⟨serial, scopes, .awaitingRefresh⟩ ∨
        key ≠ scopeKey scopes ∧ account.flights.get? key = some flight := by
    intro key flight hfl
    rw [hfls, OrdMap.get?_insert] at hfl
    split_ifs at hfl with hk
    · exact .inl ⟨hk, (Option.some.inj hfl).symm⟩
    · exact .inr ⟨hk, hfl⟩
  exact
    { keyed := fun key flight hfl => by
        rcases hg key flight hfl with ⟨rfl, rfl⟩ | ⟨-, ho⟩
        · rfl
        · exact h.keyed key flight ho
      led := fun key flight hfl => by
        rcases hg key flight hfl with ⟨rfl, rfl⟩ | ⟨-, ho⟩
        · exact mem_concat_self
        · exact mem_append_left _ (h.led key flight ho)
      single := fun key₁ key₂ flight₁ flight₂ h₁ h₂ hser => by
        rcases hg key₁ flight₁ h₁ with ⟨rfl, rfl⟩ | ⟨-, ho₁⟩
        · rcases hg key₂ flight₂ h₂ with ⟨rfl, rfl⟩ | ⟨-, ho₂⟩
          · rfl
          · exact absurd hser.symm (hf key₂ flight₂ ho₂)
        · rcases hg key₂ flight₂ h₂ with ⟨rfl, rfl⟩ | ⟨-, ho₂⟩
          · exact absurd hser (hf key₁ flight₁ ho₁)
          · exact h.single key₁ key₂ flight₁ flight₂ ho₁ ho₂ hser
      owner := fun n => by
        rw [how, h.owner n]
        constructor
        · rintro ⟨key, flight, hfl, hser, ha⟩
          refine ⟨key, flight, ?_, hser, ha⟩
          rw [hfls, OrdMap.get?_insert, if_neg]
          · exact hfl
          · rintro rfl
            rw [hfr] at hfl
            cases hfl
        · rintro ⟨key, flight, hfl, hser, ha⟩
          rcases hg key flight hfl with ⟨rfl, rfl⟩ | ⟨-, ho⟩
          · cases ha
          · exact ⟨key, flight, ho, hser, ha⟩
      cached := fun key outcome hc => by
        obtain ⟨token, hto, hobt⟩ := h.cached key outcome (hca ▸ hc)
        exact ⟨token, hto, hobt.append _⟩
      registered := by
        rw [accountIds_append]
        exact mem_append_left _ h.registered }

theorem AccountOk.start (h : AccountOk log accountId account)
    (hfl : account.flights.get? key = some flight) (hser : flight.serial = serial)
    (hf : account.refreshOwner = none) :
    AccountOk log accountId
      { account with
        refreshOwner := some serial
        flights := account.flights.set key { flight with phase := .active } } := by
  have hg : ∀ key' flight',
      (account.flights.set key { flight with phase := .active }).get? key' = some flight' →
        key' = key ∧ flight' = { flight with phase := .active } ∨
          key' ≠ key ∧ account.flights.get? key' = some flight' := by
    intro key' flight' h'
    rw [OrdMap.get?_set hfl] at h'
    split_ifs at h' with hk
    · exact .inl ⟨hk, (Option.some.inj h').symm⟩
    · exact .inr ⟨hk, h'⟩
  exact
    { keyed := fun key' flight' h' => by
        rcases hg key' flight' h' with ⟨rfl, rfl⟩ | ⟨-, ho⟩
        · exact h.keyed _ flight hfl
        · exact h.keyed key' flight' ho
      led := fun key' flight' h' => by
        rcases hg key' flight' h' with ⟨rfl, rfl⟩ | ⟨-, ho⟩
        · exact h.led _ flight hfl
        · exact h.led key' flight' ho
      single := fun key₁ key₂ flight₁ flight₂ h₁ h₂ hs => by
        rcases hg key₁ flight₁ h₁ with ⟨rfl, rfl⟩ | ⟨-, ho₁⟩
        · rcases hg key₂ flight₂ h₂ with ⟨rfl, rfl⟩ | ⟨-, ho₂⟩
          · rfl
          · exact h.single _ key₂ flight flight₂ hfl ho₂ hs
        · rcases hg key₂ flight₂ h₂ with ⟨rfl, rfl⟩ | ⟨-, ho₂⟩
          · exact h.single key₁ _ flight₁ flight ho₁ hfl hs
          · exact h.single key₁ key₂ flight₁ flight₂ ho₁ ho₂ hs
      owner := fun n => by
        constructor
        · intro how
          refine ⟨key, { flight with phase := .active }, ?_, ?_, rfl⟩
          · rw [OrdMap.get?_set hfl, if_pos rfl]
          · exact hser.trans (Option.some.inj how)
        · rintro ⟨key', flight', h', hn, ha⟩
          rcases hg key' flight' h' with ⟨rfl, rfl⟩ | ⟨-, ho⟩
          · exact congrArg some (hser.symm.trans hn)
          · have how := (h.owner n).mpr ⟨key', flight', ho, hn, ha⟩
            rw [hf] at how
            cases how
      cached := h.cached
      registered := h.registered }

end Accounts

/-! ## The moves -/

namespace RegistryInv

variable {s : RegistrySession} {accountId : Text} {account : Account}

theorem nodup_leaders (h : RegistryInv s) : (leaders s.log).Nodup :=
  List.Nodup.of_map FlightId.serial (h.serials.imp ne_of_lt)

theorem lt_fresh (h : RegistryInv s) (ha : s.registry.accounts.get? accountId = some account)
    {key : ScopeKey} {flight : Flight} (hfl : account.flights.get? key = some flight) :
    flight.serial ≠ s.registry.nextFlight + 1 := by
  have hled := (h.accounts accountId account ha).led key flight hfl
  have hb := h.bound ⟨accountId, flight.serial⟩ (mem_filterMap.mpr ⟨_, hled, rfl⟩)
  exact ne_of_lt (Nat.lt_succ_of_le hb)

variable {other : Text} {otherAccount : Account} {registry : SessionRegistry}
  {facts : List RegistryFact}

section

variable (h : RegistryInv s)
include h

theorem accountOk_of_ne (facts : List RegistryFact)
    (ho : s.registry.accounts.get? other = some otherAccount) :
    AccountOk (s.log ++ facts) other otherAccount := (h.accounts other otherAccount ho).append facts

/-- An account is written through and a fact about it is noted. -/
theorem accounts_set (facts : List RegistryFact)
    (ha : s.registry.accounts.get? accountId = some account) {account' : Account}
    (hok : AccountOk (s.log ++ facts) accountId account')
    (ho : (s.registry.setAccount accountId account').accounts.get? other = some otherAccount) :
    AccountOk (s.log ++ facts) other otherAccount := by
  by_cases hne : other = accountId
  · subst hne
    rw [get?_setAccount_self ha] at ho
    cases ho
    exact hok
  · rw [get?_setAccount_of_ne ha account' hne] at ho
    exact h.accountOk_of_ne facts ho

theorem evicted_set (ha : s.registry.accounts.get? accountId = some account) (account' : Account)
    (ho : .evicted other ∈ s.log) :
    (s.registry.setAccount accountId account').accounts.get? other = none := by
  obtain ⟨hn, -⟩ := h.evicted other ho
  rw [get?_setAccount_of_ne ha account']
  · exact hn
  · rintro rfl
    rw [ha] at hn
    cases hn

/-- A move that neither leads nor completes a flight and touches no account. -/
theorem quiet (hac : registry.accounts = s.registry.accounts)
    (hnextFlight : registry.nextFlight = s.registry.nextFlight)
    (hnextAccount : registry.nextAccount = s.registry.nextAccount)
    (hsp : s.registry.stopping = true → registry.stopping = true)
    (hle : leaders facts = []) (hd : completions facts = []) (hids : accountIds facts = [])
    (hev : ∀ accountId, .evicted accountId ∉ facts) (hstpd : .stopped ∉ facts) :
    RegistryInv (s.note registry facts) where
  accounts other otherAccount ho := by
    refine h.accountOk_of_ne facts ?_
    rw [← hac]
    exact ho
  accounted := by
    have hl : registry.live = s.registry.live := by
      unfold live
      rw [hac]
    simpa [note, hle, hd, hl] using h.accounted
  serials := by simpa [note, hle] using h.serials
  bound := by simpa [note, hle, hnextFlight] using h.bound
  ids := by simpa [note, hids] using h.ids
  idBound := by simpa [note, hids, hnextAccount] using h.idBound
  evicted other ho := by
    rcases mem_append.mp ho with hb | hnow
    · obtain ⟨hn, hid⟩ := h.evicted other hb
      refine ⟨?_, ?_⟩
      · change registry.accounts.get? other = none
        rw [hac]
        exact hn
      · change other ∈ accountIds (s.log ++ facts)
        rw [accountIds_append]
        exact mem_append_left _ hid
    · exact absurd hnow (hev other)
  stopped hs := by
    rcases mem_append.mp hs with hb | hnow
    · obtain ⟨hst, hl⟩ := h.stopped hb
      refine ⟨hsp hst, ?_⟩
      change registry.live = []
      unfold live at hl ⊢
      rw [hac]
      exact hl
    · exact absurd hnow hstpd

theorem fresh_id (entropy : List Byte) (hne : s.registry.nextAccount + 1 < 2 ^ 64) :
    accountIdOf entropy (s.registry.nextAccount + 1) ∉ accountIds s.log := by
  intro hm
  obtain ⟨entropy', n, he, hn⟩ := h.idBound _ hm
  have := accountIdOf_injective hne (Nat.lt_of_le_of_lt hn (by omega)) he
  omega

theorem get?_fresh (entropy : List Byte) (hn : s.registry.nextAccount + 1 < 2 ^ 64) :
    s.registry.accounts.get? (accountIdOf entropy (s.registry.nextAccount + 1)) = none := by
  cases hg : s.registry.accounts.get? (accountIdOf entropy (s.registry.nextAccount + 1)) with
  | none => rfl
  | some old => exact absurd (h.accounts _ old hg).registered (h.fresh_id entropy hn)

theorem registered (entropy : List Byte) (scopes : Option (List Text))
    (initial : Option AccessToken) (hne : s.registry.nextAccount + 1 < 2 ^ 64)
    (hfls : account.flights = .empty) (how : account.refreshOwner = none)
    (hca : ∀ key outcome, account.cached = some (key, outcome) →
      ∃ token, initial = some token ∧ outcome = .ok token ∧ key = scopeKey scopes) :
    RegistryInv (s.note
      { s.registry with
        nextAccount := s.registry.nextAccount + 1
        accounts := s.registry.accounts.insert
          (accountIdOf entropy (s.registry.nextAccount + 1)) account }
      [.registered (accountIdOf entropy (s.registry.nextAccount + 1)) scopes initial]) := by
  have hnew := h.fresh_id entropy hne
  have hf := h.get?_fresh entropy hne
  exact
    { accounts := fun other otherAccount ho => by
        change (s.registry.accounts.insert _ account).get? other = some otherAccount at ho
        rw [OrdMap.get?_insert] at ho
        split_ifs at ho with hsa
        · cases ho
          subst hsa
          exact
            { keyed := by simp [hfls]
              led := by simp [hfls]
              single := by simp [hfls]
              owner := by simp [hfls, how]
              cached := fun key outcome hc => by
                obtain ⟨token, hin, hou, hk⟩ := hca key outcome hc
                refine ⟨token, hou, .inl ⟨scopes, ?_, hk.symm⟩⟩
                rw [← hin]
                exact mem_concat_self
              registered := by simp [note] }
        · exact h.accountOk_of_ne _ ho
      accounted := by
        have hl := live_insert hf hfls
        simp only [note, leaders_append, completions_append, leaders_cons,
          completions_cons, RegistryFact.led, RegistryFact.done, Option.toList_none, leaders_nil,
          completions_nil, append_nil]
        exact (List.Perm.append_left _ hl).trans h.accounted
      serials := by simpa [note] using h.serials
      bound := by simpa [note] using h.bound
      ids := by
        simp only [note, accountIds_append]
        refine List.Nodup.append h.ids (nodup_singleton _) ?_
        intro other hb hnow
        obtain rfl := mem_singleton.mp hnow
        exact hnew hb
      idBound := fun other ho => by
        simp only [note, accountIds_append] at ho
        rcases mem_snoc.mp ho with hb | hnow
        · obtain ⟨entropy', n, he, hn⟩ := h.idBound other hb
          exact ⟨entropy', n, he, Nat.le_succ_of_le hn⟩
        · exact ⟨entropy, _, hnow, le_rfl⟩
      evicted := fun other ho => by
        have hb : .evicted other ∈ s.log := by simpa [note] using ho
        obtain ⟨hno, hid⟩ := h.evicted other hb
        refine ⟨?_, ?_⟩
        · change (s.registry.accounts.insert _ account).get? other = none
          rw [OrdMap.get?_insert, if_neg]
          · exact hno
          · rintro rfl
            exact hnew hid
        · simp only [note, accountIds_append]
          exact mem_append_left _ hid
      stopped := fun hs => by
        have hb : .stopped ∈ s.log := by simpa [note] using hs
        obtain ⟨hst, hl⟩ := h.stopped hb
        refine ⟨hst, ?_⟩
        have hp := live_insert hf hfls
        rw [hl] at hp
        exact hp.eq_nil }

theorem led (scopes : Option (List Text)) (hst : s.registry.stopping = false)
    (ha : s.registry.accounts.get? accountId = some account)
    (hf : account.flights.get? (scopeKey scopes) = none) :
    RegistryInv (s.note
      { s.registry.setAccount accountId
          { account with
            flights := account.flights.insert (scopeKey scopes)
              { serial := s.registry.nextFlight + 1
                requestedScopes := scopes
                phase := .awaitingRefresh } } with
        nextFlight := s.registry.nextFlight + 1 }
      [.leader ⟨accountId, s.registry.nextFlight + 1⟩ scopes]) where
  accounts other otherAccount ho := by
    have hok : AccountOk (s.log ++ [.leader ⟨accountId, s.registry.nextFlight + 1⟩ scopes])
        accountId
        { account with
          flights := account.flights.insert (scopeKey scopes)
            { serial := s.registry.nextFlight + 1
              requestedScopes := scopes
              phase := .awaitingRefresh } } :=
      (h.accounts accountId account ha).lead hf (fun _ _ hfl => h.lt_fresh ha hfl) rfl rfl rfl
    exact h.accounts_set _ ha hok ho
  accounted := by
    have hl := (live_setAccount ha
      { account with
        flights := account.flights.insert (scopeKey scopes)
          { serial := s.registry.nextFlight + 1
            requestedScopes := scopes
            phase := .awaitingRefresh } }).trans
      ((Account.flightIds_insert accountId hf rfl).append_right _)
    have hr := (List.Perm.append_left (completions s.log) (live_perm ha).symm).trans h.accounted
    simp only [note, leaders_append, completions_append, leaders_cons,
      completions_cons, RegistryFact.led, RegistryFact.done, Option.toList_none,
      Option.toList_some, leaders_nil, completions_nil, append_nil]
    refine (List.Perm.append_left _ hl).trans ?_
    rw [cons_append]
    exact perm_middle.trans ((hr.cons _).trans (perm_append_singleton _ _).symm)
  serials := by
    simp only [note, leaders_append, map_append, pairwise_append]
    refine ⟨h.serials, pairwise_singleton .., ?_⟩
    intro m hm n hn
    obtain ⟨flight, hfl, rfl⟩ := mem_map.mp hm
    obtain rfl := mem_singleton.mp hn
    exact Nat.lt_succ_of_le (h.bound flight hfl)
  bound flight hfl := by
    simp only [note, leaders_append] at hfl
    rcases mem_snoc.mp hfl with hb | hnow
    · exact Nat.le_succ_of_le (h.bound flight hb)
    · obtain rfl := hnow
      exact le_rfl
  ids := by simpa [note] using h.ids
  idBound := by simpa [note, setAccount] using h.idBound
  evicted other ho := by
    have hb : .evicted other ∈ s.log := by simpa [note] using ho
    refine ⟨h.evicted_set ha _ hb, ?_⟩
    simp only [note, accountIds_append]
    exact mem_append_left _ (h.evicted other hb).2
  stopped hs := by
    have hb : .stopped ∈ s.log := by simpa [note] using hs
    rw [(h.stopped hb).1] at hst
    cases hst

theorem started {id : FlightId} {key : ScopeKey} {flight : Flight}
    (hc : s.registry.current id = some (account, key, flight))
    (how : account.refreshOwner = none) :
    RegistryInv (s.note
      (s.registry.setAccount id.accountId
        { account with
          refreshOwner := some id.serial
          flights := account.flights.set key { flight with phase := .active } }) []) := by
  obtain ⟨ha, hfl, hser⟩ := current_spec hc
  have hok := (h.accounts id.accountId account ha).start hfl hser how
  have hids : (Account.flightIds
      { account with
        refreshOwner := some id.serial
        flights := account.flights.set key { flight with phase := .active } } id.accountId).Perm
      (account.flightIds id.accountId) :=
    Account.flightIds_set id.accountId hfl
      (show ({ flight with phase := .active } : Flight).serial = flight.serial from rfl) rfl
  have hl := ((live_setAccount ha _).trans (hids.append_right _)).trans (live_perm ha).symm
  exact
    { accounts := fun other otherAccount ho =>
        h.accounts_set [] ha (hok.append []) ho
      accounted := by
        simp only [note, append_nil]
        exact (List.Perm.append_left _ hl).trans h.accounted
      serials := by simpa [note] using h.serials
      bound := by simpa [note, setAccount] using h.bound
      ids := by simpa [note] using h.ids
      idBound := by simpa [note, setAccount] using h.idBound
      evicted := fun other ho => by
        simp only [note, append_nil] at ho ⊢
        exact ⟨h.evicted_set ha _ ho, (h.evicted other ho).2⟩
      stopped := fun hs => by
        simp only [note, append_nil] at hs ⊢
        obtain ⟨hst, hn⟩ := h.stopped hs
        rw [hn] at hl
        exact ⟨hst, hl.eq_nil⟩ }

theorem settled {id : FlightId} {account' : Account} {key : ScopeKey}
    {flight : Flight} {result : TokenOutcome}
    (hc : s.registry.current id = some (account, key, flight))
    (hse : Settles account account' key id.serial result) :
    RegistryInv (s.note (s.registry.setAccount id.accountId account') [.completed ⟨id, result⟩]) := by
  obtain ⟨ha, hfl, hser⟩ := current_spec hc
  have hok : AccountOk (s.log ++ [.completed ⟨id, result⟩]) id.accountId account' := by
    rw [← hser] at hse
    have hsetd := (h.accounts id.accountId account ha).settle hfl hse
    rwa [hser] at hsetd
  have hl : s.registry.live.Perm (id :: (s.registry.setAccount id.accountId account').live) := by
    refine (live_perm ha).trans ?_
    refine ((Account.flightIds_erase id.accountId hfl hse.flights).append_right _).trans ?_
    rw [hser, cons_append]
    exact (live_setAccount ha account').symm.cons _
  exact
    { accounts := fun other otherAccount ho => h.accounts_set _ ha hok ho
      accounted := by
        simp only [note, leaders_append, completions_append, leaders_cons,
          completions_cons, RegistryFact.led, RegistryFact.done, Option.toList_none,
          Option.toList_some, leaders_nil, completions_nil, append_nil, append_assoc]
        exact (List.Perm.append_left _ hl.symm).trans h.accounted
      serials := by simpa [note] using h.serials
      bound := by simpa [note, setAccount] using h.bound
      ids := by simpa [note] using h.ids
      idBound := by simpa [note, setAccount] using h.idBound
      evicted := fun other ho => by
        have hb : .evicted other ∈ s.log := by simpa [note] using ho
        refine ⟨h.evicted_set ha _ hb, ?_⟩
        simp only [note, accountIds_append]
        exact mem_append_left _ (h.evicted other hb).2
      stopped := fun hs => by
        have hb : .stopped ∈ s.log := by simpa [note] using hs
        rw [(h.stopped hb).2] at hl
        exact absurd hl.symm.eq_nil (cons_ne_nil _ _) }

end

section

variable (flights : List FlightId) (result : TokenOutcome)
include flights result

theorem completions_of_completed :
    completions (flights.map fun flight => .completed ⟨flight, result⟩) = flights := by
  induction flights with
  | nil => rfl
  | cons flight flights ih =>
    rw [map_cons, completions_cons, ih]
    rfl

theorem leaders_of_completed :
    leaders (flights.map fun flight => .completed ⟨flight, result⟩) = [] := by
  induction flights with
  | nil => rfl
  | cons flight flights ih =>
    rw [map_cons, leaders_cons, ih]
    rfl

theorem accountIds_of_completed :
    accountIds (flights.map fun flight => .completed ⟨flight, result⟩) = [] := by
  induction flights with
  | nil => rfl
  | cons flight flights ih =>
    rw [map_cons, accountIds_cons, ih]
    rfl

end

theorem evict (h : RegistryInv s) (error : CallError)
    (ha : s.registry.accounts.get? accountId = some account) :
    RegistryInv (s.note { s.registry with accounts := s.registry.accounts.erase accountId }
      ((account.flightIds accountId).map (fun flight => .completed ⟨flight, .error error⟩) ++
        [.evicted accountId])) where
  accounts other otherAccount ho := by
    have hes : (s.registry.accounts.erase accountId).get? other = some otherAccount := ho
    rw [OrdMap.get?_erase] at hes
    split_ifs at hes with hsa
    exact h.accountOk_of_ne _ hes
  accounted := by
    simp only [note, leaders_append, completions_append,
      completions_of_completed, leaders_of_completed, leaders_cons, completions_cons,
      RegistryFact.led, RegistryFact.done, Option.toList_none, leaders_nil, completions_nil,
      append_nil, append_assoc]
    exact (List.Perm.append_left _ (live_perm ha).symm).trans h.accounted
  serials := by
    simpa [note, leaders_of_completed] using h.serials
  bound := by simpa [note, leaders_of_completed] using h.bound
  ids := by simpa [note, accountIds_of_completed] using h.ids
  idBound := by simpa [note, accountIds_of_completed] using h.idBound
  evicted other ho := by
    have hids : accountIds (s.log ++ ((account.flightIds accountId).map
        (fun flight => .completed ⟨flight, .error error⟩) ++ [.evicted accountId])) =
          accountIds s.log := by simp [accountIds_of_completed]
    have hca : .evicted other ∈ s.log ∨ other = accountId := by
      simpa [note] using ho
    change (s.registry.accounts.erase accountId).get? other = none ∧ other ∈ accountIds (s.log ++ _)
    rw [hids, OrdMap.get?_erase]
    rcases hca with hb | rfl
    · obtain ⟨hn, hid⟩ := h.evicted other hb
      rw [hn]
      exact ⟨ite_self _, hid⟩
    · exact ⟨if_pos rfl, (h.accounts other account ha).registered⟩
  stopped hs := by
    have hb : .stopped ∈ s.log := by simpa [note] using hs
    obtain ⟨hst, hn⟩ := h.stopped hb
    refine ⟨hst, ?_⟩
    have hl := live_perm ha
    rw [hn] at hl
    exact (append_eq_nil_iff.mp hl.symm.eq_nil).2

theorem tail_facts (r : SessionRegistry) :
    completions (r.stopForHostTail.1.map .completed) = r.live ∧
      leaders (r.stopForHostTail.1.map .completed) = [] ∧
        accountIds (r.stopForHostTail.1.map .completed) = [] := by
  unfold stopForHostTail
  rw [map_map]
  exact ⟨completions_of_completed _ _, leaders_of_completed _ _, accountIds_of_completed _ _⟩

theorem tail (h : RegistryInv s) :
    RegistryInv (s.note s.registry.stopForHostTail.2
      (s.registry.stopForHostTail.1.map .completed ++ [.stopped])) := by
  obtain ⟨hd, hled, hids⟩ := tail_facts s.registry
  exact
    { accounts := fun other otherAccount ho => by
        have hma : (s.registry.accounts.map fun account =>
            { account with
              flights := .empty
              refreshOwner := none }).get? other = some otherAccount := ho
        rw [OrdMap.get?_map] at hma
        obtain ⟨account, ha, rfl⟩ := Option.map_eq_some_iff.mp hma
        have hok := h.accountOk_of_ne (s.registry.stopForHostTail.1.map .completed ++ [.stopped]) ha
        exact
          { keyed := by simp
            led := by simp
            single := by simp
            owner := by simp
            cached := hok.cached
            registered := hok.registered }
      accounted := by
        simp only [note, leaders_append, completions_append, hd, hled,
          live_tail, leaders_cons, completions_cons, RegistryFact.led,
          RegistryFact.done, Option.toList_none, leaders_nil, completions_nil, append_nil]
        exact h.accounted
      serials := by simpa [note, hled] using h.serials
      bound := fun flight hfl => by
        have hb : flight ∈ leaders s.log := by
          simpa [note, hled] using hfl
        exact h.bound flight hb
      ids := by simpa [note, hids] using h.ids
      idBound := fun other ho => by
        have hb : other ∈ accountIds s.log := by
          simpa [note, hids] using ho
        exact h.idBound other hb
      evicted := fun other ho => by
        have hb : .evicted other ∈ s.log := by simpa [note] using ho
        obtain ⟨hn, hid⟩ := h.evicted other hb
        refine ⟨?_, ?_⟩
        · change (s.registry.accounts.map _).get? other = none
          rw [OrdMap.get?_map, hn]
          rfl
        · simp only [note, accountIds_append]
          exact mem_append_left _ hid
      stopped := fun _ => ⟨rfl, live_tail _⟩ }

theorem move (h : RegistryInv s) (hmo : RegistryMove s.registry registry facts) :
    RegistryInv (s.note registry facts) := by
  cases hmo with
  | idle => exact h.quiet rfl rfl rfl id rfl rfl rfl (by simp) (by simp)
  | ready accountId scopes outcome now account ha hca =>
    exact h.quiet rfl rfl rfl id rfl rfl rfl (by simp) (by simp)
  | registered entropy account scopes initial hn hfls ho hca =>
    exact h.registered entropy scopes initial hn hfls ho hca
  | led accountId scopes account hs ha hf =>
    exact h.led scopes hs ha hf
  | started id account key flight hc ho => exact h.started hc ho
  | settled id account account' key flight result hc hse =>
    exact h.settled hc hse
  | evicted id account error ha => exact h.evict error ha
  | closed => exact h.quiet rfl rfl rfl (fun _ => rfl) rfl rfl rfl (by simp) (by simp)
  | tail => exact h.tail

end RegistryInv

theorem run_registryInv (ops : List RegistryOp) : RegistryInv (run ops) := by
  induction ops using reverseRecOn with
  | nil =>
    exact
      { accounts := by simp [run]
        accounted := List.Perm.refl _
        serials := List.Pairwise.nil
        bound := by simp [run]
        ids := nodup_nil
        idBound := by simp [run]
        evicted := by simp [run]
        stopped := by simp [run] }
  | append_singleton ops op ih =>
    rw [run_snoc]
    obtain ⟨registry, facts, hmo, hs⟩ := (run ops).step_steps op
    rw [hs]
    exact ih.move hmo

variable {now : ℕ} {r registry' : SessionRegistry}

/-- An identity that no live flight has. -/
def SessionRegistry.Retired (r : SessionRegistry) (id : FlightId) : Prop := id ∉ r.live

theorem current_of_retired {id : FlightId} (h : r.Retired id) : r.current id = none := by
  cases hc : r.current id with
  | none => rfl
  | some entry =>
    obtain ⟨account, key, flight⟩ := entry
    obtain ⟨ha, hfl, hser⟩ := current_spec hc
    refine absurd ?_ h
    refine mem_flatMap.mpr ⟨(id.accountId, account), OrdMap.mem_toList_iff.mpr ha, ?_⟩
    refine mem_map.mpr ⟨flight, OrdMap.mem_values_iff.mpr ⟨key, hfl⟩, ?_⟩
    rw [hser]

end Keld.Auth
