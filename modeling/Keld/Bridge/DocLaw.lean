/-
# `Keld.Bridge.DocLaw` — the one call that four parties each believe in

A call of the page is, at any time, in exactly one place: a message of the
window, the relay's queue, posted to the host, pending there, or answered by a
script that the document has yet to evaluate.  Whoever holds it believes that it
is there, and `DocInv` says that all of them do, as long as the host has handled
no call of an earlier document in the meantime.
-/
import Keld.Bridge.HostLaw

namespace Keld.Bridge

open List WindowMessage BridgeState

/-! ## Where a call is -/

def WindowMessage.request : WindowMessage → ℕ
  | .invoke call => call.request
  | .result outcome => outcome.request

/-- The request of a call that the document `document` posted. -/
def postedBy (document : ℕ) : ℕ × WvLinkEnvelope → Option ℕ
  | (issuer, .invoke _ call) => if issuer = document then some call.request else none
  | (_, .bind) => none

def Evaluation.answers : Evaluation → Option ℕ
  | .bind _ => none
  | .result outcome => some outcome.request

namespace Bridge

/-- The requests of the current document that the host has, or has answered. -/
def atHost (s : Bridge) : List ℕ :=
  s.outbound.filterMap (postedBy s.document) ++ s.native.pending.toList.map (·.request) ++
    s.inbound.filterMap Evaluation.answers

/-- The requests of the current document that are under way. -/
def tokens (s : Bridge) : List ℕ :=
  s.window.map request ++ s.relay.queued.toList.map (·.request) ++ s.atHost

/-- Nothing ended the conversation, and no call of an earlier document was taken for one of the
current. -/
def Undisturbed (s : Bridge) : Prop := s.crossed = false ∧ s.native.destroyed = false

end Bridge

/-- For the web view at `address`. -/
structure DocInv (address : ℕ) (s : Bridge) : Prop where
  tokens : s.tokens = s.facade.pending.toList
  inflight : s.relay.inflight = true ↔ s.atHost ≠ []
  window : ∀ call, .invoke call ∈ s.window → call.WellFormed s.native.admittedChannel
  queued : ∀ call, s.relay.queued = some call → call.WellFormed s.native.admittedChannel
  posted : ∀ n call, (s.document, .invoke n call) ∈ s.outbound →
    call.WellFormed s.native.admittedChannel ∧ s.native.documentNonce = some n
  accepts : s.native.documentNonce ≠ none → s.native.acceptsWebview address = true
  inbound : ∀ n, .bind n ∈ s.inbound → s.native.documentNonce = some n
  relay : ∀ n, s.relay.documentNonce = some n → s.native.documentNonce = some n

theorem append_cons_eq_toList {α : Type} {l r : List α} {a : α} {o : Option α}
    (h : l ++ a :: r = o.toList) : l = [] ∧ r = [] ∧ o = some a := by
  cases o with
  | none => simp at h
  | some b =>
    cases l with
    | nil =>
      obtain ⟨rfl, rfl⟩ := List.cons.inj h
      exact ⟨rfl, rfl, rfl⟩
    | cons x l => simp at h

theorem requestId_wellFormed (n : ℕ) : 0 < requestId n ∧ requestId n ≤ 0xffffffff := by
  unfold requestId
  split <;> omega

variable {admittedChannel : ℕ}

/-- What the facade posts passes the relay's check. -/
theorem accepts_wellFormed {facade : Facade} {args : InvokeArguments} {payload : List Byte}
    (h : facade.accepts admittedChannel args = some payload) :
    facade.pending = none ∧
      (⟨requestId facade.nextRequest, admittedChannel, payload⟩ : RelayCall).WellFormed
        admittedChannel := by
  unfold Facade.accepts at h
  obtain ⟨opts, channel, bytes⟩ := args
  cases opts with
  | true => simp at h
  | false =>
    cases channel with
    | none => simp at h
    | some channel =>
      cases bytes with
      | none => simp at h
      | some bytes =>
        simp only [Bool.false_eq_true, if_false, Option.bind_eq_bind, Option.pure_def,
          Option.bind_some] at h
        split at h
        · exact nomatch h
        · split at h
          · exact nomatch h
          · split at h
            · exact nomatch h
            · split at h
              · exact nomatch h
              · rename_i hrange hc hl hp
                cases h
                obtain ⟨hpos, hle⟩ := requestId_wellFormed facade.nextRequest
                have hi := Option.not_isSome_iff_eq_none.mp hp
                refine ⟨hi, hpos, hle, ?_, ?_, rfl, ?_⟩
                · show 0 < admittedChannel
                  omega
                · show admittedChannel ≤ 0xffff
                  omega
                · show payload.length ≤ _
                  omega

theorem RelayCall.WellFormed.envelope {call : RelayCall} (h : call.WellFormed admittedChannel)
    (n : Nonce) :
    (WvLinkEnvelope.invoke n call).WellFormed := by
  obtain ⟨hreq, hreq', hc, hc', -, hpay⟩ := h
  exact ⟨by omega, by omega, by omega, by omega, hpay⟩

section Steps

variable {address : ℕ} {s : Bridge}

theorem DocInv.pageInvoke (h : DocInv address s) (args : InvokeArguments) :
    DocInv address (s.pageInvoke args) := by
  unfold Bridge.pageInvoke Facade.invoke
  cases hac : s.facade.accepts s.native.admittedChannel args with
  | none =>
    show DocInv address { s with window := s.window ++ [] }
    rw [append_nil]
    exact h
  | some payload =>
    obtain ⟨hi, hwe⟩ := accepts_wellFormed hac
    have hn : s.tokens = [] := by rw [h.tokens, hi]; exact rfl
    refine ⟨?_, h.inflight, ?_, h.queued, h.posted, h.accepts, h.inbound, h.relay⟩
    · obtain ⟨hl, hho⟩ := append_eq_nil_iff.mp hn
      obtain ⟨hw, hque⟩ := append_eq_nil_iff.mp hl
      show (s.window ++ [_]).map request ++ s.relay.queued.toList.map (·.request) ++ s.atHost = _
      rw [map_append, hw, hque, hho]
      rfl
    · intro call hm
      rcases mem_snoc.mp hm with ho | he
      · exact h.window call ho
      · cases he
        exact hwe

theorem tokens_window {message : WindowMessage} {rest : List WindowMessage}
    (h : DocInv address s) (hw : s.window = message :: rest) :
    rest = [] ∧ s.relay.queued = none ∧ s.atHost = [] ∧ s.facade.pending = some message.request := by
  have hto := h.tokens
  unfold Bridge.tokens at hto
  rw [hw] at hto
  obtain ⟨-, hr, hp⟩ := append_cons_eq_toList (l := []) hto
  obtain ⟨hl, hho⟩ := append_eq_nil_iff.mp hr
  obtain ⟨hmap, hque⟩ := append_eq_nil_iff.mp hl
  exact ⟨map_eq_nil_iff.mp hmap, by simpa using hque, hho, hp⟩

theorem DocInv.idle (h : DocInv address s) (hho : s.atHost = []) : s.relay.inflight = false := by
  by_contra hne
  exact h.inflight.mp (Bool.eq_true_of_not_eq_false hne) hho

theorem DocInv.dispatch (h : DocInv address s) : DocInv address s.dispatch := by
  unfold Bridge.dispatch
  split
  · exact h
  · rename_i outcome rest hw
    obtain ⟨rfl, hque, hho, hp⟩ := tokens_window h hw
    refine ⟨?_, h.inflight, nofun, h.queued, h.posted, h.accepts, h.inbound, h.relay⟩
    have hp' : s.facade.pending = some outcome.request := hp
    show s.relay.queued.toList.map (·.request) ++ s.atHost = (s.facade.onResult outcome).pending.toList
    unfold Facade.onResult
    rw [if_pos hp', hque, hho]
    rfl
  · rename_i call rest hw
    obtain ⟨rfl, hque, hho, hp⟩ := tokens_window h hw
    have hwe := h.window call (by rw [hw]; exact mem_cons_self)
    have hi := h.idle hho
    obtain ⟨hb, han⟩ := append_eq_nil_iff.mp hho
    obtain ⟨hps, hnat⟩ := append_eq_nil_iff.mp hb
    unfold Relay.onInvoke
    rw [if_neg (not_not.mpr hwe), if_neg (by rw [hque, hi]; simp)]
    cases hnn : s.relay.documentNonce with
    | none =>
      dsimp only
      have hpo : s.post [] = s.outbound := append_nil _
      rw [hpo]
      refine ⟨?_, h.inflight, nofun, ?_, h.posted, h.accepts, h.inbound, ?_⟩
      · show [call.request] ++ s.atHost = _
        rw [hho]
        exact congrArg Option.toList hp.symm
      · intro call' hc
        cases hc
        exact hwe
      · exact fun n hn => h.relay n (hnn.trans hn)
    | some nonce =>
      have hse : s.relay.sendNative call =
          ({ s.relay with inflight := true }, [.invoke nonce call]) := by
        unfold Relay.sendNative
        split
        · rename_i hno
          exact nomatch hnn.symm.trans hno
        · rename_i nonce' hs
          cases hnn.symm.trans hs
          rw [if_neg (by simp [hi])]
      rw [hse]
      have hpt : (s.post [.invoke nonce call]).filterMap (postedBy s.document) =
          [call.request] := by
        unfold Bridge.post
        rw [filterMap_append, hps]
        simp [postedBy]
      have hho' : (s.post [.invoke nonce call]).filterMap (postedBy s.document) ++
          s.native.pending.toList.map (·.request) ++ s.inbound.filterMap Evaluation.answers =
            [call.request] := by
        rw [hpt, hnat, han]
        rfl
      refine ⟨?_, ?_, nofun, ?_, ?_, h.accepts, h.inbound, ?_⟩
      · show s.relay.queued.toList.map (·.request) ++ (_ ++ _ ++ _) = _
        rw [hque, hho']
        exact congrArg Option.toList hp.symm
      · refine iff_of_true rfl ?_
        show _ ++ _ ++ _ ≠ []
        rw [hho']
        simp
      · exact fun call' hc => nomatch hque.symm.trans hc
      · intro n call' hm
        rcases mem_post hm with ho | ⟨-, hne⟩
        · exact h.posted n call' ho
        · cases mem_singleton.mp hne
          exact ⟨hwe, h.relay nonce hnn⟩
      · exact fun n hn => h.relay n hn

theorem tokens_answer {outcome : PageOutcome} {rest : List Evaluation}
    (h : DocInv address s) (hinb : s.inbound = .result outcome :: rest) :
    s.window = [] ∧ s.relay.queued = none ∧ s.outbound.filterMap (postedBy s.document) = [] ∧
      s.native.pending = none ∧ rest.filterMap Evaluation.answers = [] ∧
        s.facade.pending = some outcome.request := by
  have hto := h.tokens
  unfold Bridge.tokens Bridge.atHost at hto
  have han : s.inbound.filterMap Evaluation.answers =
      outcome.request :: rest.filterMap Evaluation.answers := by
    rw [hinb]
    exact filterMap_cons_some rfl
  rw [han, ← append_assoc] at hto
  obtain ⟨hl, hr, hpe⟩ := append_cons_eq_toList hto
  obtain ⟨hl, hho⟩ := append_eq_nil_iff.mp hl
  obtain ⟨hw, hque⟩ := append_eq_nil_iff.mp hl
  obtain ⟨hp, hnat⟩ := append_eq_nil_iff.mp hho
  exact ⟨map_eq_nil_iff.mp hw, by simpa using hque, hp, by simpa using hnat, hr, hpe⟩

theorem DocInv.evaluate (h : DocInv address s) : DocInv address s.evaluate := by
  unfold Bridge.evaluate
  split
  · exact h
  · rename_i nonce rest hinb
    have hnn := h.inbound nonce (by rw [hinb]; exact mem_cons_self)
    have hke : ∀ n, .bind n ∈ rest → s.native.documentNonce = some n := fun n hm =>
      h.inbound n (by rw [hinb]; exact mem_cons_of_mem _ hm)
    have han : s.inbound.filterMap Evaluation.answers = rest.filterMap Evaluation.answers := by
      rw [hinb]
      rfl
    have hho : s.atHost = s.outbound.filterMap (postedBy s.document) ++
        s.native.pending.toList.map (·.request) ++ rest.filterMap Evaluation.answers := by
      unfold Bridge.atHost
      rw [han]
    have hin := h.inflight
    rw [hho] at hin
    have hto := h.tokens
    unfold Bridge.tokens at hto
    have hs : s.post [] = s.outbound := append_nil _
    dsimp only
    unfold Relay.nativeBind
    split
    · rw [hs]
      refine ⟨?_, ?_, h.window, h.queued, h.posted, h.accepts, hke, h.relay⟩
      · rw [hho] at hto
        exact hto
      · exact hin
    · cases hque : s.relay.queued with
      | none =>
        rw [hs]
        refine ⟨?_, ?_, h.window, ?_, h.posted, h.accepts, hke, ?_⟩
        · rw [hho, hque] at hto
          exact hto
        · exact hin
        · exact fun call hca => nomatch hca
        · exact fun n hn => hnn.trans hn
      | some call =>
        have hwe := h.queued call hque
        rw [hque] at hto
        have hc : s.window.map request ++ call.request :: s.atHost = s.facade.pending.toList := by
          rw [← hto, append_assoc]
          rfl
        obtain ⟨hw, hno, hpe⟩ := append_cons_eq_toList hc
        have hi := h.idle hno
        rw [hho] at hno
        obtain ⟨hl, hr⟩ := append_eq_nil_iff.mp hno
        obtain ⟨hp, hnat⟩ := append_eq_nil_iff.mp hl
        have hse : Relay.sendNative { s.relay with documentNonce := some nonce, queued := none }
            call = ({ documentNonce := some nonce, queued := none, inflight := true },
              [.invoke nonce call]) := by
          unfold Relay.sendNative
          dsimp only
          rw [if_neg (by simp [hi])]
        dsimp only
        rw [hse]
        have hpo : (s.post [.invoke nonce call]).filterMap (postedBy s.document) ++
            s.native.pending.toList.map (·.request) ++ rest.filterMap Evaluation.answers =
              [call.request] := by
          unfold Bridge.post
          rw [filterMap_append, hp, hnat, hr]
          simp [postedBy]
        refine ⟨?_, ?_, h.window, nofun, ?_, h.accepts, hke, ?_⟩
        · show s.window.map request ++ [] ++ (_ ++ _ ++ _) = _
          rw [hw, hpo, hpe]
          rfl
        · refine iff_of_true rfl ?_
          show _ ++ _ ++ _ ≠ []
          rw [hpo]
          simp
        · intro n call' hm
          rcases mem_post hm with ho | ⟨-, hne⟩
          · exact h.posted n call' ho
          · cases mem_singleton.mp hne
            exact ⟨hwe, hnn⟩
        · exact fun n hn => hnn.trans hn
  · rename_i outcome rest hinb
    obtain ⟨hw, hque, hp, hnat, hr, hpe⟩ := tokens_answer h hinb
    have hho : s.outbound.filterMap (postedBy s.document) ++
        s.native.pending.toList.map (·.request) ++ rest.filterMap Evaluation.answers = [] := by
      rw [hp, hnat, hr]
      rfl
    refine ⟨?_, ?_, ?_, h.queued, h.posted, h.accepts, ?_, h.relay⟩
    · show (s.window ++ [result outcome]).map request ++
        s.relay.queued.toList.map (·.request) ++ (_ ++ _ ++ _) = _
      rw [hw, hque, hho, hpe]
      rfl
    · refine iff_of_false (by simp [Relay.nativeResult]) (not_not.mpr hho)
    · intro call hm
      rw [hw] at hm
      exact nomatch mem_singleton.mp hm
    · exact fun n hm => h.inbound n (by rw [hinb]; exact mem_cons_of_mem _ hm)

/-! ## The host -/

theorem DocInv.deliverOutcome (h : DocInv address s) (outcome : RendererBridgeOutcome) :
    DocInv address (s.deliverOutcome outcome) := by
  unfold Bridge.deliverOutcome deliver settle
  split
  · exact h
  by_cases hp : s.native.pending = some ⟨outcome.navigation, outcome.request⟩
  · rw [if_pos hp]
    have hmo : s.outbound.filterMap (postedBy s.document) ++
        (none : Option PendingRequest).toList.map (·.request) ++
          (s.inbound ++ [Evaluation.result outcome.toPage]).filterMap Evaluation.answers = s.atHost := by
      have ho : outcome.toPage.request = outcome.request := by cases outcome <;> rfl
      have hto := h.tokens
      unfold Bridge.tokens Bridge.atHost at hto
      rw [hp] at hto
      have hc : (s.window.map request ++ s.relay.queued.toList.map (·.request) ++
          s.outbound.filterMap (postedBy s.document)) ++ outcome.request ::
            s.inbound.filterMap Evaluation.answers = s.facade.pending.toList := by
        rw [← hto]
        simp
      obtain ⟨-, hinb, -⟩ := append_cons_eq_toList hc
      unfold Bridge.atHost
      rw [filterMap_append, hinb, hp]
      simp [Evaluation.answers, ho]
    refine ⟨?_, ?_, h.window, h.queued, h.posted, h.accepts, ?_, h.relay⟩
    · rw [← h.tokens]
      unfold Bridge.tokens
      rw [← hmo]
      rfl
    · have hin := h.inflight
      rw [← hmo] at hin
      exact hin
    · intro n hm
      rcases mem_snoc.mp hm with hol | hn
      · exact h.inbound n hol
      · exact nomatch hn
  · rw [if_neg hp]
    show DocInv address { s with
      inbound := s.inbound ++ []
      log := s.log ++ [] }
    rw [append_nil, append_nil]
    exact ⟨h.tokens, h.inflight, h.window, h.queued, h.posted, h.accepts, h.inbound, h.relay⟩

theorem DocInv.verify (h : DocInv address s) (other : ℕ) :
    DocInv address { s with native := s.native.bindWebview other } := by
  unfold bindWebview
  split
  · rename_i hn
    refine ⟨h.tokens, h.inflight, h.window, h.queued, h.posted, ?_, h.inbound, h.relay⟩
    intro hne
    have hac := h.accepts hne
    unfold acceptsWebview at hac
    rw [hn] at hac
    simp at hac
  · exact ⟨h.tokens, h.inflight, h.window, h.queued, h.posted, h.accepts, h.inbound, h.relay⟩

variable {n : Nonce} {call : RelayCall} {rest : List (ℕ × WvLinkEnvelope)}

section

variable (h : DocInv address s)
include h

theorem tokens_posted (ho : s.outbound = (s.document, .invoke n call) :: rest) :
    s.window = [] ∧ s.relay.queued = none ∧ rest.filterMap (postedBy s.document) = [] ∧
      s.native.pending = none ∧ s.inbound.filterMap Evaluation.answers = [] ∧
        s.facade.pending = some call.request := by
  have hto := h.tokens
  have hp : s.outbound.filterMap (postedBy s.document) =
      call.request :: rest.filterMap (postedBy s.document) := by
    rw [ho]
    exact filterMap_cons_some (if_pos rfl)
  unfold Bridge.tokens Bridge.atHost at hto
  rw [hp, append_assoc (_ :: _)] at hto
  obtain ⟨hl, hr, hpe⟩ := append_cons_eq_toList hto
  obtain ⟨hw, hque⟩ := append_eq_nil_iff.mp hl
  obtain ⟨hp, hr⟩ := append_eq_nil_iff.mp hr
  obtain ⟨hnat, han⟩ := append_eq_nil_iff.mp hr
  exact ⟨map_eq_nil_iff.mp hw, by simpa using hque, hp, by simpa using hnat, han, hpe⟩

/-- The host takes a call of the current document, or has no room for it. -/
theorem DocInv.taken (random : RandomBytes) (sent : Bool)
    (ho : s.outbound = (s.document, .invoke n call) :: rest)
    (hl : s.native.destroyed = false) :
    (handleMessage s.native address (.invoke n call) random sent).admitted =
      some (s.native.requestOf call, sent) := by
  have hca := handleMessage_cases s.native address (.invoke n call) random sent
  generalize handleMessage s.native address (.invoke n call) random sent = han at hca ⊢
  obtain ⟨-, -, -, hi, -, -⟩ := tokens_posted h ho
  obtain ⟨hwe, hno⟩ := h.posted n call (by rw [ho]; exact mem_cons_self)
  cases hca with
  | ignored _ why =>
    rcases why with why | why
    · have hac := h.accepts (by rw [hno]; simp)
      exact nomatch hac.symm.trans why
    · exact absurd (hwe.envelope n) why
  | refused _ _ _ why =>
    rcases why with why | why | why | why
    · exact nomatch hl.symm.trans why
    · exact absurd hno why
    · exact absurd hwe.2.2.2.2.1 why
    · rw [hi] at why
      exact nomatch why
  | admitted _ _ taken => rw [taken]
  | returned _ _ full => rw [full]

/-- A bind leaves every call where it is. -/
theorem DocInv.bind {issuer : ℕ} (random : RandomBytes) (sent : Bool)
    (ho : s.outbound = (issuer, .bind) :: rest) (crossed : Bool) (log : List BridgeFact) :
    DocInv address { s with
      outbound := rest
      native := (handleMessage s.native address .bind random sent).state
      inbound := s.inbound ++ (handleMessage s.native address .bind random sent).evaluations
      crossed := crossed
      log := log } := by
  have hca := handleMessage_cases s.native address .bind random sent
  generalize handleMessage s.native address .bind random sent = handled at hca ⊢
  have hp : s.outbound.filterMap (postedBy s.document) = rest.filterMap (postedBy s.document) := by
    rw [ho]
    rfl
  have hho : s.atHost = rest.filterMap (postedBy s.document) ++
      s.native.pending.toList.map (·.request) ++ s.inbound.filterMap Evaluation.answers := by
    unfold Bridge.atHost
    rw [hp]
  have hto := h.tokens
  have hin := h.inflight
  unfold Bridge.tokens at hto
  rw [hho] at hto hin
  have hr : ∀ n call, (s.document, .invoke n call) ∈ rest →
      call.WellFormed s.native.admittedChannel ∧ s.native.documentNonce = some n := fun n call hm =>
    h.posted n call (by rw [ho]; exact mem_cons_of_mem _ hm)
  cases hca with
  | ignored | unbound =>
    rw [append_nil]
    exact ⟨hto, hin, h.window, h.queued, hr, h.accepts, h.inbound, h.relay⟩
  | bound bytes drawn live fresh accepted =>
    have han : (s.inbound ++ [Evaluation.bind (encodeLowerHex bytes.val)]).filterMap
        Evaluation.answers = s.inbound.filterMap Evaluation.answers := by
      rw [filterMap_append]
      exact append_nil _
    refine ⟨?_, ?_, h.window, h.queued, ?_, fun _ => accepted, ?_, ?_⟩
    · unfold Bridge.tokens Bridge.atHost
      rw [han]
      exact hto
    · unfold Bridge.atHost
      rw [han]
      exact hin
    · exact fun n call hm => nomatch fresh.symm.trans (hr n call hm).2
    · intro n hm
      rcases mem_snoc.mp hm with hol | he
      · exact nomatch fresh.symm.trans (h.inbound n hol)
      · cases he
        rfl
    · exact fun n hn => nomatch fresh.symm.trans (h.relay n hn)

/-- A call of the current document becomes the pending one, or is answered. -/
theorem DocInv.invoke (random : RandomBytes) (sent : Bool)
    (ho : s.outbound = (s.document, .invoke n call) :: rest)
    (hl : s.native.destroyed = false) (crossed : Bool) (log : List BridgeFact) :
    DocInv address { s with
      outbound := rest
      native := (handleMessage s.native address (.invoke n call) random sent).state
      inbound := s.inbound ++
        (handleMessage s.native address (.invoke n call) random sent).evaluations
      crossed := crossed
      log := log } := by
  have ht := h.taken random sent ho hl
  have hca := handleMessage_cases s.native address (.invoke n call) random sent
  generalize handleMessage s.native address (.invoke n call) random sent = had
    at hca ht ⊢
  obtain ⟨hw, hque, hp, hi, han, hpe⟩ := tokens_posted h ho
  have hr : ∀ n call, (s.document, .invoke n call) ∈ rest →
      call.WellFormed s.native.admittedChannel ∧ s.native.documentNonce = some n := fun n call hm =>
    h.posted n call (by rw [ho]; exact mem_cons_of_mem _ hm)
  have hin : s.relay.inflight = true := by
    have hm : call.request ∈ s.atHost := by
      refine mem_append_left _ (mem_append_left _ 
        (mem_filterMap.mpr ⟨(s.document, .invoke n call), ?_, if_pos rfl⟩))
      rw [ho]
      exact mem_cons_self
    exact h.inflight.mpr (ne_nil_of_mem hm)
  cases hca with
  | ignored | refused => exact nomatch ht
  | admitted _ _ taken live nonce idle =>
    have hho : rest.filterMap (postedBy s.document) ++
        (some ⟨s.native.navigationGeneration, call.request⟩ : Option PendingRequest).toList.map
          (·.request) ++ (s.inbound ++ []).filterMap Evaluation.answers = [call.request] := by
      rw [hp, append_nil, han]
      rfl
    refine ⟨?_, ?_, h.window, h.queued, hr, h.accepts, ?_, h.relay⟩
    · unfold Bridge.tokens Bridge.atHost
      rw [hw, hque, hho, hpe]
      rfl
    · refine iff_of_true hin ?_
      unfold Bridge.atHost
      simp
    · intro n hm
      rw [append_nil] at hm
      exact h.inbound n hm
  | returned _ _ full live nonce idle =>
    have hho : rest.filterMap (postedBy s.document) ++
        s.native.pending.toList.map (·.request) ++ (s.inbound ++
          [Evaluation.result (immediateError call.request .queueUnavailable)]).filterMap
            Evaluation.answers = [call.request] := by
      rw [hp, hi, filterMap_append, han]
      rfl
    refine ⟨?_, ?_, h.window, h.queued, hr, h.accepts, ?_, h.relay⟩
    · unfold Bridge.tokens Bridge.atHost
      rw [hw, hque, hho, hpe]
      rfl
    · refine iff_of_true hin ?_
      unfold Bridge.atHost
      rw [hho]
      simp
    · intro n hm
      rcases mem_snoc.mp hm with hol | hn
      · exact h.inbound n hol
      · exact nomatch hn

end

/-! ## Runs -/

/-- Whatever happened before, only documents that there were have posted. -/
structure PageInv (address : ℕ) (s : Bridge) : Prop where
  issuers : ∀ message ∈ s.outbound, message.1 ≤ s.document
  undisturbed : s.Undisturbed → DocInv address s

theorem mem_post_issuer {envelopes : List WvLinkEnvelope} {message : ℕ × WvLinkEnvelope}
    (h : ∀ message ∈ s.outbound, message.1 ≤ s.document) (hm : message ∈ s.post envelopes) :
    message.1 ≤ s.document := by
  rcases mem_append.mp hm with ho | hn
  · exact h message ho
  · obtain ⟨_, -, rfl⟩ := mem_map.mp hn
    exact le_rfl

theorem handleMessage_destroyed (state : BridgeState) (envelope : WvLinkEnvelope)
    (random : RandomBytes) (sent : Bool) :
    (handleMessage state address envelope random sent).state.destroyed = state.destroyed := by
  have hca := handleMessage_cases state address envelope random sent
  generalize handleMessage state address envelope random sent = handled at hca ⊢
  cases hca <;> rfl

theorem PageInv.receive (h : PageInv address s) (random : RandomBytes) (sent : Bool) :
    PageInv address (s.receive address random sent) := by
  unfold Bridge.receive
  split
  · exact h
  rename_i issuer envelope rest ho
  refine ⟨?_, ?_⟩
  · exact fun message hm =>
      h.issuers message (by rw [ho]; exact mem_cons_of_mem _ hm)
  · rintro ⟨hcr, hde⟩
    obtain ⟨hb, hme⟩ := Bool.or_eq_false_iff.mp hcr
    have hl : s.native.destroyed = false :=
      (handleMessage_destroyed s.native envelope random sent).symm.trans hde
    have hdoc := h.undisturbed ⟨hb, hl⟩
    cases envelope with
    | bind => exact hdoc.bind random sent ho _ _
    | invoke n call =>
      have hiss : issuer = s.document := by
        by_contra hne
        simp [hne] at hme
      rw [hiss] at ho
      exact hdoc.invoke random sent ho hl _ _

theorem PageInv.navigate (h : PageInv address s) : PageInv address s.navigate := by
  have hir : ∀ message ∈ s.navigate.outbound, message.1 ≤ s.document + 1 := by
    intro message hm
    rcases mem_snoc.mp hm with ho | he
    · exact (h.issuers message ho).trans (Nat.le_succ _)
    · cases he
      exact le_rfl
  have hn : ∀ n call, (s.document + 1, .invoke n call) ∉ s.navigate.outbound := by
    intro n call hm
    rcases mem_snoc.mp hm with ho | hnew
    · have hle := h.issuers _ ho
      exact absurd hle (by simp)
    · exact nomatch hnew
  have hp : s.navigate.outbound.filterMap (postedBy (s.document + 1)) = [] := by
    rw [filterMap_eq_nil_iff]
    rintro ⟨issuer, envelope⟩ hm
    cases envelope with
    | bind => rfl
    | invoke n call =>
      refine if_neg ?_
      rintro rfl
      exact hn n call hm
  have hho : s.navigate.atHost = [] := by
    show s.navigate.outbound.filterMap (postedBy (s.document + 1)) ++ [] ++ [] = []
    rw [hp]
    rfl
  refine ⟨hir, fun _ => ?_⟩
  refine ⟨?_, ?_, nofun, nofun, ?_, fun hne => absurd rfl hne, nofun, nofun⟩
  · exact hho
  · exact iff_of_false (by simp [Bridge.navigate]) (not_not.mpr hho)
  · exact fun n call hm => absurd hm (hn n call)

theorem PageInv.step (h : PageInv address s) (event : BridgeEvent) :
    PageInv address (s.step address event) := by
  cases event with
  | invoke args => exact ⟨h.issuers, fun hu => (h.undisturbed hu).pageInvoke args⟩
  | window =>
    show PageInv address s.dispatch
    have hs : s.dispatch.crossed = s.crossed ∧ s.dispatch.native = s.native := by
      unfold Bridge.dispatch
      split <;> exact ⟨rfl, rfl⟩
    refine ⟨?_, ?_⟩
    · unfold Bridge.dispatch
      split
      · exact h.issuers
      · exact h.issuers
      · exact fun _ hm => mem_post_issuer (s := s) h.issuers hm
    · rintro ⟨hcr, hde⟩
      exact (h.undisturbed ⟨hs.1.symm.trans hcr, hs.2 ▸ hde⟩).dispatch
  | native random sent => exact h.receive random sent
  | evaluate =>
    show PageInv address s.evaluate
    have hs : s.evaluate.crossed = s.crossed ∧ s.evaluate.native = s.native := by
      unfold Bridge.evaluate
      split <;> exact ⟨rfl, rfl⟩
    refine ⟨?_, ?_⟩
    · unfold Bridge.evaluate
      split
      · exact h.issuers
      · exact fun _ hm => mem_post_issuer (s := s) h.issuers hm
      · exact h.issuers
    · rintro ⟨hcr, hde⟩
      exact (h.undisturbed ⟨hs.1.symm.trans hcr, hs.2 ▸ hde⟩).evaluate
  | deliver outcome =>
    show PageInv address (s.deliverOutcome outcome)
    have hs : (s.deliverOutcome outcome).outbound = s.outbound ∧
        (s.deliverOutcome outcome).document = s.document ∧
          (s.deliverOutcome outcome).crossed = s.crossed ∧
            (s.deliverOutcome outcome).native.destroyed = s.native.destroyed := by
      unfold Bridge.deliverOutcome deliver settle
      split
      · exact ⟨rfl, rfl, rfl, rfl⟩
      · by_cases hp : s.native.pending = some ⟨outcome.navigation, outcome.request⟩
        · rw [if_pos hp]
          exact ⟨rfl, rfl, rfl, rfl⟩
        · rw [if_neg hp]
          exact ⟨rfl, rfl, rfl, rfl⟩
    obtain ⟨ho, hdoc, hcr, hde⟩ := hs
    refine ⟨?_, ?_⟩
    · rw [ho, hdoc]
      exact h.issuers
    · rintro ⟨hc, hd⟩
      exact (h.undisturbed ⟨hcr.symm.trans hc, hde.symm.trans hd⟩).deliverOutcome outcome
  | verify other =>
    have hde : (s.native.bindWebview other).destroyed = s.native.destroyed := by
      unfold bindWebview
      split <;> rfl
    exact ⟨h.issuers, fun hu => (h.undisturbed ⟨hu.1, hde.symm.trans hu.2⟩).verify other⟩
  | navigate => exact h.navigate
  | destroy => exact ⟨h.issuers, fun hu => nomatch hu.2⟩

end Steps

theorem pageInv_start (webview admittedChannel address : ℕ) :
    PageInv address (Bridge.start webview admittedChannel) := by
  refine ⟨?_, fun _ => ⟨rfl, iff_of_false (by simp [Bridge.start]) (not_not.mpr rfl),
    nofun, nofun, ?_, fun hne => absurd rfl hne,
    nofun, nofun⟩⟩
  · intro message hm
    cases mem_singleton.mp hm
    exact le_rfl
  · intro n call hm
    exact nomatch mem_singleton.mp hm

theorem pageInv_run (webview admittedChannel address : ℕ) (events : List BridgeEvent) :
    PageInv address (Bridge.run webview admittedChannel address events) := by
  induction events using reverseRecOn with
  | nil => exact pageInv_start webview admittedChannel address
  | append_singleton events event ih =>
    rw [run_snoc]
    exact ih.step event

end Keld.Bridge
