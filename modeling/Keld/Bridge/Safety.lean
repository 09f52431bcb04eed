/-
# `Keld.Bridge.Safety` — the calls of a renderer bridge

The laws of a run: what its log allows (`HostInv`) and what its parties believe
of the one call (`DocInv`).  A generation is a counter that comes round: 2⁶⁴ − 1
navigations after the first document was bound, its generation is that of
another document (`generations_come_round`).
-/
import Keld.Bridge.DocLaw

namespace Keld.Bridge

open List

/-- What holds after a run, for the web view at `address`. -/
structure BridgeLaw (address : ℕ) (s : Bridge) : Prop where
  /-- The call that the host has pending is the open one, and there is no other. -/
  outstanding : openCalls s.log = s.native.pending.toList.map fun p =>
    ⟨s.document, p.navigation, p.request⟩
  /-- A call was admitted when none was open, for the current document, under its nonce and with
  its generation; an outcome was evaluated in the current document, for its open call. -/
  permitted : Always Permitted s.log
  /-- The generation of a request is one document's alone. -/
  own : ∀ issuer nonce request sent document outcome,
    .admitted issuer nonce request sent ∈ s.log → .evaluated document outcome ∈ s.log →
      request.navigation = outcome.navigation → issuer = document
  once : ∀ call, evaluations call s.log ≤ admissions call s.log
  /-- The facade waits for the call that is under way. -/
  waiter : s.Undisturbed → s.tokens = s.facade.pending.toList
  /-- The relay holds back exactly while the host has a call or has answered it. -/
  inflight : s.Undisturbed → (s.relay.inflight = true ↔ s.atHost ≠ [])
  /-- What the relay posts the host takes, or has no room for. -/
  taken : s.Undisturbed → ∀ n call rest random sent,
    s.outbound = (s.document, .invoke n call) :: rest →
      (handleMessage s.native address (.invoke n call) random sent).admitted =
        some (s.native.requestOf call, sent)

variable {drawn : List { bytes : List Byte // bytes.length = 16 }} {s : Bridge} {issuer : ℕ}
  {nonce : Nonce} {request : RendererBridgeRequest} {sent : Bool}

theorem HostInv.admitted_bound (h : HostInv drawn s)
    (ha : .admitted issuer nonce request sent ∈ s.log) :
    .bound issuer request.navigation nonce ∈ s.log := by
  obtain ⟨before, Bridge.after, hl, -, -, hb⟩ := h.facts.of_mem ha
  rw [hl]
  exact mem_append_left _ hb

theorem HostInv.own (h : HostInv drawn s) {document : ℕ} {outcome : RendererBridgeOutcome}
    (ha : .admitted issuer nonce request sent ∈ s.log)
    (hev : .evaluated document outcome ∈ s.log)
    (hs : request.navigation = outcome.navigation) : issuer = document := by
  obtain ⟨before, Bridge.after, hl, -, ho⟩ := h.facts.of_mem hev
  obtain ⟨nonce', request', hc, hna, -⟩ := mem_openCalls ho
  have hc' : .admitted document nonce' request' true ∈ s.log := by
    rw [hl]
    exact mem_append_left _ hc
  have hb := h.admitted_bound ha
  have hb' := h.admitted_bound hc'
  have hgen : request'.navigation = request.navigation := hna.trans hs.symm
  rw [hgen] at hb'
  exact h.oneGeneration _ _ _ _ _ hb hb'

theorem bridge_law (webview admittedChannel address : ℕ) {events : List BridgeEvent}
    (hfresh : (draws events).Nodup) (hwrap : navigations events < 2 ^ 64 - 1) :
    BridgeLaw address (Bridge.run webview admittedChannel address events) := by
  have hho := hostInv_run webview admittedChannel address hfresh hwrap
  have hpa := pageInv_run webview admittedChannel address events
  refine ⟨hho.calls, hho.facts, ?_, ?_, ?_, ?_, ?_⟩
  · exact fun _ _ _ _ _ _ ha hev hs => hho.own ha hev hs
  · exact fun call => (Nat.le_add_right _ _).trans (evaluations_le hho.facts call)
  · exact fun hu => (hpa.undisturbed hu).tokens
  · exact fun hu => (hpa.undisturbed hu).inflight
  · exact fun hu n call rest random sent ho =>
      (hpa.undisturbed hu).taken random sent ho hu.2

theorem bridge_law_one : BridgeLaw 0 (Bridge.run 0 1 0
    [.verify 0, .native (some ⟨List.replicate 16 7, rfl⟩) true, .evaluate,
      .invoke { channel := some 1, payload := some [] }, .window, .native none true, .navigate]) :=
  bridge_law 0 1 0 (by decide) (by decide)

/-! ## What a request does not say, and when a generation is used again -/

def zeroBytes (last : Byte) : { bytes : List Byte // bytes.length = 16 } :=
  ⟨List.replicate 15 0 ++ [last], rfl⟩

/-- The document is bound and the page makes a call, which the host takes. -/
def oneCall (last : Byte) : List BridgeEvent :=
  [.native (some (zeroBytes last)) true, .evaluate,
    .invoke { channel := some 1, payload := some [] }, .window, .native none true]

/-- The document's scripts start, but the host has no nonce for it. -/
def unboundDocument : List BridgeEvent := [.navigate, .native none true]

def unboundDocuments : ℕ → List BridgeEvent
  | 0 => []
  | k + 1 => unboundDocuments k ++ unboundDocument

/-- The run up to the first call of the first document. -/
def calledOnce : Bridge := Bridge.run 0 1 0 (.verify 0 :: oneCall 0)

theorem calledOnce_log : calledOnce.log =
    [.bound 0 1 (encodeLowerHex (zeroBytes 0).val),
      .admitted 0 (encodeLowerHex (zeroBytes 0).val) ⟨0, 1, 1, 1, []⟩ true] := by
  decide +kernel

theorem calledOther_log : (Bridge.run 0 1 0 (.verify 0 :: oneCall 1)).log =
    [.bound 0 1 (encodeLowerHex (zeroBytes 1).val),
      .admitted 0 (encodeLowerHex (zeroBytes 1).val) ⟨0, 1, 1, 1, []⟩ true] := by
  decide +kernel

/-- The same state after a longer past. -/
def Bridge.after (past : List BridgeFact) (s : Bridge) : Bridge := { s with log := past ++ s.log }

/-- Nothing reads the log. -/
theorem step_after (past : List BridgeFact) (s : Bridge) (event : BridgeEvent) :
    (s.after past).step 0 event = (s.step 0 event).after past := by
  obtain ⟨facade, relay, window, outbound, inbound, native, document, crossed, log⟩ := s
  cases event with
  | invoke | verify => rfl
  | window =>
    cases window with
    | nil => rfl
    | cons message rest => cases message <;> rfl
  | native random sent =>
    cases outbound with
    | nil => rfl
    | cons message rest =>
      simp only [Bridge.step, Bridge.receive, Bridge.after, append_assoc]
      rfl
  | evaluate =>
    cases inbound with
    | nil => rfl
    | cons evaluation rest => cases evaluation <;> rfl
  | deliver outcome =>
    by_cases hown : outcome.webview = native.webview
    · simp [Bridge.step, Bridge.deliverOutcome, Bridge.after, hown]
      rfl
    · simp [Bridge.step, Bridge.deliverOutcome, Bridge.after, hown]
  | navigate => simp [Bridge.step, Bridge.navigate, Bridge.after]
  | destroy => simp [Bridge.step, Bridge.destroy, Bridge.after]

theorem foldl_after (past : List BridgeFact) (s : Bridge) (events : List BridgeEvent) :
    events.foldl (Bridge.step 0) (s.after past) = (events.foldl (Bridge.step 0) s).after past := by
  induction events generalizing s with
  | nil => rfl
  | cons event events ih => rw [foldl_cons, foldl_cons, step_after, ih]

/-- A state whose document has nothing under way and no nonce. -/
def unboundState (document generation : ℕ) : Bridge where
  outbound := []
  native :=
    { webview := 0
      admittedChannel := 1
      expectedWebview := some 0
      navigationGeneration := generation }
  document := document

theorem unboundState_step (document : ℕ) {generation : ℕ} (hgen : generation + 1 < 2 ^ 64) :
    unboundDocument.foldl (Bridge.step 0) (unboundState document generation) =
      (unboundState (document + 1) (generation + 1)).after [.navigated] := by
  have hn : BridgeState.nextGeneration generation = generation + 1 := by
    unfold BridgeState.nextGeneration
    omega
  simp [unboundDocument, Bridge.step, unboundState, Bridge.navigate, Bridge.receive, handleMessage,
    BridgeState.navigationStarted, BridgeState.acceptsWebview, BridgeState.bind,
    BridgeState.boundGeneration, WvLinkEnvelope.WellFormed, Bridge.facts, Bridge.after, hn]

theorem calledOnce_step :
    unboundDocument.foldl (Bridge.step 0) calledOnce =
      (unboundState 1 2).after (calledOnce.log ++ [.navigated]) := by
  decide +kernel

theorem after_after (past past' : List BridgeFact) (s : Bridge) :
    (s.after past').after past = s.after (past ++ past') := by
  simp [Bridge.after]

theorem foldl_unboundDocuments {k : ℕ} (hk : k + 2 < 2 ^ 64) :
    ∃ later, (unboundDocuments (k + 1)).foldl (Bridge.step 0) calledOnce =
      (unboundState (k + 1) (k + 2)).after (calledOnce.log ++ later) := by
  induction k with
  | zero => exact ⟨[.navigated], calledOnce_step⟩
  | succ k ih =>
    obtain ⟨later, hst⟩ := ih (by omega)
    refine ⟨later ++ [.navigated], ?_⟩
    rw [unboundDocuments, foldl_append, hst, foldl_after, unboundState_step _ (by omega),
      after_after, append_assoc]

theorem draws_append (events later : List BridgeEvent) :
    draws (events ++ later) = draws events ++ draws later :=
  filterMap_append

theorem draws_unboundDocuments (k : ℕ) : draws (unboundDocuments k) = [] := by
  induction k with
  | zero => rfl
  | succ k ih => rw [unboundDocuments, draws_append, ih]; exact rfl

theorem navigations_unboundDocuments (k : ℕ) : navigations (unboundDocuments k) = k := by
  induction k with
  | zero => rfl
  | succ k ih => rw [unboundDocuments, navigations_append, ih]; exact rfl

/-- One more navigation, a call of the last document, and an outcome. -/
def lastDocument : List BridgeEvent := .navigate :: oneCall 1 ++ [.deliver (.reply 0 1 1 [])]

theorem unboundState_last :
    (lastDocument.foldl (Bridge.step 0) (unboundState (2 ^ 64 - 2) (2 ^ 64 - 1))).log =
      [.navigated, .bound (2 ^ 64 - 1) 1 (encodeLowerHex (zeroBytes 1).val),
        .admitted (2 ^ 64 - 1) (encodeLowerHex (zeroBytes 1).val) ⟨0, 1, 1, 1, []⟩ true,
        .evaluated (2 ^ 64 - 1) (.reply 0 1 1 [])] := by
  decide +kernel

def comeRound : List BridgeEvent :=
  .verify 0 :: oneCall 0 ++ unboundDocuments (2 ^ 64 - 2) ++ lastDocument

theorem comeRound_log : ∃ later, (Bridge.run 0 1 0 comeRound).log = calledOnce.log ++ later ∧
    .evaluated (2 ^ 64 - 1) (.reply 0 1 1 []) ∈ later := by
  have ho : 2 ^ 64 - 3 + 1 = 2 ^ 64 - 2 := by omega
  have htwo : 2 ^ 64 - 3 + 2 = 2 ^ 64 - 1 := by omega
  obtain ⟨later, hst⟩ := foldl_unboundDocuments (k := 2 ^ 64 - 3) (by omega)
  rw [ho, htwo] at hst
  have hr : Bridge.run 0 1 0 comeRound = lastDocument.foldl (Bridge.step 0)
      ((unboundDocuments (2 ^ 64 - 2)).foldl (Bridge.step 0) calledOnce) := by
    unfold Bridge.run comeRound
    rw [foldl_append, foldl_append]
    rfl
  rw [hr, hst, foldl_after]
  refine ⟨later ++ _, append_assoc _ _ _, mem_append_right _ ?_⟩
  rw [unboundState_last]
  simp

theorem draws_comeRound : draws comeRound = [zeroBytes 0, zeroBytes 1] := by
  unfold comeRound
  rw [draws_append, draws_append, draws_unboundDocuments]
  rfl

theorem navigations_comeRound : navigations comeRound = 2 ^ 64 - 1 := by
  unfold comeRound
  rw [navigations_append, navigations_append, navigations_unboundDocuments]
  rfl

/-- A request does not say its nonce, and after 2⁶⁴ − 1 navigations an outcome does not say its
document. -/
theorem generations_come_round :
    (¬ ∃ nonceOf : RendererBridgeRequest → Nonce, ∀ events issuer nonce request sent,
      .admitted issuer nonce request sent ∈ (Bridge.run 0 1 0 events).log →
        nonceOf request = nonce) ∧
    ∃ events, (draws events).Nodup ∧ navigations events < 2 ^ 64 ∧
      ∃ nonce request document outcome,
        .admitted 0 nonce request true ∈ (Bridge.run 0 1 0 events).log ∧
          .evaluated document outcome ∈ (Bridge.run 0 1 0 events).log ∧ 0 < document ∧
            outcome.navigation = request.navigation ∧ outcome.request = request.request := by
  constructor
  · rintro ⟨nonceOf, h⟩
    have hon : nonceOf ⟨0, 1, 1, 1, []⟩ = encodeLowerHex (zeroBytes 0).val := by
      refine h (.verify 0 :: oneCall 0) 0 _ _ true ?_
      show _ ∈ calledOnce.log
      rw [calledOnce_log]
      simp
    have ho : nonceOf ⟨0, 1, 1, 1, []⟩ = encodeLowerHex (zeroBytes 1).val := by
      refine h (.verify 0 :: oneCall 1) 0 _ _ true ?_
      rw [calledOther_log]
      simp
    exact absurd (hon.symm.trans ho) (by decide +kernel)
  · obtain ⟨later, hl, hev⟩ := comeRound_log
    refine ⟨comeRound, ?_, ?_, encodeLowerHex (zeroBytes 0).val, ⟨0, 1, 1, 1, []⟩, 2 ^ 64 - 1,
      .reply 0 1 1 [], ?_, ?_, by omega, rfl, rfl⟩
    · rw [draws_comeRound]
      decide
    · rw [navigations_comeRound]
      omega
    · rw [hl, calledOnce_log]
      simp
    · rw [hl]
      exact mem_append_right _ hev

end Keld.Bridge
