/-
# `Keld.Bridge.HostLaw` — what the host's log says of a run

The nonce ties a message to the document that posted it and the navigation ties
an outcome to the document whose call it answers.  `HostInv` carries both ties
through a run: a generation and a nonce each belong to one document, and the one
pending call of the host is the one open call of the log.
-/
import Keld.Bridge.System
import Mathlib.Data.List.Count

namespace Keld.Bridge

open List

/-! ## The log -/

/-- A call that was handed to the application and not settled. -/
structure OpenCall where
  document : ℕ
  navigation : ℕ
  request : ℕ
deriving DecidableEq

/-- The call that an outcome evaluated in a document answers. -/
def answered (document : ℕ) (outcome : RendererBridgeOutcome) : OpenCall :=
  ⟨document, outcome.navigation, outcome.request⟩

def openStep (calls : List OpenCall) : BridgeFact → List OpenCall
  | .bound .. => calls
  | .admitted issuer _ request true => calls ++ [⟨issuer, request.navigation, request.request⟩]
  | .admitted _ _ _ false => calls
  | .evaluated document outcome => calls.erase (answered document outcome)
  | .navigated | .destroyed => []

/-- The open calls after a log. -/
def openCalls (log : List BridgeFact) : List OpenCall := log.foldl openStep []

/-- The current document after a log. -/
def documentOf (log : List BridgeFact) : ℕ :=
  log.countP fun fact => match fact with
    | .navigated => true
    | _ => false

/-- What the log allows next. -/
def Permitted (before : List BridgeFact) : BridgeFact → Prop
  | .bound document _ _ => document = documentOf before
  | .admitted issuer nonce request _ =>
    openCalls before = [] ∧ issuer = documentOf before ∧
      .bound issuer request.navigation nonce ∈ before
  | .evaluated document outcome =>
    document = documentOf before ∧ answered document outcome ∈ openCalls before
  | .navigated | .destroyed => True

theorem openCalls_snoc (log : List BridgeFact) (fact : BridgeFact) :
    openCalls (log ++ [fact]) = openStep (openCalls log) fact := by
  unfold openCalls
  rw [foldl_append]
  rfl

/-- The random bytes that the events of a run drew. -/
def draws (events : List BridgeEvent) : List { bytes : List Byte // bytes.length = 16 } :=
  events.filterMap fun event => match event with
    | .native (some bytes) _ => some bytes
    | _ => none

def navigations (events : List BridgeEvent) : ℕ :=
  events.countP fun event => match event with
    | .navigate => true
    | _ => false

/-! ## The invariant -/

/-- `drawn` are the random bytes so far. -/
structure HostInv (drawn : List { bytes : List Byte // bytes.length = 16 }) (s : Bridge) :
    Prop where
  document : s.document = documentOf s.log
  facts : Always Permitted s.log
  calls : openCalls s.log = s.native.pending.toList.map fun p =>
    ⟨s.document, p.navigation, p.request⟩
  pending : ∀ p, s.native.pending = some p → p.navigation = s.native.navigationGeneration
  pendingBound : s.native.pending ≠ none → ∃ n, s.native.documentNonce = some n
  generation : s.native.navigationGeneration ≤ s.document + 1
  bound : ∀ d g n, .bound d g n ∈ s.log →
    d ≤ s.document ∧ 0 < g ∧ g ≤ s.native.navigationGeneration ∧
      (d = s.document ↔ g = s.native.navigationGeneration)
  drawn : ∀ d g n, .bound d g n ∈ s.log → ∃ bytes ∈ drawn, n = encodeLowerHex bytes.val
  oneGeneration : ∀ d d' g n n', .bound d g n ∈ s.log → .bound d' g n' ∈ s.log → d = d'
  oneNonce : ∀ d d' g g' n, .bound d g n ∈ s.log → .bound d' g' n ∈ s.log → d = d'
  native : ∀ n, s.native.documentNonce = some n →
    .bound s.document s.native.navigationGeneration n ∈ s.log
  inbound : ∀ n, .bind n ∈ s.inbound →
    .bound s.document s.native.navigationGeneration n ∈ s.log
  relay : ∀ n, s.relay.documentNonce = some n →
    .bound s.document s.native.navigationGeneration n ∈ s.log
  outbound : ∀ d n c, (d, .invoke n c) ∈ s.outbound → ∃ g, .bound d g n ∈ s.log

/-! ## The scripts -/

theorem sendNative_nonce (relay : Relay) (call : RelayCall) :
    (relay.sendNative call).1.documentNonce = relay.documentNonce := by
  unfold Relay.sendNative
  split
  · rfl
  · split <;> rfl

variable {relay : Relay} {call : RelayCall} {envelope : WvLinkEnvelope} {nonce : Nonce}
  {log : List BridgeFact}

theorem sendNative_posts (h : envelope ∈ (relay.sendNative call).2) :
    ∃ nonce, relay.documentNonce = some nonce ∧ envelope = .invoke nonce call := by
  unfold Relay.sendNative at h
  split at h
  · exact nomatch h
  · rename_i nonce hno
    split at h
    · exact nomatch h
    · exact ⟨nonce, hno, mem_singleton.mp h⟩

theorem onInvoke_nonce (admittedChannel : ℕ) (relay : Relay) (call : RelayCall) :
    (relay.onInvoke admittedChannel call).1.documentNonce = relay.documentNonce := by
  unfold Relay.onInvoke
  split
  · rfl
  · split
    · rfl
    · split
      · rename_i hnonce
        exact hnonce.symm ▸ rfl
      · exact sendNative_nonce relay call

theorem onInvoke_posts {admittedChannel : ℕ}
    (h : envelope ∈ (relay.onInvoke admittedChannel call).2.2) :
    ∃ nonce, relay.documentNonce = some nonce ∧ envelope = .invoke nonce call := by
  unfold Relay.onInvoke at h
  split at h
  · exact nomatch h
  · split at h
    · exact nomatch h
    · split at h
      · exact nomatch h
      · exact sendNative_posts h

theorem nativeBind_nonce {nonce' : Nonce}
    (h : (relay.nativeBind nonce).1.documentNonce = some nonce') :
    nonce' = nonce ∨ relay.documentNonce = some nonce' := by
  unfold Relay.nativeBind at h
  split at h
  · exact .inr h
  · split at h
    · exact .inl (Option.some.inj h).symm
    · rw [sendNative_nonce] at h
      exact .inl (Option.some.inj h).symm

theorem nativeBind_posts (h : envelope ∈ (relay.nativeBind nonce).2) :
    ∃ call, envelope = .invoke nonce call := by
  unfold Relay.nativeBind at h
  split at h
  · exact nomatch h
  · split at h
    · exact nomatch h
    · obtain ⟨nonce', hno, rfl⟩ := sendNative_posts h
      cases hno
      exact ⟨_, rfl⟩

section Steps

variable {drawn : List { bytes : List Byte // bytes.length = 16 }} {s : Bridge} {address : ℕ}

theorem mem_post {envelopes : List WvLinkEnvelope} {d : ℕ} {envelope : WvLinkEnvelope}
    (h : (d, envelope) ∈ s.post envelopes) :
    (d, envelope) ∈ s.outbound ∨ d = s.document ∧ envelope ∈ envelopes := by
  rcases mem_append.mp h with h | h
  · exact .inl h
  · obtain ⟨envelope', hm, he⟩ := mem_map.mp h
    cases he
    exact .inr ⟨rfl, hm⟩

variable {s' : Bridge}

section

variable (h : HostInv drawn s)
include h

/-- The scripts only pass on what the host gave their document. -/
theorem HostInv.of_scripts (hnat : s'.native = s.native)
    (hdoc : s'.document = s.document) (hl : s'.log = s.log)
    (hinb : ∀ n, .bind n ∈ s'.inbound → .bind n ∈ s.inbound)
    (hre : ∀ n, s'.relay.documentNonce = some n →
      .bound s.document s.native.navigationGeneration n ∈ s.log)
    (ho : ∀ d n c, (d, .invoke n c) ∈ s'.outbound → (d, .invoke n c) ∈ s.outbound ∨ d = s.document ∧
      .bound s.document s.native.navigationGeneration n ∈ s.log) :
    HostInv drawn s' where
  document := by rw [hdoc, hl, h.document]
  facts := by rw [hl]; exact h.facts
  calls := by rw [hl, hnat, hdoc, h.calls]
  pending := by rw [hnat]; exact h.pending
  pendingBound := by rw [hnat]; exact h.pendingBound
  generation := by rw [hnat, hdoc]; exact h.generation
  bound := by rw [hl, hnat, hdoc]; exact h.bound
  drawn := by rw [hl]; exact h.drawn
  oneGeneration := by rw [hl]; exact h.oneGeneration
  oneNonce := by rw [hl]; exact h.oneNonce
  native := by rw [hl, hnat, hdoc]; exact h.native
  inbound := by
    rw [hl, hnat, hdoc]
    exact fun n hn => h.inbound n (hinb n hn)
  relay := by rw [hl, hnat, hdoc]; exact hre
  outbound := by
    rw [hl]
    intro d n c hm
    rcases ho d n c hm with hm | ⟨rfl, hb⟩
    · exact h.outbound d n c hm
    · exact ⟨_, hb⟩

theorem HostInv.pageInvoke (args : InvokeArguments) : HostInv drawn (s.pageInvoke args) :=
  h.of_scripts rfl rfl rfl (fun _ h => h) h.relay (fun _ _ _ h => .inl h)

theorem HostInv.dispatch : HostInv drawn s.dispatch := by
  unfold Bridge.dispatch
  split
  · exact h
  · exact h.of_scripts rfl rfl rfl (fun _ h => h) h.relay (fun _ _ _ h => .inl h)
  · rename_i call rest hw
    refine h.of_scripts rfl rfl rfl (fun _ h => h) ?_ ?_
    · intro n hn
      exact h.relay n ((onInvoke_nonce _ _ _).symm.trans hn)
    · intro d n c hm
      rcases mem_post hm with ho | ⟨rfl, hp⟩
      · exact .inl ho
      · obtain ⟨nonce, hno, he⟩ := onInvoke_posts hp
        cases he
        exact .inr ⟨rfl, h.relay n hno⟩

theorem HostInv.evaluate : HostInv drawn s.evaluate := by
  unfold Bridge.evaluate
  split
  · exact h
  · rename_i nonce rest hinb
    have hb := h.inbound nonce (by rw [hinb]; exact mem_cons_self)
    refine h.of_scripts rfl rfl rfl ?_ ?_ ?_
    · intro n hn
      rw [hinb]
      exact mem_cons_of_mem _ hn
    · intro n hn
      rcases nativeBind_nonce hn with rfl | hn
      · exact hb
      · exact h.relay n hn
    · intro d n c hm
      rcases mem_post hm with ho | ⟨rfl, hp⟩
      · exact .inl ho
      · obtain ⟨call, he⟩ := nativeBind_posts hp
        cases he
        exact .inr ⟨rfl, hb⟩
  · rename_i outcome rest hinb
    refine h.of_scripts rfl rfl rfl ?_ h.relay (fun _ _ _ h => .inl h)
    intro n hn
    rw [hinb]
    exact mem_cons_of_mem _ hn

end

/-! ## The host -/

theorem documentOf_snoc {log : List BridgeFact} {fact : BridgeFact} (h : fact ≠ .navigated) :
    documentOf (log ++ [fact]) = documentOf log := by
  unfold documentOf
  rw [countP_append]
  cases fact with
  | navigated => exact absurd rfl h
  | bound | admitted | evaluated | destroyed => rfl

theorem documentOf_navigated (log : List BridgeFact) :
    documentOf (log ++ [.navigated]) = documentOf log + 1 := by
  unfold documentOf
  rw [countP_append]
  rfl

section

variable (h : HostInv drawn s)
include h

theorem HostInv.document_snoc {fact : BridgeFact} (hf : fact ≠ .navigated) :
    s.document = documentOf (s.log ++ [fact]) :=
  h.document.trans (documentOf_snoc hf).symm

theorem HostInv.no_bound (hz : s.native.navigationGeneration = 0)
    (d g : ℕ) (n : Nonce) : .bound d g n ∉ s.log := by
  intro hm
  obtain ⟨-, hpos, hle, -⟩ := h.bound d g n hm
  omega

theorem HostInv.consume {message : ℕ × WvLinkEnvelope}
    {rest : List (ℕ × WvLinkEnvelope)} (hqu : s.outbound = message :: rest) (crossed : Bool) :
    HostInv drawn { s with
      outbound := rest
      crossed := crossed } :=
  h.of_scripts rfl rfl rfl (fun _ h => h) h.relay fun _ _ _ hm =>
    .inl (hqu ▸ mem_cons_of_mem _ hm)

theorem HostInv.answer (outcome : PageOutcome) :
    HostInv drawn { s with inbound := s.inbound ++ [.result outcome] } := by
  refine h.of_scripts rfl rfl rfl ?_ h.relay (fun _ _ _ h => .inl h)
  intro n hm
  rcases mem_snoc.mp hm with hm | hm
  · exact hm
  · exact nomatch hm

theorem HostInv.regenerate {generation : ℕ}
    (hg : generation = s.native.navigationGeneration ∨ generation = s.native.boundGeneration) :
    HostInv drawn { s with
      native := { s.native with navigationGeneration := generation } } := by
  by_cases hs : generation = s.native.navigationGeneration
  · rw [hs]
    exact h
  · have hz : s.native.navigationGeneration = 0 := by
      by_contra hne
      rcases hg with hg | hg
      · exact hs hg
      · unfold BridgeState.boundGeneration at hg
        rw [if_neg hne] at hg
        exact hs hg
    have hgen : generation = 1 := by
      rcases hg with hg | hg
      · exact absurd hg hs
      · unfold BridgeState.boundGeneration at hg
        rw [if_pos hz] at hg
        exact hg
    have hno := h.no_bound hz
    have hi : s.native.pending = none := by
      by_contra hne
      obtain ⟨n, hn⟩ := h.pendingBound hne
      exact hno _ _ n (h.native n hn)
    refine ⟨h.document, h.facts, h.calls, ?_, h.pendingBound, ?_, ?_, h.drawn, h.oneGeneration,
      h.oneNonce, ?_, ?_, ?_, h.outbound⟩
    · intro p hp
      exact nomatch hi.symm.trans hp
    · show generation ≤ s.document + 1
      omega
    · exact fun d g n hm => absurd hm (hno d g n)
    · exact fun n hn => absurd (h.native n hn) (hno _ _ n)
    · exact fun n hn => absurd (h.inbound n hn) (hno _ _ n)
    · exact fun n hn => absurd (h.relay n hn) (hno _ _ n)

end

theorem HostInv.mono {drawn' : List { bytes : List Byte // bytes.length = 16 }}
    (h : HostInv drawn s) (hs : ∀ bytes ∈ drawn, bytes ∈ drawn') : HostInv drawn' s :=
  { h with
    drawn := fun d g n hm => by
      obtain ⟨bytes, hby, hn⟩ := h.drawn d g n hm
      exact ⟨bytes, hs bytes hby, hn⟩ }

theorem encodeLowerHex_injective {a b : List Byte} (h : encodeLowerHex a = encodeLowerHex b) :
    a = b := by
  have ha := decodePairs_encodeLowerHex a
  rw [h, decodePairs_encodeLowerHex] at ha
  exact (Option.some.inj ha).symm

/-- The current document gets a nonce that was never given before. -/
theorem HostInv.bind (h : HostInv drawn s) {bytes : { bytes : List Byte // bytes.length = 16 }}
    (hf : bytes ∉ drawn) (hpos : 0 < s.native.navigationGeneration) :
    HostInv (drawn ++ [bytes]) { s with
      native := { s.native with documentNonce := some (encodeLowerHex bytes.val) }
      inbound := s.inbound ++ [.bind (encodeLowerHex bytes.val)]
      log := s.log ++ [.bound s.document s.native.navigationGeneration
        (encodeLowerHex bytes.val)] } := by
  have hne : ∀ d g, .bound d g (encodeLowerHex bytes.val) ∉ s.log := by
    intro d g hm
    obtain ⟨bytes', hm', he⟩ := h.drawn d g _ hm
    have hsa : bytes = bytes' := Subtype.ext (encodeLowerHex_injective he)
    exact hf (hsa ▸ hm')
  have hke : ∀ {fact}, fact ∈ s.log → fact ∈ s.log ++ [BridgeFact.bound s.document
      s.native.navigationGeneration (encodeLowerHex bytes.val)] :=
    fun hm => mem_append_left _ hm
  have hs : ∀ {d g n}, .bound d g n ∈ s.log ++ [BridgeFact.bound s.document
      s.native.navigationGeneration (encodeLowerHex bytes.val)] → .bound d g n ∈ s.log ∨
        d = s.document ∧ g = s.native.navigationGeneration ∧ n = encodeLowerHex bytes.val := by
    intro d g n hm
    rcases mem_snoc.mp hm with hm | he
    · exact .inl hm
    · cases he
      exact .inr ⟨rfl, rfl, rfl⟩
  refine ⟨?_, ?_, ?_, h.pending, fun _ => ⟨_, rfl⟩, h.generation, ?_, ?_, ?_, ?_, ?_, ?_, ?_, ?_⟩
  · exact h.document_snoc (by simp)
  · exact always_snoc.mpr ⟨h.facts, h.document⟩
  · exact (openCalls_snoc _ _).trans h.calls
  · intro d g n hm
    rcases hs hm with ho | ⟨rfl, rfl, -⟩
    · exact h.bound d g n ho
    · exact ⟨le_rfl, hpos, le_rfl, iff_of_true rfl rfl⟩
  · intro d g n hm
    rcases hs hm with ho | ⟨-, -, rfl⟩
    · obtain ⟨bytes', hm', he⟩ := h.drawn d g n ho
      exact ⟨bytes', mem_append_left _ hm', he⟩
    · exact ⟨bytes, mem_concat_self, rfl⟩
  · intro d d' g n n' hm hm'
    rcases hs hm with ho | ⟨rfl, rfl, -⟩ <;> rcases hs hm' with ho' | ⟨rfl, hg, -⟩
    · exact h.oneGeneration d d' g n n' ho ho'
    · exact (h.bound d g n ho).2.2.2.mpr hg
    · exact ((h.bound d' _ n' ho').2.2.2.mpr rfl).symm
    · rfl
  · intro d d' g g' n hm hm'
    rcases hs hm with ho | ⟨rfl, -, rfl⟩ <;> rcases hs hm' with ho' | ⟨rfl, -, hn⟩
    · exact h.oneNonce d d' g g' n ho ho'
    · exact absurd (hn ▸ ho) (hne d g)
    · exact absurd ho' (hne d' g')
    · rfl
  · intro n hn
    cases hn
    exact mem_concat_self
  · intro n hm
    rcases mem_snoc.mp hm with hm | he
    · exact hke (h.inbound n hm)
    · cases he
      exact mem_concat_self
  · exact fun n hn => hke (h.relay n hn)
  · intro d n c hm
    obtain ⟨g, hg⟩ := h.outbound d n c hm
    exact ⟨g, hke hg⟩

/-- A fact about a call leaves what is bound as it is. -/
theorem HostInv.of_call {fact : BridgeFact} (h : HostInv drawn s) (hl : s'.log = s.log ++ [fact])
    (hf : fact ≠ .navigated) (hb : ∀ d g n, fact ≠ .bound d g n)
    (hperm : Permitted s.log fact)
    (hc : openStep (openCalls s.log) fact = s'.native.pending.toList.map fun p => ⟨s.document,
      p.navigation, p.request⟩)
    (hpe : ∀ p, s'.native.pending = some p → p.navigation = s.native.navigationGeneration ∧
      ∃ n, s.native.documentNonce = some n)
    (hgen : s'.native.navigationGeneration = s.native.navigationGeneration)
    (hno : ∀ n, s'.native.documentNonce = some n → s.native.documentNonce = some n)
    (hi : s'.native.pending ≠ none → s'.native.documentNonce = s.native.documentNonce)
    (hdoc : s'.document = s.document) (hre : s'.relay = s.relay)
    (ho : s'.outbound = s.outbound)
    (hinb : ∀ n, .bind n ∈ s'.inbound → .bind n ∈ s.inbound) : HostInv drawn s' := by
  have hke : ∀ {d g n}, .bound d g n ∈ s'.log ↔ .bound d g n ∈ s.log := by
    intro d g n
    rw [hl, mem_append, mem_singleton, or_iff_left (Ne.symm (hb d g n))]
  refine ⟨?_, ?_, ?_, ?_, ?_, ?_, ?_, ?_, ?_, ?_, ?_, ?_, ?_, ?_⟩
  · rw [hdoc, hl]
    exact h.document_snoc hf
  · rw [hl]
    exact always_snoc.mpr ⟨h.facts, hperm⟩
  · rw [hl, hdoc, openCalls_snoc]
    exact hc
  · intro p hp
    rw [hgen]
    exact (hpe p hp).1
  · intro hne
    obtain ⟨p, hp⟩ := Option.ne_none_iff_exists'.mp hne
    obtain ⟨n, hn⟩ := (hpe p hp).2
    exact ⟨n, (hi hne).trans hn⟩
  · rw [hgen, hdoc]
    exact h.generation
  · intro d g n hm
    rw [hgen, hdoc]
    exact h.bound d g n (hke.mp hm)
  · exact fun d g n hm => h.drawn d g n (hke.mp hm)
  · exact fun d d' g n n' hm hm' => h.oneGeneration d d' g n n' (hke.mp hm) (hke.mp hm')
  · exact fun d d' g g' n hm hm' => h.oneNonce d d' g g' n (hke.mp hm) (hke.mp hm')
  · intro n hn
    rw [hdoc, hgen]
    exact hke.mpr (h.native n (hno n hn))
  · intro n hn
    rw [hdoc, hgen]
    exact hke.mpr (h.inbound n (hinb n hn))
  · intro n hn
    rw [hdoc, hgen]
    exact hke.mpr (h.relay n (hre ▸ hn))
  · intro d n c hm
    obtain ⟨g, hg⟩ := h.outbound d n c (ho ▸ hm)
    exact ⟨g, hke.mpr hg⟩

section

variable (h : HostInv drawn s)
include h

/-- An admitted call is the current document's own, and nothing is open. -/
theorem HostInv.permitted {issuer : ℕ} {nonce : Nonce} {call : RelayCall}
    {sent : Bool} (hid : ∃ g, .bound issuer g nonce ∈ s.log)
    (hno : s.native.documentNonce = some nonce) (hi : s.native.pending = none) :
    Permitted s.log (.admitted issuer nonce (s.native.requestOf call) sent) := by
  obtain ⟨g, hg⟩ := hid
  have hb := h.native nonce hno
  have hiss := h.oneNonce issuer s.document g _ nonce hg hb
  refine ⟨?_, hiss.trans h.document, ?_⟩
  · rw [h.calls, hi]
    rfl
  · rw [hiss]
    exact hb

theorem HostInv.receive {random : RandomBytes} (sent : Bool)
    (hfr : ∀ bytes, random = some bytes → bytes ∉ drawn) :
    HostInv (drawn ++ random.toList) (s.receive address random sent) := by
  have hsu : ∀ bytes ∈ drawn, bytes ∈ drawn ++ random.toList := fun _ hm => mem_append_left _ hm
  unfold Bridge.receive
  split
  · exact h.mono hsu
  rename_i issuer envelope rest hqu
  have hid : ∀ n c, envelope = .invoke n c → ∃ g, .bound issuer g n ∈ s.log := by
    rintro n c rfl
    exact h.outbound issuer n c (by rw [hqu]; exact mem_cons_self)
  have hn := h.consume hqu (s.crossed || (issuer ≠ s.document && envelope ≠ .bind))
  have hca := handleMessage_cases s.native address envelope random sent
  dsimp only
  generalize handleMessage s.native address envelope random sent = handled at hca ⊢
  cases hca with
  | ignored _ why =>
    have hfa : Bridge.facts s.document issuer { state := s.native } envelope = [] := by
      cases envelope <;> rfl
    rw [hfa, append_nil, append_nil]
    exact hn.mono hsu
  | unbound generation same =>
    have hs := (hn.regenerate same).mono hsu
    show HostInv _ { s with
      outbound := rest
      native := { s.native with navigationGeneration := generation }
      inbound := s.inbound ++ []
      crossed := s.crossed || (issuer ≠ s.document && WvLinkEnvelope.bind ≠ .bind)
      log := s.log ++ [] }
    rw [append_nil, append_nil]
    exact hs
  | bound bytes drew live fresh accepted =>
    subst drew
    have hpos : 0 < s.native.boundGeneration := by
      unfold BridgeState.boundGeneration
      split <;> omega
    exact (hn.regenerate (.inr rfl)).bind (hfr bytes rfl) hpos
  | refused document call refusal why =>
    show HostInv _ { s with
      outbound := rest
      inbound := s.inbound ++ [.result (immediateError call.request refusal)]
      crossed := s.crossed || (issuer ≠ s.document && WvLinkEnvelope.invoke document call ≠ .bind)
      log := s.log ++ [] }
    rw [append_nil]
    exact (hn.answer _).mono hsu
  | admitted document call taken live nonce idle =>
    have hpe : Permitted s.log (.admitted issuer document (s.native.requestOf call) true) :=
      h.permitted (hid _ _ rfl) nonce idle
    have hiss : issuer = s.document := hpe.2.1.trans h.document.symm
    have hf : BridgeFact.admitted issuer document (s.native.requestOf call) true ≠ .navigated :=
      by simp
    have hs : HostInv drawn { s with
        outbound := rest
        native := { s.native with
          pending := some ⟨s.native.navigationGeneration, call.request⟩ }
        crossed := s.crossed || (issuer ≠ s.document && WvLinkEnvelope.invoke document call ≠ .bind)
        log := s.log ++ [.admitted issuer document (s.native.requestOf call) true] } := by
      refine hn.of_call rfl hf (by simp) hpe ?_ ?_ rfl (fun _ h => h)
        (fun _ => rfl) rfl rfl rfl (fun _ h => h)
      · rw [hpe.1, hiss]
        rfl
      · intro p hp
        cases hp
        exact ⟨rfl, _, nonce⟩
    show HostInv _ { s with
      outbound := rest
      native := { s.native with
        pending := some ⟨s.native.navigationGeneration, call.request⟩ }
      inbound := s.inbound ++ []
      crossed := s.crossed || (issuer ≠ s.document && WvLinkEnvelope.invoke document call ≠ .bind)
      log := s.log ++ [.admitted issuer document (s.native.requestOf call) true] }
    rw [append_nil]
    exact hs.mono hsu
  | returned document call full live nonce idle =>
    have hpe : Permitted s.log (.admitted issuer document (s.native.requestOf call) false) :=
      h.permitted (hid _ _ rfl) nonce idle
    have hf : BridgeFact.admitted issuer document (s.native.requestOf call) false ≠ .navigated :=
      by simp
    have hans := hn.answer (immediateError call.request .queueUnavailable)
    have hs : HostInv drawn { s with
        outbound := rest
        inbound := s.inbound ++ [.result (immediateError call.request .queueUnavailable)]
        crossed := s.crossed || (issuer ≠ s.document && WvLinkEnvelope.invoke document call ≠ .bind)
        log := s.log ++ [.admitted issuer document (s.native.requestOf call) false] } := by
      refine hans.of_call rfl hf (by simp) hpe h.calls ?_ rfl (fun _ h => h)
        (fun _ => rfl) rfl rfl rfl (fun _ h => h)
      intro p hp
      exact nomatch idle.symm.trans hp
    exact hs.mono hsu

theorem HostInv.deliverOutcome (outcome : RendererBridgeOutcome) :
    HostInv drawn (s.deliverOutcome outcome) := by
  unfold Bridge.deliverOutcome deliver BridgeState.settle
  split
  · exact h
  by_cases hpe : s.native.pending = some ⟨outcome.navigation, outcome.request⟩
  · rw [if_pos hpe]
    have ho : openCalls s.log = [answered s.document outcome] := by
      rw [h.calls, hpe]
      rfl
    have hperm : Permitted s.log (.evaluated s.document outcome) := by
      refine ⟨h.document, ?_⟩
      rw [ho]
      exact mem_singleton_self _
    have hf : BridgeFact.evaluated s.document outcome ≠ .navigated := by simp
    refine h.of_call rfl hf (by simp) hperm ?_ ?_ rfl
      (fun _ h => h) (fun h => absurd rfl h) rfl rfl rfl ?_
    · show (openCalls s.log).erase (answered s.document outcome) = []
      rw [ho, erase_cons_head]
    · exact fun p hp => nomatch hp
    · intro n hm
      rcases mem_snoc.mp hm with hm | hm
      · exact hm
      · exact nomatch hm
  · rw [if_neg hpe]
    show HostInv drawn { s with
      inbound := s.inbound ++ []
      log := s.log ++ [] }
    rw [append_nil, append_nil]
    exact h

theorem HostInv.verify (other : ℕ) :
    HostInv drawn { s with native := s.native.bindWebview other } := by
  have hnat : ∀ state : BridgeState, state.bindWebview other =
      { state with expectedWebview := (state.bindWebview other).expectedWebview } := by
    intro state
    unfold BridgeState.bindWebview
    split <;> rfl
  rw [hnat]
  exact ⟨h.document, h.facts, h.calls, h.pending, h.pendingBound, h.generation, h.bound, h.drawn,
    h.oneGeneration, h.oneNonce, h.native, h.inbound, h.relay, h.outbound⟩

theorem HostInv.destroy : HostInv drawn s.destroy :=
  have hf : BridgeFact.destroyed ≠ .navigated := by simp
  h.of_call rfl hf (by simp) trivial rfl nofun rfl
    nofun (fun hne => absurd rfl hne) rfl rfl rfl (fun _ h => h)

/-- Without a wrap the next document has a generation of its own. -/
theorem HostInv.navigate (hwr : s.document + 2 < 2 ^ 64) : HostInv drawn s.navigate := by
  have hgen : s.native.navigationStarted.navigationGeneration =
      s.native.navigationGeneration + 1 := by
    show max ((s.native.navigationGeneration + 1) % 2 ^ 64) 1 = _
    have hle := h.generation
    omega
  have hke : ∀ {d g n}, .bound d g n ∈ s.log ++ [BridgeFact.navigated] ↔ .bound d g n ∈ s.log := by
    intro d g n
    rw [mem_append, mem_singleton, or_iff_left (by simp)]
  have ho : ∀ {d g n}, .bound d g n ∈ s.log ++ [BridgeFact.navigated] →
      d ≤ s.document ∧ 0 < g ∧ g ≤ s.native.navigationGeneration := by
    intro d g n hm
    obtain ⟨hd, hpos, hg, -⟩ := h.bound d g n (hke.mp hm)
    exact ⟨hd, hpos, hg⟩
  refine ⟨?_, ?_, ?_, nofun, fun hne => absurd rfl hne, ?_, ?_, ?_, ?_, ?_, nofun, nofun, nofun, ?_⟩
  · show s.document + 1 = documentOf (s.log ++ [.navigated])
    rw [documentOf_navigated, h.document]
  · exact always_snoc.mpr ⟨h.facts, trivial⟩
  · exact openCalls_snoc _ _
  · show s.native.navigationStarted.navigationGeneration ≤ s.document + 1 + 1
    rw [hgen]
    exact Nat.succ_le_succ h.generation
  · intro d g n hm
    obtain ⟨hd, hpos, hg⟩ := ho hm
    show d ≤ s.document + 1 ∧ 0 < g ∧ g ≤ s.native.navigationStarted.navigationGeneration ∧
      (d = s.document + 1 ↔ g = s.native.navigationStarted.navigationGeneration)
    rw [hgen]
    exact ⟨by omega, hpos, by omega, iff_of_false (by omega) (by omega)⟩
  · exact fun d g n hm => h.drawn d g n (hke.mp hm)
  · exact fun d d' g n n' hm hm' => h.oneGeneration d d' g n n' (hke.mp hm) (hke.mp hm')
  · exact fun d d' g g' n hm hm' => h.oneNonce d d' g g' n (hke.mp hm) (hke.mp hm')
  · intro d n c hm
    rcases mem_snoc.mp hm with hm | hm
    · obtain ⟨g, hg⟩ := h.outbound d n c hm
      exact ⟨g, hke.mpr hg⟩
    · exact nomatch hm

end

/-! ## Runs -/

theorem hostInv_start (webview admittedChannel : ℕ) :
    HostInv [] (Bridge.start webview admittedChannel) := by
  refine ⟨rfl, always_nil _, rfl, nofun, fun hne => absurd rfl hne, Nat.zero_le _, nofun, nofun,
    nofun, nofun,
    nofun, nofun, nofun, ?_⟩
  intro d n c hm
  exact nomatch mem_singleton.mp hm

/-- One event, which draws nothing that was drawn before. -/
theorem HostInv.step (h : HostInv drawn s) {event : BridgeEvent}
    (hf : ∀ bytes ∈ draws [event], bytes ∉ drawn)
    (hwr : s.document + navigations [event] < 2 ^ 64 - 1) :
    HostInv (drawn ++ draws [event]) (s.step address event) := by
  have hno : ∀ {s' : Bridge}, HostInv drawn s' → HostInv (drawn ++ []) s' := by
    intro s' h'
    rwa [append_nil]
  cases event with
  | invoke args => exact hno (h.pageInvoke args)
  | window => exact hno h.dispatch
  | native random sent =>
    cases random with
    | none =>
      have hs : HostInv (drawn ++ (none : RandomBytes).toList) (s.receive address none sent) :=
        h.receive sent (by simp)
      exact hs
    | some bytes =>
      have hn := hf bytes (mem_singleton_self _)
      have hs : HostInv (drawn ++ (some bytes : RandomBytes).toList)
          (s.receive address (some bytes) sent) :=
        h.receive sent fun _ hso => Option.some.inj hso ▸ hn
      exact hs
  | evaluate => exact hno h.evaluate
  | deliver outcome => exact hno (h.deliverOutcome outcome)
  | verify other => exact hno (h.verify other)
  | navigate =>
    have ho : s.document + 1 < 2 ^ 64 - 1 := hwr
    exact hno (h.navigate (by omega))
  | destroy => exact hno h.destroy

end Steps

theorem step_document (address : ℕ) (s : Bridge) (event : BridgeEvent) :
    (s.step address event).document = s.document + navigations [event] := by
  cases event with
  | invoke | verify | navigate | destroy => rfl
  | window =>
    show s.dispatch.document = s.document
    unfold Bridge.dispatch
    split <;> rfl
  | native random sent =>
    show (s.receive address random sent).document = s.document
    unfold Bridge.receive
    split <;> rfl
  | evaluate =>
    show s.evaluate.document = s.document
    unfold Bridge.evaluate
    split <;> rfl
  | deliver outcome =>
    show (s.deliverOutcome outcome).document = s.document
    unfold Bridge.deliverOutcome
    split <;> rfl

theorem run_snoc (webview admittedChannel address : ℕ) (events : List BridgeEvent)
    (event : BridgeEvent) :
    Bridge.run webview admittedChannel address (events ++ [event]) =
      (Bridge.run webview admittedChannel address events).step address event := by
  unfold Bridge.run
  rw [foldl_append]
  rfl

theorem navigations_append (events later : List BridgeEvent) :
    navigations (events ++ later) = navigations events + navigations later :=
  countP_append

theorem run_document (webview admittedChannel address : ℕ) (events : List BridgeEvent) :
    (Bridge.run webview admittedChannel address events).document = navigations events := by
  induction events using reverseRecOn with
  | nil => rfl
  | append_singleton events event ih => rw [run_snoc, step_document, ih, navigations_append]

/-- The whole run, as long as the generations do not come round. -/
theorem hostInv_run (webview admittedChannel address : ℕ) {events : List BridgeEvent}
    (hf : (draws events).Nodup) (hwr : navigations events < 2 ^ 64 - 1) :
    HostInv (draws events) (Bridge.run webview admittedChannel address events) := by
  induction events using reverseRecOn with
  | nil => exact hostInv_start webview admittedChannel
  | append_singleton events event ih =>
    have hdr : draws (events ++ [event]) = draws events ++ draws [event] := filterMap_append
    rw [hdr] at hf ⊢
    rw [navigations_append] at hwr
    obtain ⟨hb, -, hdi⟩ := nodup_append.mp hf
    rw [run_snoc]
    refine (ih hb (by omega)).step ?_ ?_
    · exact fun bytes hn ho => hdi bytes ho bytes hn rfl
    · rw [run_document]
      exact hwr

/-! ## What a log allows -/

/-- What an allowed log says of its calls. -/
theorem mem_openCalls {call : OpenCall} (h : call ∈ openCalls log) :
    ∃ nonce request, .admitted call.document nonce request true ∈ log ∧
      request.navigation = call.navigation ∧ request.request = call.request := by
  induction log using reverseRecOn with
  | nil => exact nomatch h
  | append_singleton log fact ih =>
    rw [openCalls_snoc] at h
    have hke : call ∈ openCalls log → ∃ nonce request,
        .admitted call.document nonce request true ∈ log ++ [fact] ∧
          request.navigation = call.navigation ∧ request.request = call.request := by
      intro hm
      obtain ⟨nonce, request, ha, hs⟩ := ih hm
      exact ⟨nonce, request, mem_append_left _ ha, hs⟩
    cases fact with
    | bound => exact hke h
    | admitted issuer nonce request sent =>
      cases sent with
      | false => exact hke h
      | true =>
        rcases mem_snoc.mp h with ho | he
        · exact hke ho
        · cases he
          exact ⟨nonce, request, mem_concat_self, rfl, rfl⟩
    | evaluated document outcome => exact hke (mem_of_mem_erase h)
    | navigated | destroyed => exact nomatch h

/-- How often a call was handed to the application. -/
def admissions (call : OpenCall) (log : List BridgeFact) : ℕ :=
  log.countP fun fact => match fact with
    | .admitted issuer _ request true => call = ⟨issuer, request.navigation, request.request⟩
    | _ => false

/-- How often an outcome of a call was evaluated in its document. -/
def evaluations (call : OpenCall) (log : List BridgeFact) : ℕ :=
  log.countP fun fact => match fact with
    | .evaluated document outcome => call = answered document outcome
    | _ => false

/-- A call is answered at most as often as it was handed over. -/
theorem evaluations_le (h : Always Permitted log) (call : OpenCall) :
    evaluations call log + (openCalls log).count call ≤ admissions call log := by
  induction log using reverseRecOn with
  | nil => exact le_rfl
  | append_singleton log fact ih =>
    obtain ⟨hl, hf⟩ := always_snoc.mp h
    have hle := ih hl
    have hev : evaluations call (log ++ [fact]) =
      evaluations call log + evaluations call [fact] := countP_append
    have had : admissions call (log ++ [fact]) =
      admissions call log + admissions call [fact] := countP_append
    rw [openCalls_snoc, hev, had]
    cases fact with
    | bound => exact hle
    | admitted issuer nonce request sent =>
      cases sent with
      | false => exact hle
      | true =>
        have hc : ((openCalls log) ++
            [(⟨issuer, request.navigation, request.request⟩ : OpenCall)]).count call =
              (openCalls log).count call +
                admissions call [.admitted issuer nonce request true] := by
          rw [count_append, count_singleton]
          unfold admissions
          rw [countP_singleton]
          simp only [beq_iff_eq, decide_eq_true_eq, @eq_comm _ call]
        show evaluations call log + 0 + ((openCalls log) ++ _).count call ≤ _
        omega
    | evaluated document outcome =>
      have hc : evaluations call [.evaluated document outcome] +
          ((openCalls log).erase (answered document outcome)).count call ≤
            (openCalls log).count call := by
        unfold evaluations
        rw [countP_singleton]
        by_cases hs : call = answered document outcome
        · have hpos := count_pos_iff.mpr hf.2
          rw [hs, count_erase_self]
          simp only [decide_true, if_true]
          omega
        · simp [hs]
      show evaluations call log + evaluations call [.evaluated document outcome] +
        ((openCalls log).erase (answered document outcome)).count call ≤ admissions call log + 0
      omega
    | navigated | destroyed =>
      exact (Nat.le_add_right _ _).trans hle

end Keld.Bridge
