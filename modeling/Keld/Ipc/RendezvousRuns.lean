/-
# `Keld.Ipc.RendezvousRuns` — the listener, step by step

What each fact of a run says of those before it is `RendezvousPermitted`.  The
invariant has two halves: what a listener is wherever it stands
(`RendezvousCore`), and what it has in hand at each place (`Place`).  Every step
keeps both (`RendezvousInv.step`), so a run does (`run_rendezvousInv`).
-/
import Keld.Ipc.BootstrapSafety
import Keld.Ipc.RendezvousSafety

namespace Keld.Ipc

open List RendezvousFact

/-! ## Logs -/

/-- The connection in hand, after one fact more. -/
def RendezvousFact.takes (hand : Option ℕ) : RendezvousFact → Option ℕ
  | .accepted conn => some conn
  | .refused _ => none
  | .called _ => none
  | .returned _ _ => none
  | _ => hand

def inHand (log : List RendezvousFact) : Option ℕ := log.foldl takes none

def RendezvousFact.bounds (deadline : Instant) : RendezvousFact → Instant
  | .called deadline => deadline
  | _ => deadline

/-- The deadline of the last call. -/
def callBound (log : List RendezvousFact) : Instant := log.foldl bounds 0

def RendezvousFact.since (facts : List RendezvousFact) : RendezvousFact → List RendezvousFact
  | .called _ => []
  | fact => facts ++ [fact]

/-- What was noted since the last call. -/
def sinceCalled (log : List RendezvousFact) : List RendezvousFact :=
  log.foldl since []

section Log

variable (log : List RendezvousFact) (fact : RendezvousFact)

@[simp] theorem inHand_snoc : inHand (log ++ [fact]) = fact.takes (inHand log) := foldl_append ..

@[simp] theorem callBound_snoc : callBound (log ++ [fact]) = fact.bounds (callBound log) :=
  foldl_append ..

@[simp] theorem sinceCalled_snoc : sinceCalled (log ++ [fact]) = fact.since (sinceCalled log) :=
  foldl_append ..

end Log

/-- The deadline has come, or the clock cannot represent the time a peer would be given. -/
def OutOfTime (config : RendezvousConfig) (deadline now : Instant) : Prop :=
  deadline ≤ now ∨ config.horizon < now + appLinkIoDeadline

/-- An acknowledgement that matches, of a peer that was authenticated. -/
structure Acknowledges (config : RendezvousConfig) (t : Transcript) (pin : PeerPin)
    (attempt : PeerAttempt) (heard : List Delivery) : Prop where
  binding : t.binding = config.binding
  clientPid : t.clientPid = attempt.processId
  serverPid : t.serverPid = config.processId
  authenticated : authenticatePeer attempt.processId attempt.sessionId attempt.answers = .ok pin
  alive : attempt.answers.exitedAfter = .ok false
  answered : (hello t.clientNonce).bytes ++ (hello t.serverNonce).bytes ++
    lifecycleBindingRecord acknowledgementMagic t <+: arriving heard

/-- What each fact says of those before it. -/
def RendezvousPermitted (config : RendezvousConfig) (before : List RendezvousFact) :
    RendezvousFact → Prop
  | .called _ => inHand before = none
  | .accepted _ => inHand before = none ∧ ∀ conn, .consumed conn ∉ before
  | .windowed conn started until_ =>
    inHand before = some conn ∧ started < until_ ∧ until_ ≤ callBound before
  | .refused conn => inHand before = some conn
  | .acknowledged conn t pin attempt heard =>
    inHand before = some conn ∧ Acknowledges config t pin attempt heard
  | .consumed conn =>
    inHand before = some conn ∧
      (∃ t pin attempt heard, .acknowledged conn t pin attempt heard ∈ before) ∧
      ∀ other, .consumed other ∉ before
  | .closed time => OutOfTime config (callBound before) time
  | .hostFailed => True
  | .spent => (∃ conn, .consumed conn ∈ before) ∨ ∃ time, .closed time ∈ before
  | .returned .failed _ => .hostFailed ∈ sinceCalled before ∨ .spent ∈ sinceCalled before
  | .returned .none time => OutOfTime config (callBound before) time
  | .returned (.peer conn t) time =>
    inHand before = some conn ∧ time < callBound before ∧ .consumed conn ∈ before ∧
      ∃ pin attempt heard, .acknowledged conn t pin attempt heard ∈ before

/-! ## The invariant -/

/-- What was told is no confirmation, or that of an acknowledgement the one-shot was spent on. -/
def Confirmed (log : List RendezvousFact) (conn : ℕ) (bytes : List Byte) : Prop :=
  Hindered bytes ∨ .consumed conn ∈ log ∧ ∃ t pin attempt heard,
    .acknowledged conn t pin attempt heard ∈ log ∧ bytes <+: t.confirmation

variable {conn : ℕ} {bytes : List Byte}

theorem Confirmed.shorter {log : List RendezvousFact} {whole : List Byte}
    (h : Confirmed log conn whole) (hfr : bytes <+: whole) : Confirmed log conn bytes := by
  rcases h with hhi | ⟨hc, t, pin, attempt, heard, hac, hwh⟩
  · exact .inl (hhi.shorter hfr)
  · exact .inr ⟨hc, t, pin, attempt, heard, hac, hfr.trans hwh⟩

theorem Confirmed.append {log : List RendezvousFact} (h : Confirmed log conn bytes)
    (facts : List RendezvousFact) :
    Confirmed (log ++ facts) conn bytes := by
  rcases h with hhi | ⟨hc, t, pin, attempt, heard, hac, hwh⟩
  · exact .inl hhi
  · exact .inr ⟨mem_append_left _ hc, t, pin, attempt, heard, mem_append_left _ hac, hwh⟩

/-- What the listener is wherever it stands. -/
structure RendezvousCore (s : RendezvousListener) : Prop where
  permitted : Always (RendezvousPermitted s.config) s.log
  bound : callBound s.log = s.deadline
  spent : s.consumed = true →
    (∃ conn, .consumed conn ∈ s.log) ∨ ∃ time, .closed time ∈ s.log
  gone : s.server = false → s.consumed = true
  fresh : s.consumed = false → ∀ conn, .consumed conn ∉ s.log
  ready : s.consumed = false → ∀ conn, s.connection = some conn →
    ∃ party, s.parties[conn]? = some party ∧ (party.broken = false → Between party.sent)
  sent : ∀ conn party, s.parties[conn]? = some party → Confirmed s.log conn party.sent
  met : ∀ conn party, s.parties[conn]? = some party → Confirmed s.log conn (arriving party.met)

/-- A connection is being admitted. -/
structure HeldBy (log : List RendezvousFact) (connection : Option ℕ) (consumed : Bool) (conn : ℕ) :
    Prop where
  hand : inHand log = some conn
  connection : connection = some conn
  unspent : consumed = false

/-- The party has been told a challenge, and its acknowledgement was read. -/
structure AnsweredBy (log : List RendezvousFact) (parties : List RendezvousParty) (conn : ℕ)
    (t : Transcript) : Prop where
  noted : ∃ pin attempt heard, .acknowledged conn t pin attempt heard ∈ log
  told : ∀ party, parties[conn]? = some party → party.broken = false →
    party.sent = t.challenged ∨ Foiled party.sent

namespace RendezvousListener

abbrev Held (s : RendezvousListener) (conn : ℕ) : Prop := HeldBy s.log s.connection s.consumed conn

abbrev Answered (s : RendezvousListener) (conn : ℕ) (t : Transcript) : Prop :=
  AnsweredBy s.log s.parties conn t

/-- What the listener has in hand. -/
def Place (s : RendezvousListener) : Prop :=
  match s.loop with
  | .idle | .top | .accept => inHand s.log = none
  | .openStream conn | .window conn | .setDeadlines conn | .peerProcessId conn
  | .peerSessionId conn | .tryClone conn _ | .exchange conn _ _ => s.Held conn
  | .acknowledged conn t | .consume conn t => s.Held conn ∧ s.Answered conn t
  | .confirm conn t => inHand s.log = some conn ∧ .consumed conn ∈ s.log ∧ s.Answered conn t
  | .confirmed conn t => inHand s.log = some conn ∧ .consumed conn ∈ s.log ∧
      ∃ pin attempt heard, .acknowledged conn t pin attempt heard ∈ s.log
  | .unconfirmed => True
  | .closing => OutOfTime s.config s.deadline s.now
  | .retry => inHand s.log = none

end RendezvousListener

/-! ## What keeps the core -/

/-- A fact that is no call, and spends nothing. -/
def RendezvousFact.Plain : RendezvousFact → Prop
  | .called _ | .consumed _ => False
  | _ => True

theorem RendezvousFact.Plain.bounds {fact : RendezvousFact} (h : fact.Plain) (deadline : Instant) :
    fact.bounds deadline = deadline := by
  cases fact <;> first | rfl | cases h

namespace RendezvousCore

variable {s : RendezvousListener}

section

variable (h : RendezvousCore s)
include h

theorem goto (loop : RendezvousLoop) : RendezvousCore (s.goto loop) := { h with }

theorem vacated (hc : s.consumed = true) :
    RendezvousCore { s with server := false } := { h with gone := fun _ => hc }

theorem note {fact : RendezvousFact} (hpl : fact.Plain)
    (hpe : RendezvousPermitted s.config s.log fact) : RendezvousCore (s.note fact) := { h with
  permitted := always_snoc.mpr ⟨h.permitted, hpe⟩
  bound := by
    show callBound (s.log ++ [fact]) = s.deadline
    rw [callBound_snoc, hpl.bounds, h.bound]
  spent hc := by
    rcases h.spent hc with ⟨conn, hco⟩ | ⟨time, hti⟩
    · exact .inl ⟨conn, mem_append_left _ hco⟩
    · exact .inr ⟨time, mem_append_left _ hti⟩
  fresh hunsp conn hm := by
    rcases mem_snoc.mp hm with hb | hl
    · exact h.fresh hunsp conn hb
    · rw [← hl] at hpl
      exact hpl
  sent conn party hp := (h.sent conn party hp).append _
  met conn party hp := (h.met conn party hp).append _ }

theorem finish {result : RendezvousResult}
    (hp : RendezvousPermitted s.config s.log (.returned result s.now)) :
    RendezvousCore (s.finish result) := by
  have hpl : RendezvousFact.Plain (.returned result s.now) := trivial
  exact (h.note hpl hp).goto .idle

theorem failed : RendezvousCore s.failed := by
  have hpl : RendezvousFact.Plain .hostFailed := trivial
  refine (h.note hpl trivial).finish (.inl ?_)
  show _ ∈ sinceCalled (s.log ++ [.hostFailed])
  rw [sinceCalled_snoc]
  exact mem_concat_self

theorem used (hc : s.consumed = true) : RendezvousCore ((s.note .spent).finish .failed) := by
  have hpl : RendezvousFact.Plain .spent := trivial
  refine (h.note hpl (h.spent hc)).finish (.inr ?_)
  show _ ∈ sinceCalled (s.log ++ [.spent])
  rw [sinceCalled_snoc]
  exact mem_concat_self

end

variable {conn : ℕ} {f : RendezvousParty → RendezvousParty}

theorem update_get {other : ℕ} {party : RendezvousParty}
    (h : (s.update conn f).parties[other]? = some party) :
    (other = conn ∧ ∃ old, s.parties[conn]? = some old ∧ party = f old) ∨
      other ≠ conn ∧ s.parties[other]? = some party := by
  have hg : (s.parties.modify conn f)[other]? = some party := h
  rw [getElem?_modify] at hg
  cases ho : s.parties[other]? with
  | none =>
    rw [ho] at hg
    cases hg
  | some old =>
    rw [ho, Option.map_eq_map, Option.map_some] at hg
    by_cases hs : conn = other
    · subst hs
      rw [if_pos rfl] at hg
      cases hg
      exact .inl ⟨rfl, old, ho, rfl⟩
    · rw [if_neg hs] at hg
      exact .inr ⟨Ne.symm hs, hg⟩

theorem update (h : RendezvousCore s)
    (hse : ∀ old, s.parties[conn]? = some old → Confirmed s.log conn (f old).sent)
    (hmet : ∀ old, s.parties[conn]? = some old → Confirmed s.log conn (arriving (f old).met))
    (hr : ∀ old, s.parties[conn]? = some old → s.consumed = false → s.connection = some conn →
      (f old).broken = false → Between (f old).sent) :
    RendezvousCore (s.update conn f) :=
  { h with
    ready := by
      intro hun other hco
      obtain ⟨old, ho, hbe⟩ := h.ready hun other hco
      by_cases hs : conn = other
      · subst hs
        refine ⟨f old, ?_, hr old ho hun hco⟩
        show (s.parties.modify conn f)[conn]? = _
        rw [getElem?_modify, ho, Option.map_eq_map, Option.map_some, if_pos rfl]
      · refine ⟨old, ?_, hbe⟩
        show (s.parties.modify conn f)[other]? = _
        rw [getElem?_modify, ho, Option.map_eq_map, Option.map_some, if_neg hs]
    sent := by
      intro other party hp
      rcases update_get hp with ⟨rfl, old, ho, rfl⟩ | ⟨-, hk⟩
      · exact hse old ho
      · exact h.sent other party hk
    met := by
      intro other party hp
      rcases update_get hp with ⟨rfl, old, ho, rfl⟩ | ⟨-, hk⟩
      · exact hmet old ho
      · exact h.met other party hk }

/-- An attempt that ends leaves its frames with the party, if they are whole. -/
theorem ended (h : RendezvousCore s) (hh : s.Held conn) (attempt : PeerAttempt)
    (heard : List Delivery) :
    RendezvousCore (s.update conn (·.after attempt.env heard (attempt.run s.config heard).2)) := by
  have hvo := admitPeer_speaks s.config attempt heard
  have hbe : ∀ old, s.parties[conn]? = some old → old.broken = false → Between old.sent := by
    intro old ho
    obtain ⟨party, hp, hr⟩ := h.ready hh.unspent conn hh.connection
    rw [ho] at hp
    cases hp
    exact hr
  refine h.update (fun old ho => ?_) (fun old ho => h.met conn old ho) fun old ho _ _ => ?_
  · unfold RendezvousParty.after
    split_ifs with hbr
    · exact h.sent conn old ho
    · obtain ⟨whole, hsp, hfr⟩ := hvo.front
      refine .inl ⟨_, (hbe old ho (eq_false_of_ne_true hbr)).append hsp, ?_⟩
      exact (prefix_append_right_inj _).mpr hfr
  · unfold RendezvousParty.after
    intro hwh
    obtain ⟨hb, hatt⟩ := Bool.or_eq_false_iff.mp hwh
    rw [if_neg (by rw [hb]; exact Bool.false_ne_true)]
    exact (hbe old ho hb).append (hvo.whole hatt)

end RendezvousCore

/-! ## The steps -/

structure RendezvousInv (s : RendezvousListener) : Prop where
  core : RendezvousCore s
  place : s.Place

namespace RendezvousInv

variable {s : RendezvousListener}

theorem finish (h : RendezvousCore s) {result : RendezvousResult}
    (hp : RendezvousPermitted s.config s.log (.returned result s.now)) :
    RendezvousInv (s.finish result) where
  core := h.finish hp
  place := inHand_snoc s.log (.returned result s.now)

theorem failed (h : RendezvousCore s) : RendezvousInv s.failed where
  core := h.failed
  place := inHand_snoc (s.log ++ [hostFailed]) (.returned .failed s.now)

theorem used (h : RendezvousCore s) (hc : s.consumed = true) :
    RendezvousInv ((s.note .spent).finish .failed) where
  core := h.used hc
  place := inHand_snoc (s.log ++ [spent]) (.returned .failed s.now)

variable {conn : ℕ} {party : RendezvousParty} {t : Transcript}

theorem refuse (h : RendezvousCore s) (hha : inHand s.log = some conn) :
    RendezvousInv (s.refuse conn) where
  core := by
    have hpl : RendezvousFact.Plain (.refused conn) := trivial
    exact (h.note hpl hha).goto .retry
  place := inHand_snoc s.log (.refused conn)

/-- What a party can have met is no confirmation that was not given. -/
theorem told (h : RendezvousInv s) (hp : s.parties[conn]? = some party) :
    Confirmed s.log conn (s.told conn party) := by
  have hse := h.core.sent conn party hp
  have hpl := h.place
  unfold RendezvousListener.told RendezvousListener.writing
  split_ifs with hbr
  · exact hse
  unfold RendezvousListener.Place at hpl
  split
  · rename_i other attempt heard hl
    rw [hl] at hpl
    split_ifs with hs
    · subst hs
      obtain ⟨found, hf, hr⟩ := h.core.ready hpl.unspent other hpl.connection
      rw [hp] at hf
      cases hf
      obtain ⟨whole, hsp, hfr⟩ := (admitPeer_speaks s.config attempt heard).front
      refine .inl ⟨_, (hr (eq_false_of_ne_true hbr)).append hsp, ?_⟩
      exact (prefix_append_right_inj _).mpr hfr
    · rwa [append_nil]
  · rwa [append_nil]

/-- Somebody is connected: the party that is connected still, or a new one. -/
theorem connect (h : RendezvousCore s) (hha : inHand s.log = none) (hun : s.consumed = false)
    (pid : UInt32) (client : Option HonestClient) :
    RendezvousCore (s.connect pid client).1 ∧ (s.connect pid client).1.Held (s.connect pid client).2 := by
  have hf := h.fresh hun
  unfold RendezvousListener.connect
  split
  · rename_i conn hco
    have hpl : RendezvousFact.Plain (.accepted conn) := trivial
    exact ⟨h.note hpl ⟨hha, hf⟩, inHand_snoc s.log (.accepted conn), hco, hun⟩
  · have hpl : RendezvousFact.Plain (.accepted s.parties.length) := trivial
    have had : ∀ {other : ℕ} {party new : RendezvousParty},
        (s.parties ++ [new])[other]? = some party →
          s.parties[other]? = some party ∨ party = new := by
      intro other party new hp
      rcases Nat.lt_or_ge other s.parties.length with hlt | hge
      · rw [getElem?_append_left hlt] at hp
        exact .inl hp
      · rw [getElem?_append_right hge] at hp
        exact .inr (mem_singleton.mp (mem_of_getElem? hp))
    have hn : ∀ conn, Confirmed s.log conn [] := fun conn => .inl (Between.hindered (.inl .nothing))
    have hcore : RendezvousCore { s with
        parties := s.parties ++ [{ pid := pid, client := client }]
        connection := some s.parties.length } :=
      { h with
        ready := by
          intro _ conn hco
          cases hco
          exact ⟨_, getElem?_concat_length, fun _ => .inl .nothing⟩
        sent := by
          intro conn party hp
          rcases had hp with hb | rfl
          · exact h.sent conn party hb
          · exact hn conn
        met := by
          intro conn party hp
          rcases had hp with hb | rfl
          · exact h.met conn party hb
          · exact hn conn }
    exact ⟨hcore.note hpl ⟨hha, hf⟩, inHand_snoc s.log (.accepted s.parties.length), rfl, hun⟩

theorem exchange (h : RendezvousCore s) (hh : s.Held conn) (attempt : PeerAttempt)
    (heard : List Delivery) (hl : s.loop = .exchange conn attempt heard) :
    RendezvousInv s.advance := by
  have he := h.ended hh attempt heard
  have hinv : RendezvousInv s := ⟨h, by unfold RendezvousListener.Place; rw [hl]; exact hh⟩
  unfold RendezvousListener.advance
  rw [hl]
  dsimp only
  rcases hru : attempt.run s.config heard with ⟨r, link⟩
  rw [hru] at he
  cases r with
  | error halt =>
    cases halt with
    | waiting => exact hinv
    | failed err => exact refuse he hh.hand
  | ok admission =>
    cases admission with
    | hostFailed => exact failed he
    | refused => exact refuse he hh.hand
    | acknowledged t pin =>
      obtain ⟨hbi, hcli, hsrv, hpin, hal, hw, hans⟩ := admitPeer_acknowledged hru
      have hpl : RendezvousFact.Plain (.acknowledged conn t pin attempt heard) := trivial
      refine ⟨(he.note hpl ⟨hh.hand, hbi, hcli, hsrv, hpin, hal,
        hans⟩).goto _, ⟨?_, hh.connection, hh.unspent⟩, ⟨pin, attempt, heard,
        mem_concat_self⟩, fun party hp hwh => ?_⟩
      · show inHand (s.log ++ [.acknowledged conn t pin attempt heard]) = some conn
        rw [inHand_snoc]
        exact hh.hand
      · rcases RendezvousCore.update_get hp with ⟨-, old, hol, rfl⟩ | ⟨ho, -⟩
        · obtain ⟨found, hf, hr⟩ := h.ready hh.unspent conn hh.connection
          rw [hol] at hf
          cases hf
          have hb := (Bool.or_eq_false_iff.mp hwh).1
          have hse : (old.after attempt.env heard link).sent = old.sent ++ t.challenged := by
            unfold RendezvousParty.after
            rw [if_neg (by rw [hb]; exact Bool.false_ne_true), hw]
            rfl
          rw [hse]
          exact (hr hb).challenged t
        · exact absurd rfl ho

theorem consumes (h : RendezvousCore s) (hh : s.Held conn) (hans : s.Answered conn t) :
    RendezvousCore ({ s with
      consumed := true
      server := false }.note (.consumed conn)) where
  permitted := by
    obtain ⟨pin, attempt, heard, hno⟩ := hans.noted
    exact always_snoc.mpr ⟨h.permitted, hh.hand, ⟨t, pin, attempt, heard, hno⟩, h.fresh hh.unspent⟩
  bound := by
    show callBound (s.log ++ [.consumed conn]) = s.deadline
    rw [callBound_snoc]
    exact h.bound
  spent _ := .inl ⟨conn, mem_concat_self⟩
  gone _ := rfl
  fresh hun := nomatch hun
  ready hun := nomatch hun
  sent other party hp := (h.sent other party hp).append _
  met other party hp := (h.met other party hp).append _

theorem advance (h : RendezvousInv s) : RendezvousInv s.advance := by
  have hpl := h.place
  have hco := h.core
  unfold RendezvousListener.Place at hpl
  by_cases hex : ∃ conn attempt heard, s.loop = .exchange conn attempt heard
  · obtain ⟨conn, attempt, heard, hl⟩ := hex
    rw [hl] at hpl
    exact exchange hco hpl attempt heard hl
  unfold RendezvousListener.advance
  generalize hl : s.loop = loop at hpl hex ⊢
  cases loop with
  | top =>
    by_cases hsrv : s.server = true
    · rw [if_neg (not_not.mpr hsrv)]
      split_ifs with hdl
      · exact ⟨hco.goto _, .inl hdl⟩
      · exact ⟨hco.goto _, hpl⟩
    · rw [if_pos hsrv]
      exact used hco (hco.gone (eq_false_of_ne_true hsrv))
  | window conn =>
    dsimp only
    split
    · rename_i hn
      have hpos : 0 < appLinkIoDeadline := by decide
      let config : AdmitConfig := ⟨someToken, appLinkIoDeadline, s.config.horizon, hpos⟩
      have hw : peerHandshakeWindow config.horizon s.now (some s.deadline) config.limit =
          none := hn
      have hel := peerHandshakeWindow_none hpos hw
      refine ⟨hco.goto _, ?_⟩
      rcases hel with ⟨instant, he, hle⟩ | hhor
      · cases he
        exact .inl hle
      · exact .inr hhor
    · rename_i timeout until_ hso
      obtain ⟨hs, -, hdl⟩ := peerHandshakeWindow_spec hso
      have hpn : RendezvousFact.Plain (.windowed conn s.now until_) := trivial
      refine ⟨(hco.note hpn ⟨hpl.hand, hs, ?_⟩).goto _, ?_, hpl.connection, hpl.unspent⟩
      · rw [hco.bound]
        exact hdl _ rfl
      · show inHand (s.log ++ [.windowed conn s.now until_]) = some conn
        rw [inHand_snoc]
        exact hpl.hand
  | exchange conn attempt heard => exact absurd ⟨conn, attempt, heard, rfl⟩ hex
  | acknowledged conn t =>
    dsimp only
    split_ifs with hdl
    · exact ⟨hco.goto _, .inl hdl⟩
    · exact ⟨hco.goto _, hpl⟩
  | consume conn t =>
    obtain ⟨hh, hans⟩ := hpl
    refine ⟨(consumes hco hh hans).goto _, ?_, mem_concat_self, ?_, hans.told⟩
    · show inHand (s.log ++ [.consumed conn]) = some conn
      rw [inHand_snoc]
      exact hh.hand
    · obtain ⟨pin, attempt, heard, hno⟩ := hans.noted
      exact ⟨pin, attempt, heard, mem_append_left _ hno⟩
  | unconfirmed =>
    dsimp only
    split_ifs with hdl
    · exact finish hco (.inl (by rw [hco.bound]; exact hdl))
    · exact failed hco
  | confirmed conn t =>
    obtain ⟨hha, hc, hno⟩ := hpl
    dsimp only
    split_ifs with hdl
    · exact finish hco (.inl (by rw [hco.bound]; exact hdl))
    · refine finish hco ⟨hha, ?_, hc, hno⟩
      rw [hco.bound]
      exact Nat.lt_of_not_le hdl
  | _ =>
    exact h

/-- A change of what a party has met is nothing to the listener. -/
theorem met (h : RendezvousInv s) (hp : s.parties[conn]? = some party) {delivery : Delivery}
    (hmet : arriving (party.met ++ [delivery]) <+: s.told conn party) :
    RendezvousInv (s.update conn fun party =>
      { party with met := party.met ++ [delivery] }) := by
  refine ⟨h.core.update (fun old ho => h.core.sent conn old ho) (fun old ho => ?_)
    (fun old ho hun hco => ?_), ?_⟩
  · rw [hp] at ho
    cases ho
    exact (h.told hp).shorter hmet
  · obtain ⟨found, hf, hr⟩ := h.core.ready hun conn hco
    rw [ho] at hf
    cases hf
    exact hr
  · have hans : ∀ {other : ℕ} {t : Transcript}, s.Answered other t → (s.update conn fun party =>
          { party with met := party.met ++ [delivery] }).Answered other t := by
      intro other t hans
      refine ⟨hans.noted, fun found hf hwh => ?_⟩
      rcases RendezvousCore.update_get hf with ⟨rfl, old, ho, rfl⟩ | ⟨-, hk⟩
      · exact hans.told old ho hwh
      · exact hans.told found hk hwh
    have hpl := h.place
    unfold RendezvousListener.Place at hpl ⊢
    rw [show (s.update conn fun party =>
      { party with met := party.met ++ [delivery] }).loop = s.loop from rfl]
    generalize s.loop = loop at hpl ⊢
    cases loop with
    | acknowledged | consume => exact ⟨hpl.1, hans hpl.2⟩
    | confirm other t => exact ⟨hpl.1, hpl.2.1, hans hpl.2.2⟩
    | _ => exact hpl

/-- A beginning of the receipt goes out. -/
theorem puts (h : RendezvousCore s) (hc : .consumed conn ∈ s.log)
    (hans : s.Answered conn t) {put : List Byte}
    (hfr : put <+: lifecycleBindingRecord receiptMagic t) :
    RendezvousCore (s.update conn fun party =>
      { party with sent := if party.broken then party.sent else party.sent ++ put }) := by
  have hsp : s.consumed = true := by
    by_contra hun
    exact h.fresh (eq_false_of_ne_true hun) conn hc
  obtain ⟨pin, attempt, heard, hno⟩ := hans.noted
  refine h.update (fun old ho => ?_) (fun old ho => h.met conn old ho)
    fun _ _ hun => absurd hsp (by rw [hun]; exact Bool.false_ne_true)
  split_ifs with hbr
  · exact h.sent conn old ho
  · rcases hans.told old ho (eq_false_of_ne_true hbr) with hch | hfo
    · refine .inr ⟨hc, t, pin, attempt, heard, hno, ?_⟩
      rw [hch, t.confirmation_eq]
      exact (prefix_append_right_inj _).mpr hfr
    · exact .inl (Between.hindered (.inr (foiled_append hfo _)))

theorem confirm (h : RendezvousInv s) (hl : s.loop = .confirm conn t) (fault : Option WriteFault)
    : RendezvousInv (s.confirm conn t fault) := by
  have hpl := h.place
  unfold RendezvousListener.Place at hpl
  rw [hl] at hpl
  obtain ⟨hha, hc, hans⟩ := hpl
  cases fault with
  | none =>
    exact ⟨(puts h.core hc hans (prefix_refl _)).goto _, hha, hc, hans.noted⟩
  | some fault =>
    exact ⟨(puts h.core hc hans (List.take_prefix ..)).goto _, trivial⟩

theorem acceptUntil (h : RendezvousCore s) (hha : inHand s.log = none)
    (hl : s.loop = .accept) (outcome : WaitOutcome) (pid : UInt32)
    (client : Option HonestClient) : RendezvousInv (s.acceptUntil outcome pid client) := by
  have hinv : RendezvousInv s := ⟨h, by unfold RendezvousListener.Place; rw [hl]; exact hha⟩
  unfold RendezvousListener.acceptUntil
  by_cases hc : s.consumed = true
  · rw [if_pos hc]
    exact used h hc
  rw [if_neg hc]
  obtain ⟨hcnd, hh⟩ := connect h hha (eq_false_of_ne_true hc) pid client
  cases outcome with
  | failed => exact failed h
  | cancelled => exact hinv
  | deadlineElapsed =>
    split_ifs with hdl
    · exact ⟨h.goto _, .inl hdl⟩
    · exact hinv
  | peerClosed => exact refuse hcnd hh.hand
  | ready => exact ⟨hcnd.goto _, hh⟩

/-- The instance is closed for good. -/
theorem closes (h : RendezvousCore s) (ho : OutOfTime s.config s.deadline s.now) :
    RendezvousCore ({ s with consumed := true }.note (.closed s.now)) where
  permitted := by
    refine always_snoc.mpr ⟨h.permitted, ?_⟩
    show OutOfTime s.config (callBound s.log) s.now
    rwa [h.bound]
  bound := by
    show callBound (s.log ++ [.closed s.now]) = s.deadline
    rw [callBound_snoc]
    exact h.bound
  spent _ := .inr ⟨s.now, mem_concat_self⟩
  gone _ := rfl
  fresh hun := nomatch hun
  ready hun := nomatch hun
  sent other party hp := (h.sent other party hp).append _
  met other party hp := (h.met other party hp).append _

theorem call (h : RendezvousCore s) (hha : inHand s.log = none) (deadline : Instant) :
    RendezvousInv (({ s with deadline := deadline }.note (.called deadline)).goto .top) where
  core :=
    { permitted := always_snoc.mpr ⟨h.permitted, hha⟩
      bound := callBound_snoc s.log (.called deadline)
      spent := fun hc => by
        rcases h.spent hc with ⟨conn, hco⟩ | ⟨time, hti⟩
        · exact .inl ⟨conn, mem_append_left _ hco⟩
        · exact .inr ⟨time, mem_append_left _ hti⟩
      gone := h.gone
      fresh := fun hun conn hm => by
        exact h.fresh hun conn (mem_of_snoc hm nofun)
      ready := h.ready
      sent := fun conn party hp => (h.sent conn party hp).append _
      met := fun conn party hp => (h.met conn party hp).append _ }
  place := inHand_snoc s.log (.called deadline)

theorem OutOfTime.tick {config : RendezvousConfig} {deadline now elapsed : ℕ}
    (h : OutOfTime config deadline now) : OutOfTime config deadline (now + elapsed) := by
  rcases h with hdl | hhor
  · exact .inl (Nat.le_add_right_of_le hdl)
  · refine .inr (Nat.lt_of_lt_of_le hhor ?_)
    rw [Nat.add_right_comm]
    exact Nat.le_add_right ..

theorem step (h : RendezvousInv s) (event : RendezvousEvent) : RendezvousInv (s.step event) := by
  have hpl := h.place
  unfold RendezvousListener.Place at hpl
  unfold RendezvousListener.step
  cases event with
  | tick elapsed =>
    refine ⟨{ h.core with }, ?_⟩
    generalize s.loop = loop at hpl ⊢
    cases loop with
    | closing => exact OutOfTime.tick hpl
    | _ => exact hpl
  | call deadline =>
    dsimp only
    split
    · rename_i hl
      rw [hl] at hpl
      exact call h.core hpl deadline
    · exact h
  | advance => exact h.advance
  | acceptUntil outcome pid client =>
    dsimp only
    split
    · rename_i hl
      rw [hl] at hpl
      exact acceptUntil h.core hpl hl outcome pid client
    · exact h
  | openStream | setDeadlines =>
    dsimp only
    split
    · rename_i conn hl
      rw [hl] at hpl
      split_ifs
      · exact ⟨h.core.goto _, hpl⟩
      · exact failed h.core
    · exact h
  | peerProcessId ok =>
    dsimp only
    split
    · rename_i conn hl
      rw [hl] at hpl
      split_ifs
      · exact ⟨h.core.goto _, hpl⟩
      · exact refuse h.core hpl.hand
    · exact h
  | peerSessionId sessionId =>
    dsimp only
    split
    · rename_i conn hl
      rw [hl] at hpl
      cases sessionId with
      | some sessionId => exact ⟨h.core.goto _, hpl⟩
      | none => exact refuse h.core hpl.hand
    · exact h
  | tryClone ok env answers =>
    dsimp only
    split
    · rename_i conn sessionId hl
      rw [hl] at hpl
      split
      · exact ⟨h.core.goto _, hpl⟩
      · exact failed h.core
    · exact h
  | hear delivery =>
    show RendezvousInv (s.hear delivery)
    unfold RendezvousListener.hear
    split
    · rename_i conn attempt heard hl
      rw [hl] at hpl
      split
      · split_ifs
        · exact ⟨h.core.goto _, hpl⟩
        · exact h
      · exact h
    · exact h
  | meet conn delivery =>
    show RendezvousInv (s.meet conn delivery)
    unfold RendezvousListener.meet
    split
    · exact h
    · rename_i party hp
      split
      · exact h
      · split
        · split_ifs with hfr
          · exact h.met hp (List.isPrefixOf_iff_prefix.mp hfr)
          · exact h
        · exact h
  | confirm fault =>
    dsimp only
    split
    · rename_i conn t hl
      exact h.confirm hl fault
    · exact h
  | closeTerminal ok =>
    dsimp only
    split
    · rename_i hl
      rw [hl] at hpl
      have hcl := closes h.core hpl
      split_ifs
      · refine finish (hcl.vacated rfl) ?_
        show OutOfTime s.config (callBound (s.log ++ [.closed s.now])) s.now
        rw [callBound_snoc]
        rwa [h.core.bound]
      · exact failed hcl
    · exact h
  | disconnect ok =>
    dsimp only
    split
    · rename_i hl
      rw [hl] at hpl
      split_ifs
      · exact ⟨{ h.core with ready := fun _ _ hco => nomatch hco }, hpl⟩
      · exact failed h.core
    · exact h

end RendezvousInv

theorem RendezvousListener.run_snoc (config : RendezvousConfig) (events : List RendezvousEvent)
    (event : RendezvousEvent) :
    run config (events ++ [event]) = (run config events).step event := foldl_append ..

theorem run_rendezvousInv (config : RendezvousConfig) (events : List RendezvousEvent) :
    RendezvousInv (RendezvousListener.run config events) := by
  induction events using reverseRecOn with
  | nil =>
    refine ⟨?_, rfl⟩
    exact
      { permitted := always_nil _
        bound := rfl
        spent := fun hc => nomatch hc
        gone := fun hg => nomatch hg
        fresh := fun _ _ hm => nomatch hm
        ready := fun _ _ hco => nomatch hco
        sent := fun _ _ hp => nomatch hp
        met := fun _ _ hp => nomatch hp }
  | append_singleton events event ih =>
    rw [RendezvousListener.run_snoc]
    exact ih.step event

end Keld.Ipc
