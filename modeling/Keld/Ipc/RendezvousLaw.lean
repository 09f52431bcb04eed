/-
# `Keld.Ipc.RendezvousLaw` — whoever completes was admitted

In every run of the listener against any parties the log keeps to
`RendezvousPermitted`; a client that completes holds the transcript of the one
acknowledgement the one-shot was spent on, so at most one ever does
(`rendezvous_law`).  The one-shot goes before the receipt: a client that dies in
between has spent it (`dying_client_consumes`).
-/
import Keld.Ipc.RendezvousRuns

namespace Keld.Ipc

open List RendezvousListener

theorem RendezvousListener.step_config (s : RendezvousListener) (event : RendezvousEvent) :
    (s.step event).config = s.config := by
  cases event with
  | advance =>
    show s.advance.config = s.config
    unfold advance
    grind [goto, note, finish, failed, update]
  | hear delivery =>
    show (s.hear delivery).config = s.config
    unfold hear
    grind [goto]
  | meet conn delivery =>
    show (s.meet conn delivery).config = s.config
    unfold meet
    grind [update]
  | acceptUntil outcome pid client =>
    have hco : (s.connect pid client).1.config = s.config := by
      unfold connect
      split <;> rfl
    have hac : (s.acceptUntil outcome pid client).config = s.config := by
      unfold acceptUntil
      cases outcome <;> grind [goto, note, finish, failed, refuse]
    grind [step]
  | confirm fault =>
    cases fault <;>
      grind [step, confirm, goto, update]
  | _ =>
    grind [step, goto, note, finish, failed, refuse]

theorem RendezvousListener.run_config (config : RendezvousConfig) (events : List RendezvousEvent) :
    (run config events).config = config := by
  induction events using reverseRecOn with
  | nil => rfl
  | append_singleton events event ih => rw [run_snoc, step_config, ih]

variable {s : RendezvousListener} {conn : ℕ} {done : RendezvousClient}

/-- A client that completes holds the transcript of its acknowledgement. -/
theorem RendezvousInv.completed (h : RendezvousInv s) (hd : s.Completes conn done) :
    .consumed conn ∈ s.log ∧ ∃ pin attempt heard,
      .acknowledged conn done.transcript pin attempt heard ∈ s.log := by
  obtain ⟨party, client, hp, -, hru⟩ := hd
  obtain ⟨-, -, -, hr⟩ := client_completed hru
  rcases h.core.met conn party hp with
    hhi | ⟨hc, t, pin, attempt, heard, hno, hmet⟩
  · exact absurd hr (hhi.unconfirmed _)
  · cases confirmation_injective (hr.trans hmet)
    exact ⟨hc, pin, attempt, heard, hno⟩

/-- The one-shot is spent once. -/
theorem consumed_once {config : RendezvousConfig} {log : List RendezvousFact}
    (h : Always (RendezvousPermitted config) log) {other : ℕ} (hco : .consumed conn ∈ log)
    (ho : .consumed other ∈ log) : conn = other := by
  obtain ⟨before, after, hl, -, -, hon⟩ := h.of_mem hco
  rw [hl, mem_append, mem_cons] at ho
  rcases ho with hb | hs | haf
  · exact absurd hb (hon other)
  · cases hs
    rfl
  · obtain ⟨middle, rest, rfl⟩ := append_of_mem haf
    have hp := h (before ++ .consumed conn :: middle) (.consumed other) rest
      (by rw [hl, append_assoc, cons_append])
    exact absurd (mem_append_right _ (mem_cons_self ..)) (hp.2.2 conn)

/-- Who completes holds the transcript of an acknowledged connection that the one-shot was spent
on, for an accepted binding; nothing else is decoded as a challenge. -/
theorem rendezvous_law (config : RendezvousConfig) (events : List RendezvousEvent) :
    Always (RendezvousPermitted config) (run config events).log ∧
    (∀ conn done party client, (run config events).parties[conn]? = some party →
      party.client = some client →
      (client.run party.pid config.processId party.met).1 = .ok done →
        client.expectation.accepts done.transcript.binding = some done.bindingKnowledge ∧
        done.transcript.clientPid = party.pid ∧ done.transcript.serverPid = config.processId ∧
        .consumed conn ∈ (run config events).log ∧
        ∃ pin attempt heard, .acknowledged conn done.transcript pin attempt heard ∈
          (run config events).log) ∧
    (∀ conn other done another, (run config events).Completes conn done →
      (run config events).Completes other another → conn = other) ∧
    (∀ (expectation : WindowsLifecycleExpectation) binding knowledge,
      expectation.accepts binding = some knowledge →
        expectation.installationId = binding.installationId ∧
        expectation.purpose = binding.purpose ∧
        (expectation.attemptId = some binding.attemptId ∧
            expectation.lifecycleChannelId = some binding.lifecycleChannelId ∨
          expectation.attemptId = none ∧ expectation.lifecycleChannelId = none ∧
            expectation.purpose = .keeperToSuccessor)) ∧
    ∀ (record : List Byte) clientNonce serverNonce clientPid serverPid binding,
      record.length = lifecycleBindingRecordLen →
        (decodeLifecycleChallenge record clientNonce serverNonce clientPid serverPid = .ok binding ↔
          record = lifecycleBindingRecord challengeMagic
            ⟨binding, clientNonce, serverNonce, clientPid, serverPid⟩) := by
  have hinv := run_rendezvousInv config events
  have hp := hinv.core.permitted
  have hco := run_config config events
  rw [hco] at hp
  refine ⟨hp, ?_, ?_, ?_, fun _ _ _ _ _ _ hl => decodeLifecycleChallenge_iff hl⟩
  · intro conn done party client hpa hcli hr
    obtain ⟨hac, hclientPid, hserverPid, -⟩ := client_completed hr
    have hcm : (run config events).Completes conn done := by
      refine ⟨party, client, hpa, hcli, ?_⟩
      rw [hco]
      exact hr
    exact ⟨hac, hclientPid, hserverPid, hinv.completed hcm⟩
  · intro conn other done another hd han
    exact consumed_once hp (hinv.completed hd).1 (hinv.completed han).1
  · intro expectation binding knowledge hac
    obtain ⟨hin, hpu, hids⟩ := accepts_iff.mp hac
    refine ⟨hin, hpu, ?_⟩
    rcases hids with ⟨hatt, hc, -⟩ | ⟨hatt, hc, hke, -⟩
    · exact .inl ⟨hatt, hc⟩
    · exact .inr ⟨hatt, hc, hke⟩

/-! ## Two runs -/

def idOf (byte : Byte) : LifecycleId := ⟨List.replicate 32 byte, length_replicate⟩

def nonceOf (byte : Byte) : SessionToken := ⟨List.replicate 32 byte, length_replicate⟩

def someRendezvous : RendezvousConfig where
  binding := ⟨idOf 1, idOf 2, idOf 3, .keeperToSuccessor, by decide⟩
  processId := 10
  horizon := 2 ^ 64

/-- The transcript of client 20 with the listener. -/
def someTranscript : Transcript := ⟨someRendezvous.binding, nonceOf 4, nonceOf 5, 20, 10⟩

def someClient : HonestClient where
  expectation := .exact someRendezvous.binding
  deadline := 10 ^ 10
  env := calmEnv
  answers :=
    { lifecycleEndpoint := true
      connect := .ok ()
      peerProcessId := .ok ()
      peerSessionId := .ok 1
      authenticateServer := some ⟨10, 1⟩
      exited := .ok false
      started := 0
      horizon := 2 ^ 64
      setDeadlines := .ok ()
      nonce := .ok (nonceOf 4)
      exitedAfter := .ok false
      finished := 0 }

def someAnswers : PeerAnswers where
  tokenSession := .ok 1
  authenticateClient := some ⟨20, 1⟩
  exited := .ok false
  nonce := .ok (nonceOf 5)
  exitedAfter := .ok false

def deliver : List Byte → Delivery
  | [] => .eof
  | first :: more => .bytes first more

/-- The client has acknowledged, and the one-shot is gone. -/
def acknowledgedRun : List RendezvousEvent :=
  [.call (10 ^ 10), .advance, .acceptUntil .ready 20 (some someClient), .openStream true, .advance,
    .setDeadlines true, .peerProcessId true, .peerSessionId (some 1),
    .tryClone true calmEnv someAnswers,
    .hear (deliver (hello (nonceOf 4)).bytes),
    .meet 0 (deliver ((hello (nonceOf 4)).bytes ++ (hello (nonceOf 5)).bytes)),
    .hear (deliver (hello (nonceOf 5)).bytes),
    .meet 0 (deliver (lifecycleBindingRecord challengeMagic someTranscript)),
    .hear (deliver (lifecycleBindingRecord acknowledgementMagic someTranscript)),
    .advance, .advance, .advance]

def confirmedRun : List RendezvousEvent :=
  acknowledgedRun ++ [.confirm none,
    .meet 0 (deliver (lifecycleBindingRecord receiptMagic someTranscript)), .advance]

/-- The client is gone when the receipt is written. -/
def abandonedRun : List RendezvousEvent :=
  acknowledgedRun ++ [.confirm (some ⟨0, .other 232⟩), .advance]

/-- Where the client of a connection stands. -/
def RendezvousListener.clientAt (s : RendezvousListener) (conn : ℕ) :
    Option (Except RendezvousHalt RendezvousClient) :=
  s.parties[conn]?.bind fun party =>
    party.client.map fun client => (client.run party.pid s.config.processId party.met).1

theorem RendezvousListener.completes_iff :
    s.Completes conn done ↔ s.clientAt conn = some (.ok done) := by
  unfold Completes clientAt
  simp only [Option.bind_eq_some_iff, Option.map_eq_some_iff]
  constructor
  · rintro ⟨party, client, hp, hcli, hr⟩
    exact ⟨party, hp, client, hcli, hr⟩
  · rintro ⟨party, hp, client, hcli, hr⟩
    exact ⟨party, client, hp, hcli, hr⟩

theorem rendezvous_law_confirmed :
    (run someRendezvous confirmedRun).Completes 0
        ⟨someTranscript, .independentlyExpected⟩ ∧
      ∀ other another,
        (run someRendezvous confirmedRun).Completes other another →
          0 = other := by
  have hd : (run someRendezvous confirmedRun).Completes 0
      ⟨someTranscript, .independentlyExpected⟩ :=
    completes_iff.mpr (by decide +kernel)
  refine ⟨hd, fun other another han => ?_⟩
  exact (rendezvous_law someRendezvous confirmedRun).2.2.1 0 other _ another hd han

def RendezvousFact.isConsumed : RendezvousFact → Bool
  | .consumed 0 => true
  | _ => false

def RendezvousLoop.isIdle : RendezvousLoop → Bool
  | .idle => true
  | _ => false

/-- The one-shot is spent on a client that is gone before it was told. -/
theorem dying_client_consumes :
    ¬ ∀ config events conn, .consumed conn ∈ (run config events).log →
      (run config events).loop = .idle →
        ∃ done, (run config events).Completes conn done := by
  intro h
  have hc : (run someRendezvous abandonedRun).log.any
      RendezvousFact.isConsumed = true := by decide +kernel
  have hi : (run someRendezvous abandonedRun).loop.isIdle = true := by
    decide +kernel
  have hwa : (run someRendezvous abandonedRun).clientAt 0 =
      some (.error .waiting) := by decide +kernel
  have hm : .consumed 0 ∈ (run someRendezvous abandonedRun).log := by
    obtain ⟨fact, hm, hf⟩ := any_eq_true.mp hc
    cases fact with
    | consumed conn =>
      cases conn with
      | zero => exact hm
      | succ _ => exact nomatch hf
    | _ => exact nomatch hf
  have hl : (run someRendezvous abandonedRun).loop = .idle := by
    generalize (run someRendezvous abandonedRun).loop = loop at hi
    cases loop with
    | idle => rfl
    | _ => exact nomatch hi
  obtain ⟨done, hd⟩ := h someRendezvous abandonedRun 0 hm hl
  rw [completes_iff, hwa] at hd
  cases hd

end Keld.Ipc
