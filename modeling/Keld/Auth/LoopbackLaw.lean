/-
# `Keld.Auth.LoopbackLaw` — one callback, whatever the schedule

`Allowed` says of every event of a worker's log what came before it: a check that
let it pass before every accept, read and write, no other peer once a byte was
read, one decision on all the bytes read, and no result before the page is
written or given up.  `Waiting` and `Replying` are the two phases of a live flow;
every poll keeps to them or ends the flow (`Waiting.poll`, `Replying.poll`).

The scan for the blank line starts three bytes in front of the chunk.  As no
blank line was in the bytes before it, that finds the first one of the whole
request (`position_resumed`), so the chunks it came in make no difference.
-/
import Keld.Auth.Loopback
import Keld.Lib.Trace

namespace Keld.Auth.Loopback

open List

/-! ## The blank line -/

variable {bytes : List Byte}

theorem position_none (h : position bytes = none) (n : ℕ) : ¬ blankLine <+: bytes.drop n := by
  induction bytes generalizing n with
  | nil =>
    rw [drop_nil]
    decide
  | cons b bytes ih =>
    rw [position] at h
    split_ifs at h with hf
    cases n with
    | zero => exact fun hpr => hf (List.isPrefixOf_iff_prefix.mpr hpr)
    | succ n => exact ih (Option.map_eq_none_iff.mp h) n

/-- Where none starts before, the scan may. -/
theorem position_drop {n : ℕ} (h : ∀ m < n, ¬ blankLine <+: bytes.drop m) :
    position bytes = (position (bytes.drop n)).map (· + n) := by
  induction n generalizing bytes with
  | zero =>
    rw [drop_zero]
    exact Option.map_id'.symm
  | succ n ih =>
    cases bytes with
    | nil => rfl
    | cons b bytes =>
      have hf : blankLine.isPrefixOf (b :: bytes) = false := eq_false_of_ne_true fun hp =>
          h 0 (Nat.succ_pos n) (List.isPrefixOf_iff_prefix.mp hp)
      rw [position, hf, drop_succ_cons, if_neg Bool.false_ne_true,
        ih fun m hm => h (m + 1) (Nat.succ_lt_succ hm), Option.map_map]
      rfl

theorem position_resumed {request : List Byte} (h : position request = none) (chunk : List Byte) :
    position (request ++ chunk) =
      (position ((request ++ chunk).drop (request.length - 3))).map (· + (request.length - 3)) := by
  refine position_drop fun m hm hpr => position_none h m ?_
  rw [drop_append_of_le_length (by omega)] at hpr
  have hl : blankLine.length ≤ (request.drop m).length := by
    have hfo : blankLine.length = 4 := rfl
    rw [length_drop, hfo]
    omega
  exact prefix_of_prefix_length_le hpr (prefix_append _ _) hl

/-! ## Reading a log -/

namespace Event

def bytesRead : Event → List Byte
  | .read _ bytes => bytes
  | _ => []

def bytesWritten : Event → List Byte
  | .write _ bytes => bytes
  | _ => []

/-- The peer that a byte was read from. -/
def owner : Event → Option ℕ
  | .read peer (_ :: _) => some peer
  | _ => none

def decision : Event → Option (List Byte × CallbackResult)
  | .decide request result => some (request, result)
  | _ => none

def result : Event → Option CallbackResult
  | .polled (.complete result) => some result
  | _ => none

/-- A check that found the flow cancelled or past its deadline. -/
def Stopping (deadline : ℕ) : Event → Prop
  | .check cancelled now => cancelled = true ∨ deadline ≤ now
  | _ => False

end Event

def received (log : List Event) : List Byte := log.flatMap Event.bytesRead

def written (log : List Event) : List Byte := log.flatMap Event.bytesWritten

def owners (log : List Event) : List ℕ := log.filterMap Event.owner

def decisions (log : List Event) : List (List Byte × CallbackResult) :=
  log.filterMap Event.decision

def results (log : List Event) : List CallbackResult := log.filterMap Event.result

section

variable (log : List Event) (e : Event)
include log e

theorem received_snoc : received (log ++ [e]) = received log ++ e.bytesRead := by
  rw [received, received, flatMap_append, flatMap_singleton]

theorem written_snoc : written (log ++ [e]) = written log ++ e.bytesWritten := by
  rw [written, written, flatMap_append, flatMap_singleton]

theorem owners_snoc : owners (log ++ [e]) = owners log ++ e.owner.toList := by
  rw [owners, owners, filterMap_append]
  cases h : e.owner <;> simp [h]

theorem decisions_snoc : decisions (log ++ [e]) = decisions log ++ e.decision.toList := by
  rw [decisions, decisions, filterMap_append]
  cases h : e.decision <;> simp [h]

theorem results_snoc : results (log ++ [e]) = results log ++ e.result.toList := by
  rw [results, results, filterMap_append]
  cases h : e.result <;> simp [h]

end

/-! ## What is allowed -/

/-- What a flow is bound with. -/
structure Setup where
  redirect : LoopbackRedirect
  pending : PendingAuthorization
  boundPort : UInt16
  deadline : ℕ

namespace Setup

def flow (setup : Setup) : LoopbackFlow :=
  .bound setup.redirect setup.pending setup.boundPort setup.deadline

/-- The decision on a request with a blank line, which is by its bytes alone. -/
def decided (setup : Setup) (request : List Byte) : Option CallbackResult :=
  (position request).map fun start =>
    callbackResult setup.redirect setup.boundPort (some setup.pending) request (start + 4)

end Setup

section Law

variable (setup : Setup) (world : World)

/-- No check has stopped the flow, and no poll has completed. -/
structure Running (log : List Event) : Prop where
  unstopped : ∀ e ∈ log, ¬ e.Stopping setup.deadline
  results : results log = []

/-- The last event is a check, at its moment, that let the flow pass. -/
structure Checked (log : List Event) : Prop where
  running : Running setup log
  last : ∃ front, log = front ++ [.check false (world front.length).now] ∧
    (world front.length).cancelled = false ∧ (world front.length).now < setup.deadline

/-- The result may be exposed. -/
structure Exposes (log : List Event) (result : CallbackResult) : Prop where
  undecided : decisions log = [] → ∃ error, result = .error error
  decided : ∀ request first, decisions log = [(request, first)] →
    (written log = page first.isOk ∧ result = first) ∨
    ∃ error, result = .error error ∧ (error.replyFailed = true ∨ error.deliveryStopped ≠ none) ∧
      ∀ error', first = .error error' → error.failure = error'.failure
  stopped : ∀ e ∈ log, e.Stopping setup.deadline →
    ∃ error, result = .error error ∧ error.deliveryStopped ≠ none

/-- The event is right after the events before it. -/
def Allowed (before : List Event) : Event → Prop
  | .check cancelled now => Running setup before ∧
      cancelled = (world before.length).cancelled ∧ now = (world before.length).now
  | .accept => Checked setup world before ∧ decisions before = [] ∧ owners before = []
  | .read peer _ => Checked setup world before ∧ decisions before = [] ∧
      ∀ owner ∈ owners before, owner = peer
  | .write peer bytes => Checked setup world before ∧
      (∃ request result, decisions before = [(request, result)] ∧
        written before ++ bytes <+: page result.isOk) ∧
      ∀ owner ∈ owners before, owner = peer
  | .decide request result => decisions before = [] ∧ request = received before ∧
      setup.decided request = some result
  | .polled .pending => results before = []
  | .polled (.complete result) =>
    (results before = [] ∧ Exposes setup before result) ∨
    (results before ≠ [] ∧ result = .error (.new .consumed))

/-! ## The phases of a flow -/

/-- What stays of a live flow. -/
structure Live (run : Run) : Prop where
  redirect : run.flow.redirect = setup.redirect
  boundPort : run.flow.boundPort = setup.boundPort
  deadline : run.flow.deadline = setup.deadline
  consumed : run.flow.consumed = false
  running : Running setup run.log
  allowed : Always (Allowed setup world) run.log
  fits : (received run.log).length ≤ maxOauthTextBytes

/-- No blank line yet. -/
structure Waiting (run : Run) : Prop extends Live setup world run where
  listener : run.flow.listener = true
  pending : run.flow.pending = some setup.pending
  undecided : decisions run.log = []
  unwritten : written run.log = []
  open' : position (received run.log) = none
  accepted : ∀ accepted, run.flow.accepted = some accepted →
    accepted.reply = none ∧ accepted.request = received run.log ∧
      ∀ owner ∈ owners run.log, owner = accepted.peer
  nobody : run.flow.accepted = none → received run.log = []
  idle : ∀ idle, run.flow.idle = some idle →
    idle.request = [] ∧ idle.reply = none ∧ received run.log = []
  owned : received run.log = [] ↔ owners run.log = []

/-- The decision is made, and the page not fully written. -/
structure Replying (run : Run) : Prop extends Live setup world run where
  idle : run.flow.idle = none
  reply : ∃ accepted reply result, run.flow.accepted = some accepted ∧
    accepted.reply = some reply ∧ accepted.request = [] ∧ reply.result = some result ∧
    reply.bytes = page result.isOk ∧ reply.written < reply.bytes.length ∧
    written run.log = reply.bytes.take reply.written ∧
    decisions run.log = [(received run.log, result)] ∧
    setup.decided (received run.log) = some result ∧
    ∀ owner ∈ owners run.log, owner = accepted.peer

/-- How the bytes read were settled by a completed flow. -/
inductive Settled (log : List Event) (result : CallbackResult) : Prop
  | open' (fits : (received log).length ≤ maxOauthTextBytes)
      (noEnd : position (received log) = none) (undecided : decisions log = [])
  | decided (fits : (received log).length ≤ maxOauthTextBytes) (first : CallbackResult)
      (decision : decisions log = [(received log, first)])
      (byBytes : setup.decided (received log) = some first)
  | tooLong (long : maxOauthTextBytes < (received log).length) (undecided : decisions log = [])
      (limit : result = .error (.ofPrimitive .inputLimit))

/-- Nothing is owned any more. -/
structure Released (flow : LoopbackFlow) : Prop where
  consumed : flow.consumed = true
  listener : flow.listener = false
  accepted : flow.accepted = none
  idle : flow.idle = none
  pending : flow.pending = none

/-- The poll at hand completes with the result. -/
structure Ended (result : CallbackResult) (run : Run) : Prop where
  released : Released run.flow
  results : results run.log = []
  allowed : Always (Allowed setup world) run.log
  exposes : Exposes setup run.log result
  settled : Settled setup run.log result

/-- What a poll may come to. -/
def Outcome (polled : LoopbackProgress × Run) : Prop :=
  match polled.1 with
  | .pending => Waiting setup world polled.2 ∨ Replying setup world polled.2
  | .complete result => Ended setup world result polled.2

variable {setup world} {run : Run}

/-! ## Events that change no phase -/

/-- Nothing is read, written, decided or completed by the event. -/
structure Quiet (e : Event) : Prop where
  read : e.bytesRead = []
  wrote : e.bytesWritten = []
  owner : e.owner = none
  decision : e.decision = none
  result : e.result = none

theorem quiet_check (cancelled : Bool) (now : ℕ) : Quiet (.check cancelled now) :=
  ⟨rfl, rfl, rfl, rfl, rfl⟩

theorem quiet_accept : Quiet .accept := ⟨rfl, rfl, rfl, rfl, rfl⟩

theorem quiet_read (peer : ℕ) : Quiet (.read peer []) := ⟨rfl, rfl, rfl, rfl, rfl⟩

theorem quiet_write (peer : ℕ) : Quiet (.write peer []) := ⟨rfl, rfl, rfl, rfl, rfl⟩

section Quiet

variable {e : Event} {log : List Event}

theorem Quiet.received (h : Quiet e) : received (log ++ [e]) = received log := by
  rw [received_snoc, h.read, append_nil]

theorem Quiet.written (h : Quiet e) : written (log ++ [e]) = Loopback.written log := by
  rw [written_snoc, h.wrote, append_nil]

theorem Quiet.owners (h : Quiet e) : owners (log ++ [e]) = owners log := by
  rw [owners_snoc, h.owner]
  exact append_nil _

theorem Quiet.decisions (h : Quiet e) : decisions (log ++ [e]) = decisions log := by
  rw [decisions_snoc, h.decision]
  exact append_nil _

theorem Quiet.results (h : Quiet e) : results (log ++ [e]) = results log := by
  rw [results_snoc, h.result]
  exact append_nil _

end Quiet

theorem Running.quiet {log : List Event} {e : Event} (h : Running setup log) (hq : Quiet e)
    (hgo : ¬ e.Stopping setup.deadline) : Running setup (log ++ [e]) where
  unstopped := forall_mem_append.mpr ⟨h.unstopped, forall_mem_singleton.mpr hgo⟩
  results := hq.results.trans h.results

theorem Live.quiet {e : Event} (h : Live setup world run) (hq : Quiet e)
    (hgo : ¬ e.Stopping setup.deadline) (ha : Allowed setup world run.log e) :
    Live setup world (run.note e) := { h with
  running := h.running.quiet hq hgo
  allowed := always_snoc.mpr ⟨h.allowed, ha⟩
  fits := by
    rw [Run.note, hq.received]
    exact h.fits }

theorem Waiting.quiet {e : Event} (h : Waiting setup world run) (hq : Quiet e)
    (hgo : ¬ e.Stopping setup.deadline) (ha : Allowed setup world run.log e) :
    Waiting setup world (run.note e) := { h with
  toLive := h.toLive.quiet hq hgo ha
  undecided := hq.decisions.trans h.undecided
  unwritten := hq.written.trans h.unwritten
  open' := by
    rw [Run.note, hq.received]
    exact h.open'
  accepted := by
    rw [Run.note, hq.received, hq.owners]
    exact h.accepted
  nobody := by
    rw [Run.note, hq.received]
    exact h.nobody
  idle := by
    rw [Run.note, hq.received]
    exact h.idle
  owned := by
    rw [Run.note, hq.received, hq.owners]
    exact h.owned }

theorem Replying.quiet {e : Event} (h : Replying setup world run) (hq : Quiet e)
    (hgo : ¬ e.Stopping setup.deadline) (ha : Allowed setup world run.log e) :
    Replying setup world (run.note e) where
  toLive := h.toLive.quiet hq hgo ha
  idle := h.idle
  reply := by
    rw [Run.note, hq.received, hq.owners, hq.written, hq.decisions]
    exact h.reply

/-! ## Ending a flow -/

theorem outcome_finish {result : CallbackResult} (hre : results run.log = [])
    (ha : Always (Allowed setup world) run.log) (hex : Exposes setup run.log result)
    (hse : Settled setup run.log result) : Outcome setup world (run.finish result) :=
  ⟨⟨rfl, rfl, rfl, rfl, rfl⟩, hre, ha, hex, hse⟩

theorem Waiting.finish (h : Waiting setup world run) (error : LoopbackError) :
    Outcome setup world (run.finish (.error error)) := by
  refine outcome_finish h.running.results h.allowed ⟨fun _ => ⟨error, rfl⟩, ?_, ?_⟩
    (.open' h.fits h.open' h.undecided)
  · intro request first hdec
    rw [h.undecided] at hdec
    cases hdec
  · intro e he hs
    exact (h.running.unstopped e he hs).elim

theorem Waiting.stop {e : Event} (h : Waiting setup world run) (hq : Quiet e)
    (ha : Allowed setup world run.log e) (reason : Stop) :
    Outcome setup world ((run.note e).stop reason) := by
  have hpr : ((run.note e).flow.accepted.bind fun accepted => accepted.reply.bind Reply.result) =
      none := by
    show (run.flow.accepted.bind _) = none
    cases hacc : run.flow.accepted with
    | none => rfl
    | some accepted =>
      rw [Option.bind_some, (h.accepted accepted hacc).1]
      rfl
  rw [Run.stop, hpr]
  have hun : decisions (run.note e).log = [] := hq.decisions.trans h.undecided
  have hre : received (run.note e).log = received run.log := hq.received
  refine outcome_finish (hq.results.trans h.running.results)
    (always_snoc.mpr ⟨h.allowed, ha⟩) ⟨fun _ => ⟨_, rfl⟩, ?_, fun _ _ _ => ⟨_, rfl, nofun⟩⟩
    (.open' (hre ▸ h.fits) (hre ▸ h.open') hun)
  intro request first hdec
  rw [hun] at hdec
  cases hdec

theorem Replying.stop {e : Event} (h : Replying setup world run) (hq : Quiet e)
    (ha : Allowed setup world run.log e) (reason : Stop) :
    Outcome setup world ((run.note e).stop reason) := by
  obtain ⟨accepted, reply, result, hacc, hrp, -, hres, -, -, -, hdcn, hby, -⟩ := h.reply
  have hpr : ((run.note e).flow.accepted.bind fun accepted => accepted.reply.bind Reply.result) =
      some result := by
    show (run.flow.accepted.bind _) = some result
    rw [hacc, Option.bind_some, hrp, Option.bind_some, hres]
  have hdec : decisions (run.note e).log = [(received run.log, result)] := hq.decisions.trans hdcn
  have hre : received (run.note e).log = received run.log := hq.received
  have he (error : LoopbackError) (hf : ∀ error', result = .error error' →
      error.failure = error'.failure) :
      Outcome setup world
        ((run.note e).finish (.error { error with deliveryStopped := some reason })) := by
    refine outcome_finish (hq.results.trans h.running.results)
      (always_snoc.mpr ⟨h.allowed, ha⟩) ⟨fun _ => ⟨_, rfl⟩, ?_, fun _ _ _ => ⟨_, rfl, nofun⟩⟩
      (.decided (hre ▸ h.fits) result (hre ▸ hdec) (hre ▸ hby))
    intro request first hf'
    rw [hdec] at hf'
    cases hf'
    exact .inr ⟨_, rfl, .inr nofun, hf⟩
  rw [Run.stop, hpr]
  cases hca : result with
  | ok authorization => exact he _ fun _ h => nomatch hca.symm.trans h
  | error error =>
    refine he error fun error' h => ?_
    rw [Except.error.inj (hca.symm.trans h)]

/-! ## Checks -/

/-- The run after the check of this moment. -/
def Run.checked (run : Run) (world : World) : Run :=
  run.note (.check (run.moment world).cancelled (run.moment world).now)

theorem Live.allowed_check (h : Live setup world run) : Allowed setup world run.log
    (.check (run.moment world).cancelled (run.moment world).now) :=
  ⟨h.running, rfl, rfl⟩

/-- Either the flow is stopped, or the check let it pass. -/
theorem unlessStopped_cases (h : Live setup world run) (rest : Run → LoopbackProgress × Run) :
    (∃ reason, run.unlessStopped world rest = (run.checked world).stop reason) ∨
    (run.unlessStopped world rest = rest (run.checked world) ∧
      ¬ (Event.check (run.moment world).cancelled (run.moment world).now).Stopping setup.deadline ∧
      Checked setup world (run.checked world).log) := by
  by_cases hca : (run.moment world).cancelled = true
  · exact .inl ⟨.cancelled, if_pos hca⟩
  by_cases hdl : run.flow.deadline ≤ (run.moment world).now
  · exact .inl ⟨.deadline, (if_neg hca).trans (if_pos hdl)⟩
  have hgo : ¬ (Event.check (run.moment world).cancelled (run.moment world).now).Stopping
      setup.deadline := by
    rw [Event.Stopping, not_or, ← h.deadline]
    exact ⟨hca, hdl⟩
  have hl : (run.moment world).cancelled = false := eq_false_of_ne_true hca
  refine .inr ⟨(if_neg hca).trans (if_neg hdl), hgo,
    h.running.quiet (quiet_check _ _) hgo, run.log, ?_, hl, ?_⟩
  · rw [Run.checked, hl]
    rfl
  · exact Nat.not_le.mp (h.deadline ▸ hdl)

variable {rest : Run → LoopbackProgress × Run} {accepted : Accepted} {chunk : List Byte}

theorem Waiting.unlessStopped (h : Waiting setup world run)
    (hr : Waiting setup world (run.checked world) → Checked setup world (run.checked world).log →
      Outcome setup world (rest (run.checked world))) :
    Outcome setup world (run.unlessStopped world rest) := by
  rcases unlessStopped_cases h.toLive rest with ⟨reason, hs⟩ | ⟨hp, hgo, hchecked⟩
  · rw [hs]
    exact h.stop (quiet_check _ _) h.allowed_check reason
  · rw [hp]
    exact hr (h.quiet (quiet_check _ _) hgo h.allowed_check) hchecked

theorem Replying.unlessStopped (h : Replying setup world run)
    (hr : Replying setup world (run.checked world) →
      Checked setup world (run.checked world).log → Outcome setup world (rest (run.checked world))) :
    Outcome setup world (run.unlessStopped world rest) := by
  rcases unlessStopped_cases h.toLive rest with ⟨reason, hs⟩ | ⟨hp, hgo, hchecked⟩
  · rw [hs]
    exact h.stop (quiet_check _ _) h.allowed_check reason
  · rw [hp]
    exact hr (h.quiet (quiet_check _ _) hgo h.allowed_check) hchecked

/-! ## Reading a peer -/

/-- Every byte so far was read from this peer, and is in its request. -/
structure Holds (accepted : Accepted) (log : List Event) : Prop where
  unreplied : accepted.reply = none
  request : accepted.request = received log
  owners : ∀ owner ∈ owners log, owner = accepted.peer

theorem readPeer_cases (world : World) (accepted : Accepted) (run : Run) :
    (∃ error, run.readPeer world accepted = (.error error, run.note (.read accepted.peer []))) ∨
    run.readPeer world accepted = (.ok none, run.note (.read accepted.peer [])) ∨
    ∃ chunk, chunk ≠ [] ∧ run.readPeer world accepted =
      (.ok (some chunk), run.note (.read accepted.peer chunk)) := by
  rw [Run.readPeer]
  cases (run.moment world).read with
  | bytes bytes =>
    by_cases he : bytes.take Run.chunkBytes = []
    · refine .inl ⟨.ofPrimitive .correlation, ?_⟩
      simp only [he, if_true]
    · exact .inr (.inr ⟨_, he, if_neg he⟩)
  | wouldBlock => exact .inr (.inl rfl)
  | failed => exact .inl ⟨.new .io, rfl⟩

section

variable (h : Waiting setup world run) (hchecked : Checked setup world run.log)
  (hholds : Holds accepted run.log)
include h hchecked hholds

theorem Waiting.allowed_read (bytes : List Byte) :
    Allowed setup world run.log (.read accepted.peer bytes) :=
  ⟨hchecked, h.undecided, hholds.owners⟩

theorem Waiting.read_nothing : Waiting setup world (run.note (.read accepted.peer [])) :=
  h.quiet (quiet_read _) id (h.allowed_read hchecked hholds [])

end

/-! ## A chunk -/

theorem owners_read {log : List Event} {peer : ℕ} (hch : chunk ≠ []) :
    owners (log ++ [.read peer chunk]) = owners log ++ [peer] := by
  rw [owners_snoc]
  cases chunk with
  | nil => exact (hch rfl).elim
  | cons b chunk => rfl

theorem page_pos (ok : Bool) : 0 < (page ok).length := by
  rw [page, length_pos_iff]
  intro he
  have hn := congrArg String.toList (utf8_eq_nil.mp he)
  rw [String.toList_append] at hn
  have hb := (append_eq_nil_iff.mp hn).2
  cases ok with
  | false | true => exact absurd hb (by decide)

/-- The request has its blank line. -/
theorem Live.decide {request : List Byte} {start finish : ℕ} (h : Live setup world run)
    (hud : decisions run.log = []) (hun : written run.log = [])
    (hreq : request = received run.log) (hpos : position request = some start)
    (hfi : finish = start) (hp : run.flow.pending = some setup.pending)
    (howns : ∀ owner ∈ owners run.log, owner = accepted.peer) :
    Replying setup world (run.decideCallback accepted request (finish + 4)).2 := by
  obtain ⟨result, hres⟩ : ∃ result, callbackResult run.flow.redirect run.flow.boundPort
    run.flow.pending request (finish + 4) = result := ⟨_, rfl⟩
  have hdec : setup.decided request = some result := by
    rw [Setup.decided, hpos, ← hres, h.redirect, h.boundPort, hp, hfi]
    rfl
  have hre : received (run.log ++ [.decide request result]) = received run.log := by
    rw [received_snoc]
    exact append_nil _
  have hde : decisions (run.log ++ [.decide request result]) = [(request, result)] := by
    rw [decisions_snoc, hud]
    rfl
  have hno : written (run.log ++ [.decide request result]) = [] := by
    rw [written_snoc, hun]
    rfl
  have hs : owners (run.log ++ [.decide request result]) = owners run.log := by
    rw [owners_snoc]
    exact append_nil _
  rw [Run.decideCallback, hres]
  refine { h with
    running := ⟨forall_mem_append.mpr ⟨h.running.unstopped, forall_mem_singleton.mpr id⟩, ?_⟩
    allowed := always_snoc.mpr ⟨h.allowed, hud, hreq, hdec⟩
    fits := hre ▸ h.fits
    idle := rfl
    reply := ⟨_, _, result, rfl, rfl, rfl, rfl, rfl, page_pos _, hno, ?_, ?_, ?_⟩ }
  · rw [Run.note, results_snoc, h.running.results]
    rfl
  · rw [Run.note, hde, hre, hreq]
  · rw [Run.note, hre, ← hreq, hdec]
  · rw [Run.note, hs]
    exact howns

/-- The chunk ends the request, or is one more part of it, or is too much. -/
theorem Waiting.commit (h : Waiting setup world run) (hchecked : Checked setup world run.log)
    (hholds : Holds accepted run.log) (hch : chunk ≠ []) :
    Outcome setup world ((run.note (.read accepted.peer chunk)).commit accepted chunk) := by
  have hre : received (run.log ++ [.read accepted.peer chunk]) = accepted.request ++ chunk :=
    (received_snoc _ _).trans (congrArg (· ++ chunk) hholds.request.symm)
  have hud : decisions (run.log ++ [.read accepted.peer chunk]) = [] := by
    rw [decisions_snoc, h.undecided]
    rfl
  have hress : results (run.log ++ [.read accepted.peer chunk]) = [] := by
    rw [results_snoc, h.running.results]
    rfl
  have hun : written (run.log ++ [.read accepted.peer chunk]) = [] := by
    rw [written_snoc, h.unwritten]
    rfl
  have howns : ∀ owner ∈ owners (run.log ++ [.read accepted.peer chunk]),
      owner = accepted.peer := by
    rw [owners_read hch]
    exact forall_mem_append.mpr ⟨hholds.owners, forall_mem_singleton.mpr rfl⟩
  have hus : ∀ e ∈ run.log ++ [.read accepted.peer chunk], ¬ e.Stopping setup.deadline :=
    forall_mem_append.mpr ⟨h.running.unstopped, forall_mem_singleton.mpr id⟩
  have ha : Always (Allowed setup world) (run.log ++ [.read accepted.peer chunk]) :=
    always_snoc.mpr ⟨h.allowed, h.allowed_read hchecked hholds chunk⟩
  have hsc : position accepted.request = none := hholds.request ▸ h.open'
  have hpos := position_resumed hsc chunk
  rw [Run.commit, Run.receiveChunk]
  dsimp only
  split_ifs with hlo
  · refine outcome_finish hress ha ⟨fun _ => ⟨_, rfl⟩, ?_, ?_⟩ (.tooLong ?_ hud rfl)
    · intro request first hdec
      rw [Run.note, hud] at hdec
      cases hdec
    · intro e he hst
      exact (hus e he hst).elim
    · rw [Run.note, hre, length_append]
      omega
  · have hf : (accepted.request ++ chunk).length ≤ maxOauthTextBytes := by
      have hb := h.fits
      rw [← hholds.request] at hb
      rw [length_append]
      omega
    have hl : Live setup world { run.note (.read accepted.peer chunk) with
        flow := { run.flow with accepted := some accepted, idle := none } } :=
      ⟨h.redirect, h.boundPort, h.deadline, h.consumed, ⟨hus, hress⟩, ha, hre ▸ hf⟩
    cases hs : position ((accepted.request ++ chunk).drop (accepted.request.length - 3)) with
    | none =>
      rw [hs] at hpos
      refine .inl { hl with
        listener := h.listener
        pending := h.pending
        undecided := hud
        unwritten := hun
        open' := hre ▸ hpos
        accepted := ?_
        nobody := nofun
        idle := nofun
        owned := ?_ }
      · rintro _ ⟨⟩
        exact ⟨hholds.unreplied, hre.symm, howns⟩
      · refine iff_of_false (fun hn => ?_) fun hn => ?_
        · rw [Run.note, hre] at hn
          exact hch (append_eq_nil_iff.mp hn).2
        · rw [Run.note, owners_read hch] at hn
          cases (append_eq_nil_iff.mp hn).2
    | some start =>
      rw [hs] at hpos
      exact .inr (hl.decide hud hun hre.symm hpos (Nat.add_comm _ _) h.pending howns)

/-! ## One poll -/

/-- A peer that nothing was read from. -/
structure Fresh (peer : Accepted) : Prop where
  unreplied : peer.reply = none
  request : peer.request = []

theorem Fresh.holds {peer : Accepted} (h : Fresh peer) (hr : Waiting setup world run)
    (hno : received run.log = []) : Holds peer run.log where
  unreplied := h.unreplied
  request := h.request.trans hno.symm
  owners := by
    rw [hr.owned.mp hno]
    exact nofun

section

variable (h : Waiting setup world run)
include h

/-- Any two fresh peers may be retained while nothing was read. -/
theorem Waiting.retain (hno : received run.log = [])
    (accepted idle : Option Accepted) (hacc : ∀ peer, accepted = some peer → Fresh peer)
    (hi : ∀ peer, idle = some peer → Fresh peer) :
    Waiting setup world { run with flow := { run.flow with accepted, idle } } := { h with
  accepted := fun peer hpe => by
    have hholds := (hacc peer hpe).holds h hno
    exact ⟨hholds.unreplied, hholds.request, hholds.owners⟩
  nobody := fun _ => hno
  idle := fun peer hpe => ⟨(hi peer hpe).request, (hi peer hpe).unreplied, hno⟩ }

theorem Waiting.fresh_accepted (hno : received run.log = []) :
    ∀ peer, run.flow.accepted = some peer → Fresh peer := fun peer hpe =>
  ⟨(h.accepted peer hpe).1, (h.accepted peer hpe).2.1.trans hno⟩

theorem Waiting.fresh_idle : ∀ peer, run.flow.idle = some peer → Fresh peer := fun peer hpe =>
  ⟨(h.idle peer hpe).2.1, (h.idle peer hpe).1⟩

theorem Waiting.recycle (hchecked : Checked setup world run.log)
    (hno : received run.log = []) {idle incoming : Accepted} (hacc : Fresh accepted)
    (hi : Fresh idle) (hin : Fresh incoming) :
    Outcome setup world (run.recycle world accepted idle incoming) := by
  have hholds := hacc.holds h hno
  have hr := h.read_nothing hchecked hholds
  rw [Run.recycle]
  rcases readPeer_cases world accepted run with ⟨error, heo⟩ | hn | ⟨chunk, hch, hs⟩
  · rw [heo]
    exact hr.finish error
  · rw [hn]
    refine .inl (hr.retain ((quiet_read _).received.trans hno) (some idle) (some incoming) ?_ ?_)
    · rintro _ ⟨⟩
      exact hi
    · rintro _ ⟨⟩
      exact hin
  · rw [hs]
    exact h.commit hchecked hholds hch

theorem Waiting.pollAccept (hchecked : Checked setup world run.log)
    (hnoth : received run.log = []) : Outcome setup world (run.pollAccept world) := by
  have hno : Waiting setup world (run.note .accept) :=
    h.quiet quiet_accept id ⟨hchecked, h.undecided, h.owned.mp hnoth⟩
  have hnoth' : received (run.note .accept).log = [] := quiet_accept.received.trans hnoth
  have hin : Fresh { peer := run.log.length, request := [], reply := none } := ⟨rfl, rfl⟩
  rw [Run.pollAccept, h.listener, if_neg (by decide)]
  cases (run.moment world).accept with
  | wouldBlock => exact .inl hno
  | failed => exact hno.finish _
  | peer loopback nonblocking =>
    dsimp only
    split_ifs
    · exact hno.finish _
    · exact hno.finish _
    · cases hacc : (run.note .accept).flow.accepted with
      | none =>
        refine .inl (hno.retain hnoth' _ _ ?_ hno.fresh_idle)
        rintro _ ⟨⟩
        exact hin
      | some accepted =>
        have hf := hno.fresh_accepted hnoth' accepted hacc
        cases hi : (run.note .accept).flow.idle with
        | none =>
          refine .inl (hno.retain hnoth' _ _ ?_ ?_)
          · rintro _ ⟨⟩
            exact hf
          · rintro _ ⟨⟩
            exact hin
        | some idle =>
          refine hno.unlessStopped fun hp hchecked' => ?_
          exact hp.recycle hchecked' ((quiet_check _ _).received.trans hnoth')
            hf (hno.fresh_idle idle hi) hin

theorem Waiting.pollIdle (hno : received run.log = []) :
    Outcome setup world (run.pollIdle world) := by
  rw [Run.pollIdle]
  cases hi : run.flow.idle with
  | none =>
    refine h.unlessStopped fun hp hchecked => ?_
    exact hp.pollAccept hchecked ((quiet_check _ _).received.trans hno)
  | some idle =>
    refine h.unlessStopped fun hp hchecked => ?_
    have hno' : received (run.checked world).log = [] := (quiet_check _ _).received.trans hno
    have hholds := (h.fresh_idle idle hi).holds hp hno'
    have hr := hp.read_nothing hchecked hholds
    rcases readPeer_cases world idle (run.checked world) with
      ⟨error, heo⟩ | hn | ⟨chunk, hch, hs⟩
    · rw [heo]
      exact hr.finish error
    · rw [hn]
      refine hr.unlessStopped fun hp' hchecked' => ?_
      exact hp'.pollAccept hchecked'
        ((quiet_check _ _).received.trans ((quiet_read _).received.trans hno'))
    · rw [hs]
      exact hp.commit hchecked hholds hch

theorem Waiting.pollAccepted (hchecked : Checked setup world run.log)
    (hacc : run.flow.accepted = some accepted) :
    Outcome setup world (run.pollAccepted world accepted) := by
  obtain ⟨hun, hreq, howns⟩ := h.accepted accepted hacc
  have hholds : Holds accepted run.log := ⟨hun, hreq, howns⟩
  have hr := h.read_nothing hchecked hholds
  rw [Run.pollAccepted]
  rcases readPeer_cases world accepted run with ⟨error, heo⟩ | hn | ⟨chunk, hch, hs⟩
  · rw [heo]
    exact hr.finish error
  · rw [hn]
    split_ifs with he
    · exact .inl hr
    · refine hr.pollIdle ((quiet_read _).received.trans ?_)
      rw [← hreq, not_not.mp he]
  · rw [hs]
    exact h.commit hchecked hholds hch

end

/-- A page that could not be written: what was decided is an error, or becomes one. -/
theorem Live.finish (h : Live setup world run) {result final : CallbackResult}
    (hdcn : decisions run.log = [(received run.log, result)])
    (hex : (written run.log = page result.isOk ∧ final = result) ∨
      ∃ error, final = .error error ∧ error.replyFailed = true ∧
        ∀ error', result = .error error' → error.failure = error'.failure)
    (hdec : setup.decided (received run.log) = some result) :
    Outcome setup world (run.finish final) := by
  refine outcome_finish h.running.results h.allowed ⟨fun hn => ?_, ?_, ?_⟩
    (.decided h.fits result hdcn hdec)
  · rw [hdcn] at hn
    cases hn
  · intro request first hf
    rw [hdcn] at hf
    cases hf
    rcases hex with hfu | ⟨error, hfi, hfa, hflr⟩
    · exact .inl hfu
    · exact .inr ⟨error, hfi, .inl hfa, hflr⟩
  · intro e he hs
    exact (h.running.unstopped e he hs).elim

theorem pageFailure_error (result : CallbackResult) :
    ∃ error, Run.pageFailure (some result) = .error error ∧ error.replyFailed = true ∧
      ∀ error', result = .error error' → error.failure = error'.failure := by
  cases result with
  | ok authorization => exact ⟨_, rfl, rfl, nofun⟩
  | error error =>
    refine ⟨_, rfl, rfl, fun error' h => ?_⟩
    cases h
    rfl

theorem Replying.pollReply (h : Replying setup world run) (hchecked : Checked setup world run.log)
    {reply : Reply} (hacc : run.flow.accepted = some accepted)
    (hre : accepted.reply = some reply) :
    Outcome setup world (run.pollReply world accepted reply) := by
  obtain ⟨_, _, result, hacc', hre', he, hres, hpa, hlt, hw, hdcn, hdec, howns⟩ := h.reply
  cases hacc.symm.trans hacc'
  cases hre.symm.trans hre'
  have ha (bytes : List Byte) (hby : written run.log ++ bytes <+: page result.isOk) :
      Allowed setup world run.log (.write accepted.peer bytes) :=
    ⟨hchecked, ⟨_, result, hdcn, hby⟩, howns⟩
  have hpr : written run.log ++ [] <+: page result.isOk := by
    rw [append_nil, hw, hpa]
    exact take_prefix _ _
  have hq := h.quiet (quiet_write accepted.peer) id (ha [] hpr)
  have hgi : Outcome setup world
      ((run.note (.write accepted.peer [])).finish (Run.pageFailure reply.result)) := by
    rw [hres]
    refine hq.toLive.finish ?_ (.inr (pageFailure_error result)) ?_
    · exact (quiet_write _).decisions.trans ((quiet_write _).received.symm ▸ hdcn)
    · exact (quiet_write _).received.symm ▸ hdec
  rw [Run.pollReply]
  cases (run.moment world).write with
  | wouldBlock => exact .inr hq
  | failed => exact hgi
  | room count =>
    obtain ⟨bytes, hby⟩ : ∃ bytes, (reply.bytes.drop reply.written).take count = bytes := ⟨_, rfl⟩
    dsimp only
    rw [hby]
    by_cases hn : bytes = []
    · rw [if_pos hn, hn]
      exact hgi
    have hp : bytes = (reply.bytes.drop reply.written).take bytes.length :=
      prefix_iff_eq_take.mp (hby ▸ take_prefix _ _)
    have hw' : written (run.log ++ [.write accepted.peer bytes]) =
        reply.bytes.take (reply.written + bytes.length) := by
      rw [written_snoc, hw, take_add, ← hp]
      rfl
    have hrecv : received (run.log ++ [.write accepted.peer bytes]) = received run.log := by
      rw [received_snoc]
      exact append_nil _
    have hdcn' : decisions (run.log ++ [.write accepted.peer bytes]) =
        [(received run.log, result)] := by
      rw [decisions_snoc, hdcn]
      rfl
    have hs : owners (run.log ++ [.write accepted.peer bytes]) = owners run.log := by
      rw [owners_snoc]
      exact append_nil _
    have hf : written run.log ++ bytes <+: page result.isOk := by
      rw [← hpa, show written run.log ++ bytes = _ from (written_snoc _ _).symm.trans hw']
      exact take_prefix _ _
    have hl : Live setup world (run.note (.write accepted.peer bytes)) := { h with
      running := ⟨forall_mem_append.mpr
        ⟨h.running.unstopped, forall_mem_singleton.mpr id⟩, by
          rw [Run.note, results_snoc, h.running.results]
          rfl⟩
      allowed := always_snoc.mpr ⟨h.allowed, ha bytes hf⟩
      fits := hrecv ▸ h.fits }
    rw [if_neg hn]
    split_ifs with hal
    · rw [hres]
      refine hl.finish (hrecv.symm ▸ hdcn') (.inl ⟨?_, rfl⟩) (hrecv.symm ▸ hdec)
      rw [Run.note, hw', hal, take_length, hpa]
      rfl
    · have hle : reply.written + bytes.length ≤ reply.bytes.length := by
        have hlen := congrArg List.length hp
        rw [length_take, length_drop] at hlen
        omega
      refine .inr { hl with
        idle := h.idle
        reply := ⟨_, _, result, rfl, rfl, he, hres, hpa,
          Nat.lt_of_le_of_ne hle hal, hw', hrecv.symm ▸ hdcn',
          hrecv.symm ▸ hdec, ?_⟩ }
      rw [Run.note, hs]
      exact howns

/-! ## Every poll -/

theorem Waiting.poll (h : Waiting setup world run) : Outcome setup world (run.poll world) := by
  rw [Run.poll, h.consumed, if_neg Bool.false_ne_true]
  refine h.unlessStopped fun hp hchecked => ?_
  cases hacc : (run.checked world).flow.accepted with
  | none => exact hp.pollAccept hchecked (hp.nobody hacc)
  | some accepted =>
    dsimp only
    rw [(hp.accepted accepted hacc).1]
    exact hp.pollAccepted hchecked hacc

theorem Replying.poll (h : Replying setup world run) : Outcome setup world (run.poll world) := by
  rw [Run.poll, h.consumed, if_neg Bool.false_ne_true]
  refine h.unlessStopped fun hp hchecked => ?_
  obtain ⟨accepted, reply, -, hacc, hre, -⟩ := hp.reply
  rw [hacc]
  dsimp only
  rw [hre]
  exact hp.pollReply hchecked hacc hre

/-- The flow has completed; its result was the first, and all others are refusals. -/
structure Over (setup : Setup) (world : World) (run : Run) : Prop where
  released : Released run.flow
  allowed : Always (Allowed setup world) run.log
  results : ∃ result rest, results run.log = result :: rest ∧
    (∀ other ∈ rest, other = .error (.new .consumed)) ∧ Settled setup run.log result

/-- What holds between any two polls. -/
def Sound (setup : Setup) (world : World) (run : Run) : Prop :=
  Waiting setup world run ∨ Replying setup world run ∨ Over setup world run

theorem quiet_pending : Quiet (.polled .pending) := ⟨rfl, rfl, rfl, rfl, rfl⟩

/-- What was settled stays so: a completed poll reads, writes and decides nothing. -/
theorem Settled.polled {log : List Event} {result other : CallbackResult}
    (h : Settled setup log result) :
    Settled setup (log ++ [.polled (.complete other)]) result := by
  have hre : received (log ++ [.polled (.complete other)]) = received log := by
    rw [received_snoc]
    exact append_nil _
  have hde : decisions (log ++ [.polled (.complete other)]) = decisions log := by
    rw [decisions_snoc]
    exact append_nil _
  cases h with
  | open' fits noEnd undecided =>
    exact .open' (hre ▸ fits) (hre ▸ noEnd) (hde.trans undecided)
  | decided fits first decision byBytes =>
    exact .decided (hre ▸ fits) first (by rw [hde, hre, decision]) (hre ▸ byBytes)
  | tooLong long undecided limit =>
    exact .tooLong (hre ▸ long) (hde.trans undecided) limit

/-- The outcome of a poll, with the poll noted. -/
theorem Outcome.sound {polled : LoopbackProgress × Run} (h : Outcome setup world polled) :
    Sound setup world (polled.2.note (.polled polled.1)) := by
  obtain ⟨progress, run⟩ := polled
  cases progress with
  | pending =>
    rcases h with hwa | hre
    · exact .inl (hwa.quiet quiet_pending id hwa.running.results)
    · exact .inr (.inl (hre.quiet quiet_pending id hre.running.results))
  | complete result =>
    refine .inr (.inr ⟨h.released, always_snoc.mpr ⟨h.allowed, .inl ⟨h.results, h.exposes⟩⟩,
      result, [], ?_, nofun, h.settled.polled⟩)
    rw [Run.note, results_snoc, h.results]
    rfl

theorem Over.turn (h : Over setup world run) : Over setup world (run.turn world) := by
  obtain ⟨result, rest, hre, hr, hse⟩ := h.results
  have hpo : run.poll world = (.complete (.error (.new .consumed)), run) :=
    if_pos h.released.consumed
  rw [Run.turn, hpo]
  refine ⟨h.released, always_snoc.mpr ⟨h.allowed, .inr ⟨?_, rfl⟩⟩, result,
    rest ++ [.error (.new .consumed)], ?_, ?_, hse.polled⟩
  · rw [hre]
    exact nofun
  · rw [Run.note, results_snoc, hre]
    rfl
  · exact forall_mem_append.mpr ⟨hr, forall_mem_singleton.mpr rfl⟩

theorem Sound.turn (h : Sound setup world run) : Sound setup world (run.turn world) := by
  rcases h with hwa | hre | hov
  · exact hwa.poll.sound
  · exact hre.poll.sound
  · exact .inr (.inr hov.turn)

/-- A worker with a flow that was just bound. -/
def Setup.bind (setup : Setup) : Run := { flow := setup.flow, log := [] }

theorem sound_bind (setup : Setup) (world : World) : Sound setup world setup.bind := by
  exact .inl {
    redirect := rfl
    boundPort := rfl
    deadline := rfl
    consumed := rfl
    running := ⟨nofun, rfl⟩
    allowed := always_nil _
    fits := Nat.zero_le _
    listener := rfl
    pending := rfl
    undecided := rfl
    unwritten := rfl
    open' := rfl
    accepted := nofun
    nobody := fun _ => rfl
    idle := nofun
    owned := iff_of_true rfl rfl }

theorem sound_turns (setup : Setup) (world : World) (n : ℕ) :
    Sound setup world (setup.bind.turns world n) := by
  induction n with
  | zero => exact sound_bind setup world
  | succ n ih => exact ih.turn

end Law

/-! ## The callback is used once -/

/-- The first blank line is the end. -/
def EndsAtBlankLine (request : List Byte) : Prop :=
  ∃ start, position request = some start ∧ start + blankLine.length = request.length

def Event.IsIo : Event → Prop
  | .accept | .read .. | .write .. => True
  | _ => False

def LoopbackFlow.retained (flow : LoopbackFlow) : List Accepted :=
  flow.accepted.toList ++ flow.idle.toList

/-- The event is no accept, and what it reads or writes is this peer's. -/
def Event.OnlyOf (owner : ℕ) : Event → Prop
  | .accept => False
  | .read peer _ | .write peer _ => peer = owner
  | _ => True

structure SingleUse (setup : Setup) (world : World) (run : Run) : Prop where
  oneDecision : (decisions run.log).length ≤ 1
  oneOk : ((results run.log).filter Except.isOk).length ≤ 1
  twoPeers : run.flow.retained.length ≤ 2
  idleEmpty : ∀ idle, run.flow.idle = some idle → idle.request = []
  oneOwner : ∀ owner ∈ owners run.log, ∀ other ∈ owners run.log, other = owner
  /-- Who sent a byte stays, and stands alone, until the flow is over. -/
  kept : ∀ owner ∈ owners run.log, run.flow.consumed = true ∨
    ∃ accepted, run.flow.accepted = some accepted ∧ accepted.peer = owner ∧ run.flow.idle = none
  notBypassed : Always (fun before e => ∀ owner ∈ owners before, e.OnlyOf owner) run.log
  /-- A result is the first one, rightly exposed, or the refusal of a consumed flow. -/
  exposed : Always (fun before e => ∀ result, e.result = some result →
    Exposes setup before result ∨ (results before ≠ [] ∧ result = .error (.new .consumed))) run.log
  /-- The event before an accept, a read or a write is the check that let it pass. -/
  checked : Always (fun before e => e.IsIo → ∃ front,
    before = front ++ [.check false (world front.length).now] ∧
      (world front.length).cancelled = false ∧ (world front.length).now < setup.deadline) run.log
  stopped : Always (fun before e => e.IsIo → ∀ e' ∈ before, ¬ e'.Stopping setup.deadline) run.log
  byBytes : EndsAtBlankLine (received run.log) →
    if (received run.log).length ≤ maxOauthTextBytes then
      ∃ result, setup.decided (received run.log) = some result ∧
        decisions run.log = [(received run.log, result)]
    else decisions run.log = [] ∧
      (results run.log).head? = some (.error (.ofPrimitive .inputLimit))

section SingleUse

variable {setup : Setup} {world : World} {run : Run}

variable {before : List Event}

section

variable {e : Event} (h : Allowed setup world before e)
include h

theorem Allowed.checked (hio : e.IsIo) : Checked setup world before := by
  cases e with
  | accept | read | write => exact h.1
  | check | decide | polled => exact hio.elim

theorem Allowed.onlyOf {owner : ℕ} (ho : owner ∈ owners before) : e.OnlyOf owner := by
  cases e with
  | accept =>
    obtain ⟨-, -, hno⟩ := h
    rw [hno] at ho
    cases ho
  | read | write => exact (h.2.2 owner ho).symm
  | check | decide | polled => exact trivial

theorem Allowed.exposed {result : CallbackResult} (hres : e.result = some result) :
    Exposes setup before result ∨ (results before ≠ [] ∧ result = .error (.new .consumed)) := by
  cases e with
  | polled progress =>
    cases progress with
    | pending => cases hres
    | complete result' =>
      cases hres
      exact h.imp And.right id
  | _ => cases hres

end

theorem Sound.allowed (h : Sound setup world run) : Always (Allowed setup world) run.log := by
  rcases h with hwa | hre | hov
  · exact hwa.allowed
  · exact hre.allowed
  · exact hov.allowed

/-- Each phase says by which bytes it is in, once the request ends. -/
theorem Sound.byBytes (h : Sound setup world run) (he : EndsAtBlankLine (received run.log)) :
    if (received run.log).length ≤ maxOauthTextBytes then
      ∃ result, setup.decided (received run.log) = some result ∧
        decisions run.log = [(received run.log, result)]
    else decisions run.log = [] ∧
      (results run.log).head? = some (.error (.ofPrimitive .inputLimit)) := by
  obtain ⟨start, hs, -⟩ := he
  rcases h with hwa | hre | hov
  · cases hs.symm.trans hwa.open'
  · obtain ⟨_, _, result, -, -, -, -, -, -, -, hdcn, hdec, -⟩ := hre.reply
    rw [if_pos hre.fits]
    exact ⟨result, hdec, hdcn⟩
  · obtain ⟨result, rest, hress, -, hse⟩ := hov.results
    cases hse with
    | open' fits noEnd undecided => cases hs.symm.trans noEnd
    | decided fits first decision byBytes =>
      rw [if_pos fits]
      exact ⟨first, byBytes, decision⟩
    | tooLong long undecided limit =>
      rw [if_neg (Nat.not_le.mpr long), hress, limit]
      exact ⟨undecided, rfl⟩

theorem Waiting.kept (h : Waiting setup world run) {owner : ℕ} (ho : owner ∈ owners run.log) :
    ∃ accepted, run.flow.accepted = some accepted ∧ accepted.peer = owner ∧
      run.flow.idle = none := by
  have hs : received run.log ≠ [] := fun hn => by
    rw [h.owned.mp hn] at ho
    cases ho
  cases hacc : run.flow.accepted with
  | none => exact (hs (h.nobody hacc)).elim
  | some accepted =>
    cases hi : run.flow.idle with
    | none => exact ⟨accepted, rfl, ((h.accepted accepted hacc).2.2 owner ho).symm, rfl⟩
    | some idle => exact (hs (h.idle idle hi).2.2).elim

theorem Replying.kept (h : Replying setup world run) {owner : ℕ} (ho : owner ∈ owners run.log) :
    ∃ accepted, run.flow.accepted = some accepted ∧ accepted.peer = owner ∧
      run.flow.idle = none := by
  obtain ⟨accepted, _, _, hacc, -, -, -, -, -, -, -, -, howns⟩ := h.reply
  exact ⟨accepted, hacc, (howns owner ho).symm, h.idle⟩

theorem Sound.kept (h : Sound setup world run) {owner : ℕ} (ho : owner ∈ owners run.log) :
    run.flow.consumed = true ∨ ∃ accepted, run.flow.accepted = some accepted ∧
      accepted.peer = owner ∧ run.flow.idle = none := by
  rcases h with hwa | hre | hov
  · exact .inr (hwa.kept ho)
  · exact .inr (hre.kept ho)
  · exact .inl hov.released.consumed

/-- All bytes are of one peer: a read is of the owner there was. -/
theorem owners_eq {log : List Event} (h : Always (Allowed setup world) log) :
    ∀ owner ∈ owners log, ∀ other ∈ owners log, other = owner := by
  induction log using reverseRecOn with
  | nil => exact nofun
  | append_singleton log e ih =>
    obtain ⟨hl, he⟩ := always_snoc.mp h
    have hs := ih hl
    have hn : ∀ new ∈ e.owner.toList, ∀ owner ∈ owners log, owner = new := by
      intro new hn owner ho
      have honly := he.onlyOf ho
      cases e with
      | read peer bytes =>
        cases bytes with
        | nil => cases hn
        | cons b bytes =>
          cases mem_singleton.mp hn
          exact honly.symm
      | _ => cases hn
    have hon : ∀ new ∈ e.owner.toList, ∀ new' ∈ e.owner.toList, new' = new := by
      intro new hn new' hn'
      exact Option.some.inj ((Option.mem_toList.mp hn').symm.trans (Option.mem_toList.mp hn))
    rw [owners_snoc]
    intro owner ho other hot
    rcases mem_append.mp ho with ho | ho <;>
      rcases mem_append.mp hot with hot | hot
    · exact hs owner ho other hot
    · exact (hn other hot owner ho).symm
    · exact hn owner ho other hot
    · exact hon owner ho other hot

theorem Sound.oneDecision (h : Sound setup world run) : (decisions run.log).length ≤ 1 := by
  rcases h with hwa | hre | hov
  · rw [hwa.undecided]
    exact Nat.zero_le 1
  · obtain ⟨_, _, _, -, -, -, -, -, -, -, hdcn, -, -⟩ := hre.reply
    rw [hdcn]
    exact Nat.le_refl 1
  · obtain ⟨_, _, -, -, hse⟩ := hov.results
    cases hse with
    | open' fits noEnd undecided | tooLong long undecided limit =>
      rw [undecided]
      exact Nat.zero_le 1
    | decided fits first decision byBytes =>
      rw [decision]
      exact Nat.le_refl 1

theorem Sound.oneOk (h : Sound setup world run) :
    ((results run.log).filter Except.isOk).length ≤ 1 := by
  rcases h with hwa | hre | hov
  · rw [hwa.running.results]
    exact Nat.zero_le 1
  · rw [hre.running.results]
    exact Nat.zero_le 1
  · obtain ⟨result, rest, hress, hr, -⟩ := hov.results
    have hn : rest.filter Except.isOk = [] := by
      rw [filter_eq_nil_iff]
      intro other ho
      rw [hr other ho]
      exact Bool.false_ne_true
    rw [hress, filter_cons, hn]
    split_ifs
    · exact Nat.le_refl 1
    · exact Nat.zero_le 1

theorem Sound.idleEmpty (h : Sound setup world run) {idle : Accepted}
    (hi : run.flow.idle = some idle) : idle.request = [] := by
  rcases h with hwa | hre | hov
  · exact (hwa.idle idle hi).1
  · cases hre.idle.symm.trans hi
  · cases hov.released.idle.symm.trans hi

theorem retained_le (flow : LoopbackFlow) : flow.retained.length ≤ 2 := by
  have ho (peer : Option Accepted) : peer.toList.length ≤ 1 := by
    cases peer with
    | none => exact Nat.zero_le 1
    | some peer => exact Nat.le_refl 1
  rw [LoopbackFlow.retained, length_append]
  exact Nat.add_le_add (ho flow.accepted) (ho flow.idle)

end SingleUse

/-- For every world and after every number of polls one callback at most is decided and accepted,
by the bytes of the one peer that sent any, and the bytes alone say how. -/
theorem callback_single_use (setup : Setup) (world : World) (n : ℕ) :
    SingleUse setup world (setup.bind.turns world n) ∧
    ∀ world' n', EndsAtBlankLine (received (setup.bind.turns world n).log) →
      received (setup.bind.turns world' n').log = received (setup.bind.turns world n).log →
      decisions (setup.bind.turns world' n').log = decisions (setup.bind.turns world n).log := by
  have hs := sound_turns setup world n
  refine ⟨?_, fun world' n' he hsa => ?_⟩
  · exact {
      oneDecision := hs.oneDecision
      oneOk := hs.oneOk
      twoPeers := retained_le _
      idleEmpty := fun _ => hs.idleEmpty
      oneOwner := owners_eq hs.allowed
      kept := fun _ => hs.kept
      notBypassed := hs.allowed.mono fun _ _ h _ => h.onlyOf
      exposed := hs.allowed.mono fun _ _ h _ => h.exposed
      checked := hs.allowed.mono fun _ _ h hio => (h.checked hio).last
      stopped := hs.allowed.mono fun _ _ h hio => (h.checked hio).running.unstopped
      byBytes := hs.byBytes }
  · have hhe := hs.byBytes he
    have ht := (sound_turns setup world' n').byBytes (hsa ▸ he)
    rw [hsa] at ht
    split_ifs at hhe ht
    · obtain ⟨result, hdec, hdcn⟩ := hhe
      obtain ⟨result', hdec', hdcn'⟩ := ht
      cases hdec.symm.trans hdec'
      rw [hdcn, hdcn']
    · rw [hhe.1, ht.1]

end Keld.Auth.Loopback
