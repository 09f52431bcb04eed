/-
# `Keld.Ipc.BootstrapFacts` — what a handshake and a log of admissions say

A handshake that was completed read the listener's `HELLO` and wrote it back
(`handshake_completed`); one that was given up saw a stop (`handshake_stopped`).
A log is read by the connection in hand (`current`), the deadline of the call
under way (`callDeadline`) and what was noted since it began (`sinceCall`).
-/
import Keld.Ipc.Agreement
import Keld.Ipc.Bootstrap

namespace Keld.Ipc

open Proc

/-! ## The handshake -/

section Handshake

variable {env : Env} {deadline : Instant} {token : SessionToken} {link link' : Link}

variable {hard : Option Instant} {limit : Duration}

/-- A read without an idle deadline returns nothing only when it was stopped. -/
theorem readExactInterruptibleLoop_none (script : List Delivery) :
    ∀ {link link' : Link} {stall : Option Instant} {filled : List Byte} {need : Nat},
      readExactInterruptibleLoop env ⟨hard, none⟩ limit link stall filled need script =
        (.ok none, link') → env.Stops := by
  induction script with
  | nil =>
    intro link link' stall filled need h
    unfold readExactInterruptibleLoop at h
    dsimp only at h
    split_ifs at h with hs
    · exact ⟨_, hs⟩
    · cases h
    · cases h
    · cases h
  | cons delivery rest ih =>
    intro link link' stall filled need h
    unfold readExactInterruptibleLoop at h
    dsimp only at h
    by_cases hs : env.stop link.loads = true
    · exact ⟨_, hs⟩
    rw [if_neg hs] at h
    split at h
    · cases h
    split at h
    · cases h
    cases delivery with
    | eof => cases h
    | bytes first more =>
      dsimp only at h
      split at h
      · cases h
      · split at h
        · cases h
        · exact ih h
    | failed kind =>
      dsimp only at h
      by_cases hin : kind = .interrupted
      · rw [if_pos hin] at h
        exact ih h
      rw [if_neg hin] at h
      split at h
      · rw [ite_self] at h
        split at h
        · cases h
        · split at h
          · rename_i hi
            cases hi
          · exact ih h
      · cases h

theorem readExactInterruptible_none {len : Nat} {stall : Option Instant}
    (h : readExactInterruptible env ⟨hard, none⟩ limit len stall link = (.ok none, link')) :
    env.Stops := by
  unfold readExactInterruptible at h
  split_ifs at h with hl
  · cases h
  · exact readExactInterruptibleLoop_none link.script h

theorem readValidatedFrameInterruptible_none {policy : ReceivePolicy}
    (h : readValidatedFrameInterruptible env hard policy link = (.ok none, link')) :
    env.Stops := by
  obtain ⟨frame, link₁, hf, hmint⟩ := bind_ok_iff.mp h
  obtain ⟨header, link₂, hh, hf⟩ := bind_ok_iff.mp hf
  cases header with
  | none => exact readExactInterruptible_none hh
  | some r =>
    obtain ⟨found, link₃, hde, hf⟩ := bind_ok_iff.mp hf
    obtain ⟨kept, link₄, hva, hf⟩ := bind_ok_iff.mp hf
    obtain ⟨body, link₅, hb, hf⟩ := bind_ok_iff.mp hf
    cases body with
    | none => exact readExactInterruptible_none hb
    | some body =>
      -- A frame that was read whole is minted, or refused.
      cases hf
      obtain ⟨hmi, -⟩ := orFail_ok hmint
      obtain ⟨second, -, hpa⟩ := bind_ok.mp hmi
      cases hpa

/-- A handshake that is given up saw the stop flag set. -/
theorem handshake_stopped
    (h : handshakeServerInterruptibleUntil env token deadline link = (.ok false, link')) :
    env.Stops := by
  obtain ⟨frame, link₁, hf, h⟩ := bind_ok_iff.mp h
  cases frame with
  | none => exact readValidatedFrameInterruptible_none hf
  | some p =>
    obtain ⟨wanted, link₂, hwa, h⟩ := bind_ok_iff.mp h
    cases wanted with
    | true =>
      obtain ⟨_, _, -, h⟩ := bind_ok_iff.mp h
      obtain ⟨_, _, -, h⟩ := bind_ok_iff.mp h
      cases h
    | false =>
      unfold stillWanted at hwa
      dsimp only at hwa
      split_ifs at hwa with hs hp
      · exact ⟨_, hs⟩
      · cases hwa
      · cases hwa

/-- A handshake that is completed read the `HELLO` of its token and wrote it back. -/
theorem handshake_completed
    (h : handshakeServerInterruptibleUntil env token deadline link = (.ok true, link')) :
    BeginsWith (hello token) link ∧ link'.written = link.written ++ (hello token).bytes := by
  have hbeg : BeginsWith (hello token) link :=
    (handshake_keeps_token env link).interruptible token deadline (.inl (by rw [h]))
  refine ⟨hbeg, ?_⟩
  obtain ⟨frame, link₁, hf, h⟩ := bind_ok_iff.mp h
  have hr := readValidatedFrameInterruptible_readsOnly env (some deadline) .serverPreAuthHello link
  rw [hf] at hr
  cases frame with
  | none => cases h
  | some p =>
    obtain ⟨wanted, link₂, hwa, h⟩ := bind_ok_iff.mp h
    have hst := stillWanted_readsOnly env deadline link₁
    rw [hwa] at hst
    cases wanted with
    | false => cases h
    | true =>
      obtain ⟨_, link₃, hve, h⟩ := bind_ok_iff.mp h
      obtain ⟨_, link₄, hw, h⟩ := bind_ok_iff.mp h
      cases h
      obtain ⟨-, rfl⟩ := orFail_ok hve
      rw [(writeFrame_ok hw).2, hst.written, hr.written]

end Handshake

/-! ## Logs -/

/-- The connection in hand, after one fact more. -/
def AdmitFact.takes (hand : Option ℕ) : AdmitFact → Option ℕ
  | .accepted conn => some conn
  | .rejected _ _ => none
  | .called _ => none
  | .returned _ _ => none
  | _ => hand

def current (log : List AdmitFact) : Option ℕ := log.foldl AdmitFact.takes none

def AdmitFact.bounds (deadline : Option Instant) : AdmitFact → Option Instant
  | .called deadline => deadline
  | _ => deadline

/-- The deadline of the last call. -/
def callDeadline (log : List AdmitFact) : Option Instant := log.foldl AdmitFact.bounds none

def AdmitFact.since (facts : List AdmitFact) : AdmitFact → List AdmitFact
  | .called _ => []
  | fact => facts ++ [fact]

/-- What was noted since the last call. -/
def sinceCall (log : List AdmitFact) : List AdmitFact := log.foldl AdmitFact.since []

section Log

variable (log : List AdmitFact) (fact : AdmitFact)

@[simp] theorem current_snoc : current (log ++ [fact]) = fact.takes (current log) :=
  List.foldl_append ..

@[simp] theorem callDeadline_snoc :
    callDeadline (log ++ [fact]) = fact.bounds (callDeadline log) := List.foldl_append ..

@[simp] theorem sinceCall_snoc : sinceCall (log ++ [fact]) = fact.since (sinceCall log) :=
  List.foldl_append ..

end Log

/-- The deadline has come, or the clock cannot represent the time a peer would be given. -/
def Elapsed (config : AdmitConfig) (deadline : Option Instant) (now : Instant) : Prop :=
  (∃ instant, deadline = some instant ∧ instant ≤ now) ∨ config.horizon < now + config.limit

/-- The handshake of a connection was completed before the deadline. -/
def AnsweredBefore (log : List AdmitFact) (deadline : Option Instant) (conn : ℕ) : Prop :=
  ∃ before after time, .answered conn before after time ∈ log ∧
    ∀ instant, deadline = some instant → time < instant

/-- What each fact says of those before it. -/
def AdmitPermitted (config : AdmitConfig) (before : List AdmitFact) : AdmitFact → Prop
  | .called _ => current before = none
  | .accepted conn => current before = none ∧ .accepted conn ∉ before
  | .windowed conn started until_ =>
    current before = some conn ∧ started < until_ ∧ until_ ≤ started + config.limit ∧
      ∀ instant, callDeadline before = some instant → until_ ≤ instant
  | .answered conn link link' _ =>
    current before = some conn ∧ (∃ started until_, .windowed conn started until_ ∈ before) ∧
      BeginsWith (hello config.token) link ∧
      link'.written = link.written ++ (hello config.token).bytes
  | .passed conn => current before = some conn ∧ .cancelled ∉ before ∧ .shut conn ∉ before
  | .rejected conn _ => current before = some conn
  | .closed time =>
    .stopping ∈ before ∨ Elapsed config (callDeadline before) time ∨
      ∃ conn, .passed conn ∈ before ∧ current before = some conn
  | .hostFailed => True
  | .spent => (∃ time, .closed time ∈ before) ∨ .hostFailed ∈ before
  | .returned none _ => .hostFailed ∈ sinceCall before ∨ .spent ∈ sinceCall before
  | .returned (some (.authenticated conn)) _ =>
    (∃ time, .closed time ∈ before) ∧ current before = some conn ∧ .passed conn ∈ before ∧
      AnsweredBefore before (callDeadline before) conn ∧ .shut conn ∉ before ∧
      ∀ other time, .returned (some (.authenticated other)) time ∉ before
  | .returned (some .cancelled) _ => (∃ time, .closed time ∈ before) ∧ .stopping ∈ before
  | .returned (some .deadlineElapsed) time =>
    (∃ time, .closed time ∈ before) ∧ Elapsed config (callDeadline before) time
  | .stopping => True
  | .shut conn =>
    .stopping ∈ before ∧ ∀ time, .returned (some (.authenticated conn)) time ∉ before
  | .cancelled => .stopping ∈ before

end Keld.Ipc
