/-
# `Keld.Ipc.BootstrapSafety` — where the loop is, and what it has noted

`AtLoop` says what the log holds for each place of the loop.  It stays true when
a cancel notes something (`Beside`).
-/
import Keld.Ipc.BootstrapFacts

namespace Keld.Ipc

open List

/-! ## Places -/

section Places

variable (config : AdmitConfig) (log : List AdmitFact) (now : Instant)
  (deadline : Option Instant)

def Windowed (conn : ℕ) : Prop := ∃ started until_, .windowed conn started until_ ∈ log

/-- The handshake of a connection was completed by now. -/
def Answered (conn : ℕ) : Prop :=
  ∃ before after time, .answered conn before after time ∈ log ∧ time ≤ now

/-- What a call returns with. -/
def Decided : BootstrapAdmission → Prop
  | .authenticated conn =>
    current log = some conn ∧ .passed conn ∈ log ∧ AnsweredBefore log deadline conn ∧
      .shut conn ∉ log ∧ ∀ other time, .returned (some (.authenticated other)) time ∉ log
  | .cancelled => .stopping ∈ log
  | .deadlineElapsed => Elapsed config deadline now

def AtLoop : AdmitLoop → Prop
  | .idle | .top | .clock | .accept | .retry => current log = none
  | .accepted conn | .window conn | .refused conn _ | .refusedClock conn _ =>
    current log = some conn
  | .options conn _ | .clone conn _ | .publish conn _ | .handshake conn _ =>
    current log = some conn ∧ Windowed log conn
  | .checkStop conn | .checkClock conn => current log = some conn ∧ Answered log now conn
  | .consume conn => current log = some conn ∧ AnsweredBefore log deadline conn
  | .closing admission => Decided config log now deadline admission
  | .leaving none => .hostFailed ∈ sinceCall log ∨ .spent ∈ sinceCall log
  | .leaving (some admission) =>
    (∃ time, .closed time ∈ log) ∧ Decided config log now deadline admission

end Places

/-! ## Facts of a cancel -/

/-- A fact that a cancel notes beside the loop. -/
def AdmitFact.Beside : AdmitFact → Prop
  | .stopping | .shut _ | .cancelled => True
  | _ => False

section Beside

variable {config : AdmitConfig} {log : List AdmitFact} {now : Instant} {deadline : Option Instant}
  {fact : AdmitFact}

theorem AdmitFact.Beside.takes (h : fact.Beside) (hand : Option ℕ) : fact.takes hand = hand := by
  cases fact <;> first | rfl | cases h

theorem AdmitFact.Beside.bounds (h : fact.Beside) (deadline : Option Instant) :
    fact.bounds deadline = deadline := by
  cases fact <;> first | rfl | cases h

theorem AdmitFact.Beside.since (h : fact.Beside) (facts : List AdmitFact) :
    fact.since facts = facts ++ [fact] := by
  cases fact <;> first | rfl | cases h

theorem AdmitFact.Beside.ne_returned (h : fact.Beside) {admission : Option BootstrapAdmission}
    {time : Instant} : fact ≠ .returned admission time := by
  rintro rfl
  cases h

variable {later : Instant} {admission : BootstrapAdmission} {loop : AdmitLoop}

theorem Elapsed.mono (h : Elapsed config deadline now) (hle : now ≤ later) :
    Elapsed config deadline later := by
  rcases h with ⟨instant, hdl, hrch⟩ | hhor
  · exact .inl ⟨instant, hdl, hrch.trans hle⟩
  · exact .inr (hhor.trans_le (Nat.add_le_add_right hle _))

theorem Answered.mono {conn : ℕ} (h : Answered log now conn) (hle : now ≤ later) :
    Answered log later conn := by
  obtain ⟨before, after, time, hm, hti⟩ := h
  exact ⟨before, after, time, hm, hti.trans hle⟩

theorem Answered.append {conn : ℕ} (h : Answered log now conn) (facts : List AdmitFact) :
    Answered (log ++ facts) now conn := by
  obtain ⟨before, after, time, hm, hti⟩ := h
  exact ⟨before, after, time, mem_append_left _ hm, hti⟩

theorem AnsweredBefore.append {conn : ℕ} (h : AnsweredBefore log deadline conn)
    (facts : List AdmitFact) : AnsweredBefore (log ++ facts) deadline conn := by
  obtain ⟨before, after, time, hm, hti⟩ := h
  exact ⟨before, after, time, mem_append_left _ hm, hti⟩

theorem Answered.before {conn : ℕ} (h : Answered log now conn)
    (hdl : reached deadline now = false) : AnsweredBefore log deadline conn := by
  obtain ⟨before, after, time, hm, hti⟩ := h
  refine ⟨before, after, time, hm, fun instant hin => ?_⟩
  subst hin
  have hlt : now < instant := by simpa [reached] using hdl
  exact hti.trans_lt hlt

theorem elapsed_of_reached (h : reached deadline now = true) : Elapsed config deadline now := by
  cases deadline with
  | none => cases h
  | some instant => exact .inl ⟨instant, rfl, by simpa [reached] using h⟩

theorem Decided.tick (h : Decided config log now deadline admission) (hle : now ≤ later) :
    Decided config log later deadline admission := by
  cases admission with
  | authenticated | cancelled => exact h
  | deadlineElapsed => exact Elapsed.mono h hle

theorem AtLoop.tick (h : AtLoop config log now deadline loop) (hle : now ≤ later) :
    AtLoop config log later deadline loop := by
  cases loop with
  | checkStop | checkClock => exact ⟨h.1, h.2.mono hle⟩
  | closing admission => exact Decided.tick h hle
  | leaving admission =>
    cases admission with
    | none => exact h
    | some admission => exact ⟨h.1, h.2.tick hle⟩
  | _ => exact h

/-- A connection that is being returned is not shut down. -/
def Spares (loop : AdmitLoop) (fact : AdmitFact) : Prop :=
  ∀ conn, loop = .closing (.authenticated conn) ∨ loop = .leaving (some (.authenticated conn)) →
    fact ≠ .shut conn

section

variable (h : Decided config log now deadline admission)
include h

/-- A fact that neither hands a stream over, nor shuts the one decided on, nor returns. -/
theorem Decided.snoc (hta : ∀ hand, fact.takes hand = hand)
    (hsh : ∀ conn, admission = .authenticated conn → fact ≠ .shut conn)
    (hrt : ∀ admission time, fact ≠ .returned admission time) :
    Decided config (log ++ [fact]) now deadline admission := by
  cases admission with
  | authenticated conn =>
    obtain ⟨hc, hp, hans, hshut, hre⟩ := h
    refine ⟨?_, mem_append_left _ hp, hans.append _, ?_, fun other time => ?_⟩
    · rw [current_snoc, hta]
      exact hc
    · rw [mem_snoc, not_or]
      exact ⟨hshut, (hsh conn rfl).symm⟩
    · rw [mem_snoc, not_or]
      exact ⟨hre other time, (hrt _ time).symm⟩
  | cancelled => exact mem_append_left _ h
  | deadlineElapsed => exact h

theorem Decided.beside (hbes : fact.Beside)
    (hsp : ∀ conn, admission = .authenticated conn → fact ≠ .shut conn) :
    Decided config (log ++ [fact]) now deadline admission :=
  h.snoc hbes.takes hsp fun _ _ => hbes.ne_returned

/-- The endpoint is closed before the call returns. -/
theorem Decided.closed (time : Instant) :
    Decided config (log ++ [.closed time]) now deadline admission :=
  h.snoc (fun _ => rfl) nofun nofun

theorem Decided.closes (hdl : callDeadline log = deadline) :
    AdmitPermitted config log (.closed now) := by
  cases admission with
  | authenticated conn => exact .inr (.inr ⟨conn, h.2.1, h.1⟩)
  | cancelled => exact .inl h
  | deadlineElapsed =>
    refine .inr (.inl ?_)
    rw [hdl]
    exact h

end

theorem AtLoop.returns {admission : Option BootstrapAdmission}
    (h : AtLoop config log now deadline (.leaving admission))
    (hdl : callDeadline log = deadline) :
    AdmitPermitted config log (.returned admission now) := by
  cases hdl
  cases admission with
  | none => exact h
  | some admission => cases admission <;> exact h

theorem AtLoop.beside (h : AtLoop config log now deadline loop) (hbes : fact.Beside)
    (hsp : Spares loop fact) :
    AtLoop config (log ++ [fact]) now deadline loop := by
  have hc : current (log ++ [fact]) = current log := by rw [current_snoc, hbes.takes]
  have hwi : ∀ {conn}, Windowed log conn → Windowed (log ++ [fact]) conn :=
    fun ⟨started, until_, hm⟩ => ⟨started, until_, mem_append_left _ hm⟩
  cases loop with
  | idle | top | clock | accept | retry | accepted | window | refused | refusedClock => exact hc.trans h
  | options | clone | publish | handshake => exact ⟨hc.trans h.1, hwi h.2⟩
  | checkStop | checkClock | consume => exact ⟨hc.trans h.1, h.2.append _⟩
  | closing admission => exact Decided.beside h hbes fun conn he => hsp conn (.inl (by rw [he]))
  | leaving admission =>
    cases admission with
    | none =>
      unfold AtLoop
      rw [sinceCall_snoc, hbes.since]
      exact h.imp (mem_append_left _) (mem_append_left _)
    | some admission =>
      obtain ⟨⟨time, hcl⟩, hdec⟩ := h
      exact ⟨⟨time, mem_append_left _ hcl⟩,
        hdec.beside hbes fun conn he => hsp conn (.inr (by rw [he]))⟩

end Beside

/-! ## Facts of the loop -/

/-- A fact that only the place of the loop depends on. -/
def AdmitFact.Quiet : AdmitFact → Prop
  | .windowed .. | .answered .. | .passed _ | .rejected .. | .closed _ | .hostFailed | .spent => True
  | _ => False

theorem AdmitFact.Quiet.bounds {fact : AdmitFact} (h : fact.Quiet) (deadline : Option Instant) :
    fact.bounds deadline = deadline := by
  cases fact <;> first | rfl | cases h

variable {facts : List AdmitFact} {started : Instant}

theorem callDeadline_quiet {log : List AdmitFact} (h : ∀ fact ∈ facts, fact.Quiet) :
    callDeadline (log ++ facts) = callDeadline log := by
  induction facts using reverseRecOn with
  | nil => rw [append_nil]
  | append_singleton facts fact ih =>
    rw [← append_assoc, callDeadline_snoc, (h fact mem_concat_self).bounds]
    exact ih fun other ho => h other (mem_append_left _ ho)

theorem mem_of_quiet {log : List AdmitFact} (h : ∀ fact ∈ facts, fact.Quiet) {fact : AdmitFact}
    (hlo : ¬ fact.Quiet) (hm : fact ∈ log ++ facts) : fact ∈ log := by
  rcases mem_append.mp hm with ho | hn
  · exact ho
  · exact absurd (h fact hn) hlo

/-- Why the endpoint is gone is never forgotten. -/
theorem spent_append {log : List AdmitFact}
    (h : (∃ time, .closed time ∈ log) ∨ .hostFailed ∈ log) (facts : List AdmitFact) :
    (∃ time, .closed time ∈ log ++ facts) ∨ .hostFailed ∈ log ++ facts :=
  h.imp (fun ⟨time, hcl⟩ => ⟨time, mem_append_left _ hcl⟩) (mem_append_left _)

/-! ## Windows of a peer -/

/-- The time a peer is given ends by the deadline of its generation. -/
theorem peerHandshakeWindow_spec {horizon until_ : Instant} {deadline : Option Instant}
    {limit timeout : Duration}
    (h : peerHandshakeWindow horizon started deadline limit = some (timeout, until_)) :
    started < until_ ∧ until_ ≤ started + limit ∧
      ∀ instant, deadline = some instant → until_ ≤ instant := by
  unfold peerHandshakeWindow at h
  cases deadline with
  | none =>
    dsimp only at h
    split_ifs at h with hz hhor
    cases h
    exact ⟨Nat.lt_add_of_pos_right (Nat.pos_of_ne_zero hz), le_rfl, nofun⟩
  | some instant =>
    dsimp only at h
    by_cases hs : started ≤ instant
    · rw [if_pos hs] at h
      dsimp only at h
      split_ifs at h with hz hhor
      cases h
      refine ⟨Nat.lt_add_of_pos_right (Nat.pos_of_ne_zero hz), ?_, fun other ho => ?_⟩
      · exact Nat.add_le_add_left (Nat.min_le_right ..) _
      · cases ho
        exact Nat.add_le_of_le_sub' hs (Nat.min_le_left ..)
    · rw [if_neg hs] at h
      cases h

/-- A peer is given no time only when the deadline has come, or the clock ends before. -/
theorem peerHandshakeWindow_none {config : AdmitConfig} {deadline : Option Instant}
    (hli : 0 < config.limit)
    (h : peerHandshakeWindow config.horizon started deadline config.limit = none) :
    Elapsed config deadline started := by
  unfold peerHandshakeWindow at h
  cases deadline with
  | none =>
    dsimp only at h
    split_ifs at h with hz hhor
    · exact absurd hz hli.ne'
    · exact .inr (Nat.lt_of_not_le hhor)
  | some instant =>
    dsimp only at h
    by_cases hs : started ≤ instant
    · rw [if_pos hs] at h
      dsimp only at h
      split_ifs at h with hz hhor
      · rcases Nat.min_eq_zero_iff.mp hz with hl | hn
        · exact .inl ⟨instant, rfl, Nat.le_of_sub_eq_zero hl⟩
        · exact absurd hn hli.ne'
      · exact .inr ((Nat.lt_of_not_le hhor).trans_le (Nat.add_le_add_left (Nat.min_le_right ..) _))
    · exact .inl ⟨instant, rfl, Nat.le_of_lt (Nat.lt_of_not_le hs)⟩

end Keld.Ipc
