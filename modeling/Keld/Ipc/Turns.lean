/-
# `Keld.Ipc.Turns` — the interruptible reader, turn by turn

The interruptible loop checks the stop flag, the hard deadline and the stall
clock at the top of every turn and then begins one read.  `Turn` is the loop at
the top of a turn, `Turn.Next` is a turn that leads to another one and
`Turn.Ends` a turn that ends the loop, one constructor for each way of the
source.  `Turn.run_cases` says that nothing else happens, and `Turn.run_ends`
that every run is a row of turns and a last one.

The frame reader is two such loops, the header's and the payload's.  A
`FrameTurn` is a turn of either, and `FrameTurn.Next` passes from the one to the
other where a header was decoded and admitted.
-/
import Keld.Ipc.Stream
import Mathlib.Logic.Relation

namespace Keld.Ipc

open Proc

open Relation (ReflTransGen)

/-- The interruptible loop at the top of a turn. -/
structure Turn where
  link : Link
  stall : Option Instant
  filled : List Byte
  need : Nat
  script : List Delivery

namespace Turn

/-- The link once the stop flag was loaded. -/
def loaded (turn : Turn) : Link := { turn.link with loads := turn.link.loads + 1 }

/-- The link once the hard deadline was checked. -/
def capped (env : Env) (deadlines : Deadlines) (turn : Turn) : Link :=
  turn.loaded.checked env deadlines.hard

/-- The link the read is called on. -/
def reading (env : Env) (deadlines : Deadlines) (turn : Turn) : Link :=
  (turn.capped env deadlines).checked env turn.stall

/-- The link after a read that met its own timeout, and one more look at the stall clock. -/
def polled (env : Env) (deadlines : Deadlines) (turn : Turn) : Link :=
  (turn.reading env deadlines).checked env turn.stall

/-- Only a poll that meets no byte of a new frame consults the idle deadline. -/
def idle (deadlines : Deadlines) (turn : Turn) : Option Instant :=
  if turn.filled = [] ∧ turn.stall = none then deadlines.idle else none

/-- What the loop makes of it. -/
def run (env : Env) (deadlines : Deadlines) (limit : Duration) (turn : Turn) :
    Except Halt (Option (List Byte × Option Instant)) × Link :=
  readExactInterruptibleLoop env deadlines limit turn.link turn.stall turn.filled turn.need
    turn.script

/-- The rest of the loop, from this turn on. -/
def resumed (env : Env) (deadlines : Deadlines) (limit : Duration) (turn : Turn) :
    Io (Option (List Byte × Option Instant)) := fun _ => turn.run env deadlines limit

/-- The checks at the top of the turn let it begin a read. -/
structure Begins (env : Env) (deadlines : Deadlines) (turn : Turn) : Prop where
  running : env.stop turn.link.loads = false
  inTime : turn.loaded.passed env deadlines.hard = false
  flowing : (turn.capped env deadlines).passed env turn.stall = false

/-- The kinds with which a read reports its own timeout. -/
def Expired (kind : ErrorKind) : Prop := kind = .timedOut ∨ kind = .wouldBlock

instance : DecidablePred Expired := fun _ => inferInstanceAs (Decidable (_ ∨ _))

theorem Expired.not_interrupted {kind : ErrorKind} (h : Expired kind) : kind ≠ .interrupted := by
  rintro rfl
  exact h.elim nofun nofun

/-- A turn that leads to another one. -/
inductive Next (env : Env) (deadlines : Deadlines) (limit : Duration) (turn : Turn) : Turn → Prop
  | bytes {first : Byte} {more : List Byte} {rest : List Delivery} {d : Instant}
      (begins : turn.Begins env deadlines) (met : turn.script = .bytes first more :: rest)
      (clock : (turn.reading env deadlines).stallFrom env limit turn.stall = some d)
      (short : ¬ turn.need ≤ more.length + 1) :
      Next env deadlines limit turn
        ⟨(turn.reading env deadlines).started env limit turn.stall, some d,
          turn.filled ++ first :: more, turn.need - (more.length + 1), rest⟩
  | interrupted {rest : List Delivery} (begins : turn.Begins env deadlines)
      (met : turn.script = .failed .interrupted :: rest) :
      Next env deadlines limit turn
        ⟨turn.reading env deadlines, turn.stall, turn.filled, turn.need, rest⟩
  | polled {kind : ErrorKind} {rest : List Delivery} (begins : turn.Begins env deadlines)
      (met : turn.script = .failed kind :: rest) (expired : Expired kind)
      (flowing : (turn.reading env deadlines).passed env turn.stall = false)
      (wanted : (turn.polled env deadlines).passed env (turn.idle deadlines) = false) :
      Next env deadlines limit turn
        ⟨(turn.polled env deadlines).checked env (turn.idle deadlines), turn.stall, turn.filled,
          turn.need, rest⟩

/-- A turn that ends the loop. -/
inductive Ends (env : Env) (deadlines : Deadlines) (limit : Duration) (turn : Turn) :
    Except Halt (Option (List Byte × Option Instant)) × Link → Prop
  | stopped (stop : env.stop turn.link.loads = true) :
      Ends env deadlines limit turn (.ok none, { turn.loaded with script := turn.script })
  | late (running : env.stop turn.link.loads ≠ true)
      (passed : turn.loaded.passed env deadlines.hard = true) :
      Ends env deadlines limit turn
        (.error (.failed .timeout), { turn.capped env deadlines with script := turn.script })
  | stalled (running : env.stop turn.link.loads ≠ true)
      (inTime : turn.loaded.passed env deadlines.hard ≠ true)
      (passed : (turn.capped env deadlines).passed env turn.stall = true) :
      Ends env deadlines limit turn
        (.error (.failed .timeout), { turn.reading env deadlines with script := turn.script })
  | waiting (begins : turn.Begins env deadlines) (met : turn.script = []) :
      Ends env deadlines limit turn
        (.error .waiting, { turn.reading env deadlines with script := [] })
  | eof {rest : List Delivery} (begins : turn.Begins env deadlines)
      (met : turn.script = .eof :: rest) :
      Ends env deadlines limit turn
        (.error (.failed (.io .unexpectedEof)), { turn.reading env deadlines with script := rest })
  | endless {first : Byte} {more : List Byte} {rest : List Delivery}
      (begins : turn.Begins env deadlines) (met : turn.script = .bytes first more :: rest)
      (clock : (turn.reading env deadlines).stallFrom env limit turn.stall = none) :
      Ends env deadlines limit turn
        (.error (.failed .timeout),
          { (turn.reading env deadlines).started env limit turn.stall with
            script := unread ((first :: more).drop turn.need) rest })
  | full {first : Byte} {more : List Byte} {rest : List Delivery} {d : Instant}
      (begins : turn.Begins env deadlines) (met : turn.script = .bytes first more :: rest)
      (clock : (turn.reading env deadlines).stallFrom env limit turn.stall = some d)
      (enough : turn.need ≤ more.length + 1) :
      Ends env deadlines limit turn
        (.ok (some (turn.filled ++ (first :: more).take turn.need, some d)),
          { (turn.reading env deadlines).started env limit turn.stall with
            script := unread ((first :: more).drop turn.need) rest })
  | stalledPoll {kind : ErrorKind} {rest : List Delivery} (begins : turn.Begins env deadlines)
      (met : turn.script = .failed kind :: rest) (expired : Expired kind)
      (passed : (turn.reading env deadlines).passed env turn.stall = true) :
      Ends env deadlines limit turn
        (.error (.failed .timeout), { turn.polled env deadlines with script := rest })
  | idled {kind : ErrorKind} {rest : List Delivery} (begins : turn.Begins env deadlines)
      (met : turn.script = .failed kind :: rest) (expired : Expired kind)
      (flowing : (turn.reading env deadlines).passed env turn.stall = false)
      (passed : (turn.polled env deadlines).passed env (turn.idle deadlines) = true) :
      Ends env deadlines limit turn
        (.ok none,
          { (turn.polled env deadlines).checked env (turn.idle deadlines) with script := rest })
  | failed {kind : ErrorKind} {rest : List Delivery} (begins : turn.Begins env deadlines)
      (met : turn.script = .failed kind :: rest) (other : kind ≠ .interrupted)
      (unexpired : ¬ Expired kind) :
      Ends env deadlines limit turn
        (.error (.failed (.ofIo kind)), { turn.reading env deadlines with script := rest })

section Run

variable {env : Env} {deadlines : Deadlines} {limit : Duration} {turn : Turn}

/-- A turn that begins a read is at the delivery it meets. -/
theorem Begins.run (h : turn.Begins env deadlines) :
    turn.run env deadlines limit =
      match turn.script with
      | [] => (.error .waiting, { turn.reading env deadlines with script := [] })
      | .eof :: rest =>
        (.error (.failed (.io .unexpectedEof)), { turn.reading env deadlines with script := rest })
      | .bytes first more :: rest =>
        match (turn.reading env deadlines).stallFrom env limit turn.stall with
        | none =>
          (.error (.failed .timeout),
            { (turn.reading env deadlines).started env limit turn.stall with
              script := unread ((first :: more).drop turn.need) rest })
        | some d =>
          if turn.need ≤ more.length + 1 then
            (.ok (some (turn.filled ++ (first :: more).take turn.need, some d)),
              { (turn.reading env deadlines).started env limit turn.stall with
                script := unread ((first :: more).drop turn.need) rest })
          else
            run env deadlines limit
              ⟨(turn.reading env deadlines).started env limit turn.stall, some d,
                turn.filled ++ first :: more, turn.need - (more.length + 1), rest⟩
      | .failed kind :: rest =>
        if kind = .interrupted then
          run env deadlines limit
            ⟨turn.reading env deadlines, turn.stall, turn.filled, turn.need, rest⟩
        else if Expired kind then
          if (turn.reading env deadlines).passed env turn.stall then
            (.error (.failed .timeout), { turn.polled env deadlines with script := rest })
          else if (turn.polled env deadlines).passed env (turn.idle deadlines) then
            (.ok none,
              { (turn.polled env deadlines).checked env (turn.idle deadlines) with
                script := rest })
          else
            run env deadlines limit
              ⟨(turn.polled env deadlines).checked env (turn.idle deadlines), turn.stall,
                turn.filled, turn.need, rest⟩
        else
          (.error (.failed (.ofIo kind)), { turn.reading env deadlines with script := rest }) := by
  obtain ⟨link, stall, filled, need, script⟩ := turn
  have hs : ¬ env.stop link.loads = true := Bool.eq_false_iff.mp h.running
  have hla : ¬ Link.passed env { link with loads := link.loads + 1 } deadlines.hard = true :=
    Bool.eq_false_iff.mp h.inTime
  have hst : ¬ Link.passed env (Link.checked env { link with loads := link.loads + 1 }
      deadlines.hard) stall = true := Bool.eq_false_iff.mp h.flowing
  show readExactInterruptibleLoop env deadlines limit link stall filled need script = _
  unfold readExactInterruptibleLoop
  rw [if_neg hs, if_neg hla, if_neg hst]
  rcases script with _ | ⟨_ | _ | _, _⟩ <;> rfl

theorem run_stopped (h : env.stop turn.link.loads = true) :
    turn.run env deadlines limit = (.ok none, { turn.loaded with script := turn.script }) := by
  unfold run readExactInterruptibleLoop
  exact if_pos h

theorem run_late (hru : env.stop turn.link.loads ≠ true)
    (h : turn.loaded.passed env deadlines.hard = true) :
    turn.run env deadlines limit =
      (.error (.failed .timeout), { turn.capped env deadlines with script := turn.script }) := by
  unfold run readExactInterruptibleLoop
  exact (if_neg hru).trans (if_pos h)

theorem run_stalled (hru : env.stop turn.link.loads ≠ true)
    (hinTime : turn.loaded.passed env deadlines.hard ≠ true)
    (h : (turn.capped env deadlines).passed env turn.stall = true) :
    turn.run env deadlines limit =
      (.error (.failed .timeout), { turn.reading env deadlines with script := turn.script }) := by
  unfold run readExactInterruptibleLoop
  exact (if_neg hru).trans ((if_neg hinTime).trans (if_pos h))

/-- Every turn leads to another one that the loop goes on with, or ends the loop. -/
theorem run_cases (env : Env) (deadlines : Deadlines) (limit : Duration) (turn : Turn) :
    (∃ turn', Next env deadlines limit turn turn' ∧
        turn.run env deadlines limit = turn'.run env deadlines limit) ∨
      Ends env deadlines limit turn (turn.run env deadlines limit) := by
  by_cases hs : env.stop turn.link.loads = true
  · exact .inr (run_stopped hs ▸ .stopped hs)
  by_cases hla : turn.loaded.passed env deadlines.hard = true
  · exact .inr (run_late hs hla ▸ .late hs hla)
  by_cases hst : (turn.capped env deadlines).passed env turn.stall = true
  · exact .inr (run_stalled hs hla hst ▸ .stalled hs hla hst)
  have hbeg : turn.Begins env deadlines :=
    ⟨eq_false_of_ne_true hs, eq_false_of_ne_true hla, eq_false_of_ne_true hst⟩
  rw [hbeg.run]
  rcases hmet : turn.script with _ | ⟨delivery, rest⟩
  · exact .inr (.waiting hbeg hmet)
  cases delivery with
  | eof => exact .inr (.eof hbeg hmet)
  | bytes first more =>
    dsimp only
    split
    next hn => exact .inr (.endless hbeg hmet hn)
    next d hd =>
      split_ifs with heno
      · exact .inr (.full hbeg hmet hd heno)
      · exact .inl ⟨_, .bytes hbeg hmet hd heno, rfl⟩
  | failed kind =>
    dsimp only
    split_ifs with hin hex hp he
    · subst hin
      exact .inl ⟨_, .interrupted hbeg hmet, rfl⟩
    · exact .inr (.stalledPoll hbeg hmet hex hp)
    · exact .inr (.idled hbeg hmet hex (eq_false_of_ne_true hp) he)
    · exact .inl ⟨_, .polled hbeg hmet hex (eq_false_of_ne_true hp) (eq_false_of_ne_true he), rfl⟩
    · exact .inr (.failed hbeg hmet hin hex)

/-- The loop goes on with the next turn. -/
theorem Next.run {turn' : Turn} (h : Next env deadlines limit turn turn') :
    turn.run env deadlines limit = turn'.run env deadlines limit := by
  cases h with
  | bytes begins met clock short =>
    rw [begins.run, met]
    rw [clock]
    exact if_neg short
  | interrupted begins met =>
    rw [begins.run, met]
    exact if_pos rfl
  | polled begins met expired flowing wanted =>
    rw [begins.run, met]
    dsimp only
    rw [if_neg expired.not_interrupted, if_pos expired, if_neg (Bool.eq_false_iff.mp flowing),
      if_neg (Bool.eq_false_iff.mp wanted)]

variable {r : Except Halt (Option (List Byte × Option Instant)) × Link}

theorem Ends.run (h : Ends env deadlines limit turn r) : turn.run env deadlines limit = r := by
  cases h with
  | stopped stop => exact run_stopped stop
  | late running passed => exact run_late running passed
  | stalled running inTime passed => exact run_stalled running inTime passed
  | waiting begins met | eof begins met => rw [begins.run, met]
  | endless begins met clock =>
    rw [begins.run, met]
    rw [clock]
  | full begins met clock enough =>
    rw [begins.run, met]
    rw [clock]
    exact if_pos enough
  | stalledPoll begins met expired passed =>
    rw [begins.run, met]
    exact (if_neg expired.not_interrupted).trans ((if_pos expired).trans (if_pos passed))
  | idled begins met expired flowing passed =>
    rw [begins.run, met]
    dsimp only
    rw [if_neg expired.not_interrupted, if_pos expired,
      if_neg (Bool.eq_false_iff.mp flowing), if_pos passed]
  | failed begins met other unexpired =>
    rw [begins.run, met]
    exact (if_neg other).trans (if_neg unexpired)

theorem Next.resumed {turn' : Turn} (h : Next env deadlines limit turn turn') :
    turn.resumed env deadlines limit = turn'.resumed env deadlines limit :=
  funext fun _ => h.run

theorem Ends.resumed (h : Ends env deadlines limit turn r) (link : Link) :
    turn.resumed env deadlines limit link = r := h.run

theorem Next.script_lt {turn' : Turn} (h : Next env deadlines limit turn turn') :
    turn'.script.length < turn.script.length := by
  cases h with
  | bytes begins met | interrupted begins met | polled begins met => rw [met]; exact Nat.lt_succ_self _

theorem run_ends (env : Env) (deadlines : Deadlines) (limit : Duration) (turn : Turn) :
    ∃ last, ReflTransGen (Next env deadlines limit) turn last ∧
      Ends env deadlines limit last (turn.run env deadlines limit) := by
  induction hn : turn.script.length using Nat.strong_induction_on generalizing turn with
  | _ n ih =>
    rcases run_cases env deadlines limit turn with ⟨turn', hne, hr⟩ | he
    · obtain ⟨last, htu, he⟩ := ih _ (hn ▸ hne.script_lt) turn' rfl
      exact ⟨last, .head hne htu, hr ▸ he⟩
    · exact ⟨turn, .refl, he⟩

/-! ## What one turn keeps -/

variable {turn' : Turn}

section

variable (h : Next env deadlines limit turn turn')
include h

theorem Next.begins : turn.Begins env deadlines := by
  cases h <;> assumption

theorem Next.arrived :
    turn'.filled ++ arriving turn'.script = turn.filled ++ arriving turn.script := by
  cases h with
  | bytes begins met clock short =>
    rw [met]
    exact List.append_assoc _ _ _
  | interrupted begins met | polled begins met => rw [met]; rfl

theorem Next.buffer : turn'.filled.length + turn'.need = turn.filled.length + turn.need := by
  cases h with
  | bytes begins met clock short =>
    simp only [List.length_append, List.length_cons]
    omega
  | interrupted | polled => rfl

theorem Next.stall {d : Instant} (hst : turn.stall = some d) : turn'.stall = some d := by
  cases h with
  | bytes begins met clock short =>
    rw [hst] at clock
    exact clock.symm
  | interrupted | polled => exact hst

end

end Run

end Turn

/-! ## The clocks of a link -/

section Clock

variable {env : Env} {link : Link}

variable {deadline : Option Instant} {d : Instant}

theorem Link.passed_iff :
    link.passed env deadline = true ↔ ∃ d, deadline = some d ∧ d ≤ env.now link.readings := by
  cases deadline with
  | none => exact iff_of_false nofun nofun
  | some d => simp [Link.passed]

theorem Link.not_passed (h : link.passed env deadline = false) (hd : deadline = some d) :
    env.now link.readings < d := by
  rw [hd] at h
  exact Nat.lt_of_not_le (of_decide_eq_false h)

theorem Env.checkedAdd_some {start : Instant} {limit : Duration}
    (h : env.checkedAdd start limit = some d) : d = start + limit := by
  unfold Env.checkedAdd at h
  split_ifs at h
  cases h
  rfl

theorem Link.readings_le_checked (deadline : Option Instant) :
    link.readings ≤ (link.checked env deadline).readings := by
  cases deadline with
  | none => exact le_rfl
  | some d => exact Nat.le_succ _

theorem Link.readings_lt_checked (h : link.passed env deadline = true) :
    link.readings < (link.checked env deadline).readings := by
  obtain ⟨d, rfl, -⟩ := Link.passed_iff.mp h
  exact Nat.lt_succ_self _

theorem Link.readings_le_started (limit : Duration) (stall : Option Instant) :
    link.readings ≤ (link.started env limit stall).readings := by
  cases stall with
  | none => exact Nat.le_succ _
  | some d => exact le_rfl

end Clock

namespace Turn

variable {env : Env} {deadlines : Deadlines} {limit : Duration} {turn turn' : Turn}

theorem readings_le_capped : turn.link.readings ≤ (turn.capped env deadlines).readings :=
  show turn.loaded.readings ≤ (turn.loaded.checked env deadlines.hard).readings from
    Link.readings_le_checked _

theorem readings_le_reading : turn.link.readings ≤ (turn.reading env deadlines).readings :=
  readings_le_capped.trans (Link.readings_le_checked _)

theorem readings_le_polled : turn.link.readings ≤ (turn.polled env deadlines).readings :=
  readings_le_reading.trans (Link.readings_le_checked _)

theorem Next.readings_le (h : Next env deadlines limit turn turn') :
    turn.link.readings ≤ turn'.link.readings := by
  cases h with
  | bytes begins met clock short =>
    exact readings_le_reading.trans (Link.readings_le_started limit _)
  | interrupted begins met => exact readings_le_reading
  | polled begins met expired flowing wanted =>
    exact readings_le_polled.trans (Link.readings_le_checked _)

/-- The stall clock starts with the bytes that a read returned, and only there. -/
theorem Next.starts (h : Next env deadlines limit turn turn') {d : Instant}
    (hi : turn.stall = none) (hst : turn'.stall = some d) :
    (∃ first more rest, turn.script = .bytes first more :: rest) ∧
      d = env.now (turn.reading env deadlines).readings + limit := by
  cases h with
  | bytes begins met clock short =>
    refine ⟨⟨_, _, _, met⟩, ?_⟩
    rw [hi] at clock
    cases hst
    exact Env.checkedAdd_some clock
  | interrupted | polled =>
    rw [hi] at hst
    cases hst

end Turn

/-! ## Frames -/

/-- The frame reader at the top of a turn of its header loop or of its payload loop. -/
inductive FrameTurn (τ : Type)
  | header (turn : Turn)
  | payload (value : τ) (header : FrameHeader) (turn : Turn)

namespace FrameTurn

variable {τ : Type}

def turn : FrameTurn τ → Turn
  | header turn => turn
  | payload _ _ turn => turn

/-- The deadlines of the loop; the payload's has no idle deadline. -/
def deadlines (deadlines : Deadlines) : FrameTurn τ → Deadlines
  | header _ => deadlines
  | payload _ _ _ => { deadlines with idle := none }

/-- The bytes of the frame that have arrived. -/
def arrived : FrameTurn τ → List Byte
  | header turn => turn.filled
  | payload _ declared turn => declared.encode ++ turn.filled

/-- The first turn on a link. -/
def start (link : Link) : FrameTurn τ := .header ⟨link, none, [], headerLen, link.script⟩

inductive Next (env : Env) (deadlines : Deadlines) (limit : Duration)
    (validate : FrameHeader → Except IpcError τ) : FrameTurn τ → FrameTurn τ → Prop
  | header {turn turn' : Turn} (next : turn.Next env deadlines limit turn') :
      Next env deadlines limit validate (.header turn) (.header turn')
  | admitted {turn : Turn} {bytes : List Byte} {stall : Option Instant} {link : Link}
      {header : FrameHeader} {value : τ}
      (full : turn.Ends env deadlines limit (.ok (some (bytes, stall)), link))
      (decoded : decodeBounded bytes = .ok header) (valid : validate header = .ok value)
      (body : header.len.toNat ≠ 0) :
      Next env deadlines limit validate (.header turn)
        (.payload value header ⟨link, stall, [], header.len.toNat, link.script⟩)
  | payload {turn turn' : Turn} {value : τ} {header : FrameHeader}
      (next : turn.Next env { deadlines with idle := none } limit turn') :
      Next env deadlines limit validate (.payload value header turn) (.payload value header turn')

inductive Ends (env : Env) (deadlines : Deadlines) (limit : Duration)
    (validate : FrameHeader → Except IpcError τ) :
    FrameTurn τ → Except Halt (Option (τ × List Byte)) × Link → Prop
  | stopped {frame : FrameTurn τ} {link : Link}
      (ends : frame.turn.Ends env (frame.deadlines deadlines) limit (.ok none, link)) :
      Ends env deadlines limit validate frame (.ok none, link)
  | failed {frame : FrameTurn τ} {halt : Halt} {link : Link}
      (ends : frame.turn.Ends env (frame.deadlines deadlines) limit (.error halt, link)) :
      Ends env deadlines limit validate frame (.error halt, link)
  | refused {turn : Turn} {bytes : List Byte} {stall : Option Instant} {link : Link}
      {err : IpcError} (full : turn.Ends env deadlines limit (.ok (some (bytes, stall)), link))
      (refused : (decodeBounded bytes >>= validate) = .error err) :
      Ends env deadlines limit validate (.header turn) (.error (.failed err), link)
  | bare {turn : Turn} {bytes : List Byte} {stall : Option Instant} {link : Link}
      {header : FrameHeader} {value : τ}
      (full : turn.Ends env deadlines limit (.ok (some (bytes, stall)), link))
      (decoded : decodeBounded bytes = .ok header) (valid : validate header = .ok value)
      (empty : header.len.toNat = 0) :
      Ends env deadlines limit validate (.header turn) (.ok (some (value, [])), link)
  | full {turn : Turn} {value : τ} {header : FrameHeader} {payload : List Byte}
      {stall : Option Instant} {link : Link}
      (full : turn.Ends env { deadlines with idle := none } limit
        (.ok (some (payload, stall)), link)) :
      Ends env deadlines limit validate (.payload value header turn)
        (.ok (some (value, payload)), link)

section Run

variable {env : Env} {deadlines : Deadlines} {limit : Duration}
variable {validate : FrameHeader → Except IpcError τ}

/-- What the frame reader does with the outcome of its header loop. -/
def afterHeader (env : Env) (deadlines : Deadlines) (limit : Duration)
    (validate : FrameHeader → Except IpcError τ) :
    Option (List Byte × Option Instant) → Io (Option (τ × List Byte))
  | none => return none
  | some (bytes, stall) => do
    let header ← orFail (decodeBounded bytes)
    let validated ← orFail (validate header)
    match ← readExactInterruptible env { deadlines with idle := none } limit
      header.len.toNat stall with
    | none => return none
    | some (body, _) => return some (validated, body)

/-- What it does with the outcome of its payload loop. -/
def afterPayload (value : τ) : Option (List Byte × Option Instant) → Io (Option (τ × List Byte))
  | none => return none
  | some (body, _) => return some (value, body)

/-- What the frame reader makes of a turn. -/
def finish (env : Env) (deadlines : Deadlines) (limit : Duration)
    (validate : FrameHeader → Except IpcError τ) :
    FrameTurn τ → Except Halt (Option (τ × List Byte)) × Link
  | .header turn =>
    (turn.resumed env deadlines limit >>= afterHeader env deadlines limit validate) turn.link
  | .payload value _ turn =>
    (turn.resumed env { deadlines with idle := none } limit >>= afterPayload value) turn.link

theorem finish_start (link : Link) :
    finish env deadlines limit validate (start link) =
      readFrameInterruptibleValidatedWith env deadlines limit validate link := rfl

variable {bytes : List Byte} {frame : FrameTurn τ}

/-- A header that is admitted leads to the payload. -/
theorem afterHeader_admitted {stall : Option Instant} {link : Link} {declared : FrameHeader}
    {value : τ} (decoded : decodeBounded bytes = .ok declared)
    (valid : validate declared = .ok value) :
    afterHeader env deadlines limit validate (some (bytes, stall)) link =
      (readExactInterruptible env { deadlines with idle := none } limit declared.len.toNat stall
        >>= afterPayload value) link := by
  have hde : orFail (decodeBounded bytes) link = (.ok declared, link) := by
    rw [decoded]
    rfl
  have hv : orFail (validate declared) link = (.ok value, link) := by
    rw [valid]
    rfl
  exact (bind_run_ok hde).trans (bind_run_ok hv)

/-- A header that is refused ends the read where the header did. -/
theorem afterHeader_refused {stall : Option Instant} {link : Link} {err : IpcError}
    (refused : (decodeBounded bytes >>= validate) = .error err) :
    afterHeader env deadlines limit validate (some (bytes, stall)) link =
      (.error (.failed err), link) := by
  rcases hde : decodeBounded bytes with err' | declared
  · rw [hde] at refused
    cases refused
    have hf : orFail (decodeBounded bytes) link = (.error (.failed err), link) := by
      rw [hde]
      rfl
    exact bind_run_error hf
  · rw [hde] at refused
    have hdecd : orFail (decodeBounded bytes) link = (.ok declared, link) := by
      rw [hde]
      rfl
    have hv : orFail (validate declared) link = (.error (.failed err), link) := by
      rw [show validate declared = .error err from refused]
      rfl
    exact (bind_run_ok hdecd).trans (bind_run_error hv)

/-- The frame reader goes on with the next turn. -/
theorem Next.finish {frame' : FrameTurn τ} (h : Next env deadlines limit validate frame frame') :
    frame.finish env deadlines limit validate = frame'.finish env deadlines limit validate := by
  cases h with
  | header next =>
    rename_i turn turn'
    show (turn.resumed env deadlines limit >>= afterHeader env deadlines limit validate) _ =
      (turn'.resumed env deadlines limit >>= afterHeader env deadlines limit validate) _
    rw [next.resumed]
    rfl
  | payload next =>
    rename_i turn turn' value declared
    show (turn.resumed env _ limit >>= afterPayload value) _ =
      (turn'.resumed env _ limit >>= afterPayload value) _
    rw [next.resumed]
    rfl
  | admitted full decoded valid body =>
    exact (bind_run_ok (full.resumed _)).trans
      ((afterHeader_admitted decoded valid).trans (bind_congr_run (if_neg body)))

theorem Ends.finish {r : Except Halt (Option (τ × List Byte)) × Link}
    (h : Ends env deadlines limit validate frame r) :
    frame.finish env deadlines limit validate = r := by
  cases h with
  | stopped ends =>
    cases frame with
    | header | payload => exact bind_run_ok (ends.resumed _)
  | failed ends =>
    cases frame with
    | header | payload => exact bind_run_error (ends.resumed _)
  | refused full refused =>
    exact (bind_run_ok (full.resumed _)).trans (afterHeader_refused refused)
  | bare full decoded valid empty =>
    rename_i bytes stall link declared value
    have hb : readExactInterruptible env { deadlines with idle := none } limit
        declared.len.toNat stall link = (.ok (some ([], stall)), link) := if_pos empty
    exact (bind_run_ok (full.resumed _)).trans
      ((afterHeader_admitted decoded valid).trans (bind_run_ok hb))
  | full full => exact bind_run_ok (full.resumed _)

theorem turns_finish {link : Link}
    (h : ReflTransGen (Next env deadlines limit validate) (start link) frame) :
    frame.finish env deadlines limit validate =
      readFrameInterruptibleValidatedWith env deadlines limit validate link := by
  induction h with
  | refl => exact finish_start link
  | tail turns next ih => exact next.finish.symm.trans ih

/-- The payload's loop comes to an end. -/
theorem payload_ends (env : Env) (deadlines : Deadlines) (limit : Duration)
    (validate : FrameHeader → Except IpcError τ) (value : τ) (declared : FrameHeader)
    (turn : Turn) :
    ∃ last r, ReflTransGen (Next env deadlines limit validate) (.payload value declared turn) last ∧
      Ends env deadlines limit validate last r := by
  obtain ⟨last, htu, he⟩ := Turn.run_ends env { deadlines with idle := none } limit turn
  have hre : ReflTransGen (Next env deadlines limit validate) (.payload value declared turn)
      (.payload value declared last) :=
    htu.lift (FrameTurn.payload value declared) fun _ _ h => .payload h
  generalize turn.run env { deadlines with idle := none } limit = r at he
  rcases r with ⟨halt | _ | ⟨body, stall⟩, link⟩
  · exact ⟨_, _, hre, .failed he⟩
  · exact ⟨_, _, hre, .stopped he⟩
  · exact ⟨_, _, hre, .full he⟩

/-- So does the header's, and what it leads to. -/
theorem header_ends (env : Env) (deadlines : Deadlines) (limit : Duration)
    (validate : FrameHeader → Except IpcError τ) (turn : Turn) :
    ∃ last r, ReflTransGen (Next env deadlines limit validate) (.header turn) last ∧
      Ends env deadlines limit validate last r := by
  obtain ⟨last, htu, he⟩ := Turn.run_ends env deadlines limit turn
  have hre : ReflTransGen (Next env deadlines limit validate) (.header turn) (.header last) :=
    htu.lift FrameTurn.header fun _ _ h => .header h
  generalize turn.run env deadlines limit = r at he
  rcases r with ⟨halt | _ | ⟨bytes, stall⟩, link⟩
  · exact ⟨_, _, hre, .failed he⟩
  · exact ⟨_, _, hre, .stopped he⟩
  rcases hde : decodeBounded bytes with err | declared
  · exact ⟨_, _, hre, .refused he (by rw [hde]; rfl)⟩
  rcases hv : validate declared with err | value
  · exact ⟨_, _, hre, .refused he (by rw [hde]; exact hv)⟩
  by_cases hem : declared.len.toNat = 0
  · exact ⟨_, _, hre, .bare he hde hv hem⟩
  · obtain ⟨last', r, htu', he'⟩ := payload_ends env deadlines limit validate value declared
      ⟨link, stall, [], declared.len.toNat, link.script⟩
    exact ⟨last', r, (hre.tail (.admitted he hde hv hem)).trans htu', he'⟩

theorem read_ends (env : Env) (deadlines : Deadlines) (limit : Duration)
    (validate : FrameHeader → Except IpcError τ) (link : Link) :
    ∃ last, ReflTransGen (Next env deadlines limit validate) (start link) last ∧
      Ends env deadlines limit validate last
        (readFrameInterruptibleValidatedWith env deadlines limit validate link) := by
  obtain ⟨last, r, htu, he⟩ := header_ends env deadlines limit validate
    ⟨link, none, [], headerLen, link.script⟩
  have hres : r = readFrameInterruptibleValidatedWith env deadlines limit validate link :=
    he.finish.symm.trans (turns_finish htu)
  exact ⟨last, htu, hres ▸ he⟩

end Run

end FrameTurn

end Keld.Ipc
