/-
# `Keld.Ipc.Deadlines` — three clocks of one frame

The interruptible frame reader watches a hard deadline, an idle deadline and a
stall clock.  What holds of them is kept by every turn: the stall clock runs
exactly when a byte of the frame has arrived (`FrameKept.clock`), it was started
by the read that returned the first of them (`FrameTurn.stall_since`), and no
later turn touches it, the ones of the payload included
(`FrameTurn.stall_kept`).  A turn begins a read only in front of the hard
deadline and of the stall clock's end, so the law is read off the turns.
-/
import Keld.Ipc.Turns
import Keld.Ipc.RoundTrip

namespace Keld.Ipc

open List Link

open Relation (ReflTransGen)

namespace Turn

variable {env : Env} {deadlines : Deadlines} {limit : Duration} {turn turn' : Turn}

variable {bytes : List Byte}

section

variable {stall : Option Instant} {link : Link}
  (h : turn.Ends env deadlines limit (.ok (some (bytes, stall)), link))
include h

theorem Ends.full_arrived :
    bytes ++ arriving link.script = turn.filled ++ arriving turn.script := by
  cases h with
  | full begins met clock enough =>
    rename_i first more rest d
    rw [met, arriving_unread, append_assoc, ← append_assoc (List.take _ _), take_append_drop]
    rfl

theorem Ends.full_length : bytes.length = turn.filled.length + turn.need := by
  cases h with
  | full begins met clock enough =>
    rw [length_append, length_take, length_cons, Nat.min_eq_left enough]

/-- The stall clock of a full buffer: the one that ran, or one the last read started. -/
theorem Ends.full_stall :
    turn.Begins env deadlines ∧ (∃ first more rest, turn.script = .bytes first more :: rest) ∧
      ∃ d, stall = some d ∧ (turn.stall = none →
        d = env.now (turn.reading env deadlines).readings + limit) ∧
      ∀ d', turn.stall = some d' → d = d' := by
  cases h with
  | full begins met clock enough =>
    refine ⟨begins, ⟨_, _, _, met⟩, _, rfl, fun hi => ?_, fun d' hst => ?_⟩
    · rw [hi] at clock
      exact Env.checkedAdd_some clock
    · rw [hst] at clock
      exact (Option.some.inj clock).symm

theorem Ends.full_readings : turn.link.readings ≤ link.readings := by
  cases h with
  | full begins met clock enough =>
    exact readings_le_reading.trans (readings_le_started limit _)

end

theorem Next.needs (h : Next env deadlines limit turn turn') (hne : 0 < turn.need) :
    0 < turn'.need := by
  cases h with
  | bytes begins met clock short => exact Nat.sub_pos_of_lt (Nat.lt_of_not_le short)
  | interrupted | polled => exact hne

/-- A turn without a stall clock that leads to one with a clock met the first bytes; any other
leads to a turn with the same bytes. -/
theorem Next.clock (h : Next env deadlines limit turn turn')
    (hcl : turn.stall = none ↔ turn.filled = []) :
    turn'.stall = none ↔ turn'.filled = [] := by
  cases h with
  | bytes begins met clock short =>
    exact iff_of_false nofun (append_ne_nil_of_right_ne_nil _ (cons_ne_nil _ _))
  | interrupted | polled => exact hcl

@[simp] theorem checked_loads (env : Env) (link : Link) (deadline : Option Instant) :
    (link.checked env deadline).loads = link.loads := by
  cases deadline <;> rfl

@[simp] theorem started_loads (env : Env) (limit : Duration) (link : Link)
    (stall : Option Instant) : (link.started env limit stall).loads = link.loads := by
  cases stall <;> rfl

theorem capped_loads : (turn.capped env deadlines).loads = turn.link.loads + 1 :=
  checked_loads _ _ _

theorem reading_loads : (turn.reading env deadlines).loads = turn.link.loads + 1 :=
  (checked_loads _ _ _).trans capped_loads

theorem Next.loads (h : Next env deadlines limit turn turn') :
    turn'.link.loads = turn.link.loads + 1 := by
  cases h with
  | bytes begins met clock short => exact (started_loads _ _ _ _).trans reading_loads
  | interrupted begins met => exact reading_loads
  | polled begins met expired flowing wanted =>
    exact (checked_loads _ _ _).trans ((checked_loads _ _ _).trans reading_loads)

theorem Ends.full_loads {stall : Option Instant} {link : Link}
    (h : turn.Ends env deadlines limit (.ok (some (bytes, stall)), link)) :
    link.loads = turn.link.loads + 1 := by
  cases h with
  | full begins met clock enough => exact (started_loads _ _ _ _).trans reading_loads

theorem arriving_failed_cons {script rest : List Delivery} {kind : ErrorKind}
    (h : script = .failed kind :: rest) : arriving rest = arriving script := by
  rw [h]
  rfl

/-- A loop times out at the hard deadline, at its stall clock's end, or over bytes it has read. -/
theorem Ends.timeout {link : Link} (hne : 0 < turn.need)
    (h : turn.Ends env deadlines limit (.error (.failed .timeout), link)) :
    (∃ hard, deadlines.hard = some hard ∧ hard ≤ env.now turn.link.readings ∧
        turn.link.readings < link.readings) ∨
      turn.stall ≠ none ∧ arriving link.script = arriving turn.script ∨
      (arriving link.script).length < (arriving turn.script).length := by
  generalize hr : (Except.error (Halt.failed IpcError.timeout) :
    Except Halt (Option (List Byte × Option Instant))) = r at h
  cases h with
  | stopped | waiting | eof | full | idled => cases hr
  | failed begins met other unexpired =>
    rename_i kind rest
    cases kind with
    | timedOut => exact absurd (.inl rfl) unexpired
    | wouldBlock => exact absurd (.inr rfl) unexpired
    | interrupted => exact absurd rfl other
    | unexpectedEof | other => cases hr
  | late running passed =>
    obtain ⟨hard, hha, hle⟩ := passed_iff.mp passed
    exact .inl ⟨hard, hha, hle, readings_lt_checked passed⟩
  | stalled running inTime passed =>
    obtain ⟨d, hd, -⟩ := passed_iff.mp passed
    exact .inr (.inl ⟨hd ▸ nofun, rfl⟩)
  | endless begins met clock =>
    rename_i first more rest
    refine .inr (.inr ?_)
    rw [met, arriving_unread, length_append, length_drop]
    show _ < ((first :: more) ++ arriving rest).length
    rw [length_append]
    have hpos : 0 < (first :: more).length := Nat.zero_lt_succ _
    omega
  | stalledPoll begins met expired passed =>
    obtain ⟨d, hd, -⟩ := passed_iff.mp passed
    exact .inr (.inl ⟨hd ▸ nofun, arriving_failed_cons met⟩)

/-- A loop ends without a buffer because it was stopped, or because the idle deadline passed
before any byte of the frame. -/
theorem Ends.stops {link : Link} (h : turn.Ends env deadlines limit (.ok none, link)) :
    (env.stop turn.link.loads = true ∧ turn.link.loads < link.loads) ∨
      turn.filled = [] ∧ turn.stall = none ∧ arriving link.script = arriving turn.script ∧
        ∃ idle reading, deadlines.idle = some idle ∧ turn.link.readings ≤ reading ∧
          reading < link.readings ∧ idle ≤ env.now reading := by
  cases h with
  | stopped stop => exact .inl ⟨stop, Nat.lt_succ_self _⟩
  | idled begins met expired flowing passed =>
    right
    have hp := passed
    unfold Turn.idle at hp
    split_ifs at hp with hsil
    · obtain ⟨idle, hi, hle⟩ := passed_iff.mp hp
      exact ⟨hsil.1, hsil.2, arriving_failed_cons met, idle, _, hi,
        readings_le_polled, readings_lt_checked passed, hle⟩
    · cases hp

end Turn

/-! ## What every turn of a frame keeps -/

namespace FrameTurn

variable {τ : Type} {env : Env} {deadlines : Deadlines} {limit : Duration}
variable {validate : FrameHeader → Except IpcError τ} {link : Link} {frame frame' : FrameTurn τ}

/-- What holds of every turn of a read on this link. -/
structure Kept (link : Link) (frame : FrameTurn τ) : Prop where
  /-- what arrived is in the reader, the rest is still in the stream -/
  bytes : frame.arrived ++ arriving frame.turn.script = arriving link.script
  clock : frame.turn.stall = none ↔ frame.arrived = []
  needs : 0 < frame.turn.need
  buffer : match frame with
    | .header turn => turn.filled.length + turn.need = headerLen
    | .payload _ declared turn =>
      turn.filled.length + turn.need = declared.len.toNat ∧ declared.len.toNat ≤ maxFrameLen

theorem kept_start : Kept link (start link : FrameTurn τ) where
  bytes := rfl
  clock := iff_of_true rfl rfl
  needs := Nat.zero_lt_succ 15
  buffer := rfl

theorem encode_ne_nil (declared : FrameHeader) : declared.encode ≠ [] :=
  ne_nil_of_length_pos (by rw [FrameHeader.length_encode]; decide)

theorem Kept.next (hk : Kept link frame)
    (h : Next env deadlines limit validate frame frame') : Kept link frame' := by
  cases h with
  | header next =>
    exact ⟨next.arrived.trans hk.bytes, next.clock hk.clock, next.needs hk.needs,
      next.buffer.trans hk.buffer⟩
  | payload next =>
    rename_i turn turn' value declared
    have hst : turn.stall ≠ none := fun h =>
      encode_ne_nil declared (append_eq_nil_iff.mp (hk.clock.mp h)).1
    obtain ⟨d, hd⟩ := Option.ne_none_iff_exists'.mp hst
    refine ⟨?_, ?_, next.needs hk.needs, next.buffer.trans hk.buffer.1, hk.buffer.2⟩
    · show declared.encode ++ turn'.filled ++ arriving turn'.script = arriving link.script
      rw [append_assoc, next.arrived, ← append_assoc]
      exact hk.bytes
    · refine iff_of_false ?_ fun h => encode_ne_nil declared (append_eq_nil_iff.mp h).1
      show turn'.stall ≠ none
      rw [next.stall hd]
      exact nofun
  | admitted full decoded valid body =>
    rename_i turn bytes stall link' declared value
    obtain ⟨hde, hl⟩ := decodeBounded_ok.mp decoded
    have henc : declared.encode = bytes :=
      FrameHeader.encode_decode (full.full_length.trans hk.buffer) hde
    obtain ⟨-, -, d, hd, -⟩ := full.full_stall
    refine ⟨?_, ?_, Nat.pos_of_ne_zero body, Nat.zero_add _, hl⟩
    · show declared.encode ++ [] ++ arriving link'.script = arriving link.script
      rw [append_nil, henc, full.full_arrived]
      exact hk.bytes
    · refine iff_of_false ?_ fun h => encode_ne_nil declared (append_eq_nil_iff.mp h).1
      rw [hd]
      exact nofun

/-- The turns of a read on this link. -/
def Reaches (env : Env) (deadlines : Deadlines) (limit : Duration)
    (validate : FrameHeader → Except IpcError τ) (link : Link) : FrameTurn τ → Prop :=
  ReflTransGen (Next env deadlines limit validate) (start link)

theorem Reaches.kept (h : Reaches env deadlines limit validate link frame) : Kept link frame := by
  induction h with
  | refl => exact kept_start
  | tail turns next ih => exact ih.next next

/-! ## The stall clock -/

/-- The turn begins a read. -/
def Begins (env : Env) (deadlines : Deadlines) (frame : FrameTurn τ) : Prop :=
  frame.turn.Begins env (frame.deadlines deadlines)

/-- The first bytes of the frame were read at a turn of this read, and the clock that was then
started ends here. -/
def Since (env : Env) (deadlines : Deadlines) (limit : Duration)
    (validate : FrameHeader → Except IpcError τ) (link : Link) (d : Instant) : Prop :=
  ∃ first : FrameTurn τ, Reaches env deadlines limit validate link first ∧ first.arrived = [] ∧
    first.Begins env deadlines ∧ (∃ byte more rest, first.turn.script = .bytes byte more :: rest) ∧
    d = env.now (first.turn.reading env (first.deadlines deadlines)).readings + limit

variable {d : Instant} {link' : Link}

theorem stall_next (h : Next env deadlines limit validate frame frame')
    (hst : frame.turn.stall = some d) : frame'.turn.stall = some d := by
  cases h with
  | header next | payload next => exact next.stall hst
  | admitted full decoded valid body =>
    obtain ⟨-, -, d', hd', -, hk⟩ := full.full_stall
    exact hd'.trans (congrArg some (hk d hst))

theorem stall_kept (h : ReflTransGen (Next env deadlines limit validate) frame frame')
    (hst : frame.turn.stall = some d) : frame'.turn.stall = some d := by
  induction h with
  | refl => exact hst
  | tail turns next ih => exact stall_next next ih

/-- Only the read of the first bytes starts it. -/
theorem stall_since (h : Reaches env deadlines limit validate link frame)
    (hst : frame.turn.stall = some d) : Since env deadlines limit validate link d := by
  induction h with
  | refl => cases hst
  | tail turns next ih =>
    rename_i frame frame'
    rcases hb : frame.turn.stall with _ | d'
    · have hf : frame.arrived = [] := (Reaches.kept turns).clock.mp hb
      cases next with
      | header next | payload next =>
        obtain ⟨hmet, hd⟩ := next.starts hb hst
        exact ⟨_, turns, hf, next.begins, hmet, hd⟩
      | admitted full decoded valid body =>
        obtain ⟨hbeg, hmet, d'', hd'', hs, -⟩ := full.full_stall
        have hd : d'' = d := Option.some.inj (hd''.symm.trans hst)
        exact ⟨_, turns, hf, hbeg, hmet, hd ▸ hs hb⟩
    · have hsa : d' = d := Option.some.inj ((stall_next next hb).symm.trans hst)
      exact ih (hb.trans (congrArg some hsa))

/-! ## The readings of the clock -/

theorem readings_next (h : Next env deadlines limit validate frame frame') :
    frame.turn.link.readings ≤ frame'.turn.link.readings := by
  cases h with
  | header next | payload next => exact next.readings_le
  | admitted full decoded valid body => exact full.full_readings

theorem readings_start (h : Reaches env deadlines limit validate link frame) :
    link.readings ≤ frame.turn.link.readings := by
  induction h with
  | refl => exact le_rfl
  | tail turns next ih => exact ih.trans (readings_next next)

theorem loads_next (h : Next env deadlines limit validate frame frame') :
    frame.turn.link.loads ≤ frame'.turn.link.loads := by
  cases h with
  | header next | payload next => exact next.loads ▸ Nat.le_succ _
  | admitted full decoded valid body => exact full.full_loads ▸ Nat.le_succ _

theorem loads_start (h : Reaches env deadlines limit validate link frame) :
    link.loads ≤ frame.turn.link.loads := by
  induction h with
  | refl => exact le_rfl
  | tail turns next ih => exact ih.trans (loads_next next)

/-! ## How a read ends -/

section

variable (hreach : Reaches env deadlines limit validate link frame)
include hreach

/-- A read times out at the hard deadline, or with bytes of its frame arrived. -/
theorem Ends.timeout
    (h : Ends env deadlines limit validate frame (.error (.failed .timeout), link')) :
    (∃ hard reading, deadlines.hard = some hard ∧ link.readings ≤ reading ∧
        reading < link'.readings ∧ hard ≤ env.now reading) ∨
      (arriving link'.script).length < (arriving link.script).length := by
  have hk := hreach.kept
  have hby := congrArg List.length hk.bytes
  rw [length_append] at hby
  cases h with
  | failed ends =>
    have hha : (frame.deadlines deadlines).hard = deadlines.hard := by cases frame <;> rfl
    rcases ends.timeout hk.needs with ⟨hard, hset, hle, hlt⟩ | ⟨hst, hs⟩ | hless
    · exact .inl ⟨hard, _, hha ▸ hset, readings_start hreach, hlt, hle⟩
    · have hso : 0 < frame.arrived.length := length_pos_iff.mpr fun h => hst (hk.clock.mpr h)
      rw [hs]
      omega
    · omega
  | refused full refused =>
    have hl := full.full_length
    have har := congrArg List.length full.full_arrived
    have hne := hk.needs
    rw [length_append, length_append] at har
    simp only [FrameTurn.arrived, FrameTurn.turn] at hby hne
    omega

/-- A read ends without a frame because it was stopped, or because the idle deadline passed
before any byte arrived. -/
theorem Ends.stops (h : Ends env deadlines limit validate frame (.ok none, link')) :
    (∃ load, link.loads ≤ load ∧ load < link'.loads ∧ env.stop load = true) ∨
      frame.arrived = [] ∧ arriving link'.script = arriving link.script ∧
        ∃ idle reading, deadlines.idle = some idle ∧ link.readings ≤ reading ∧
          reading < link'.readings ∧ idle ≤ env.now reading := by
  cases h with
  | stopped ends =>
    rcases ends.stops with ⟨hs, hlt⟩ | ⟨hfi, hst, hsa, idle, reading, hi, hle⟩
    · exact .inl ⟨_, loads_start hreach, hlt, hs⟩
    · have hk := hreach.kept
      have hsil := hk.clock.mp hst
      have hby := hk.bytes
      rw [hsil] at hby
      cases frame with
      | header turn =>
        exact .inr ⟨hsil, hsa.trans hby, idle, reading, hi,
          (readings_start hreach).trans hle.1, hle.2⟩
      | payload value declared turn => cases hi

theorem Reaches.result {r : Except Halt (Option (τ × List Byte)) × Link}
    (h : Ends env deadlines limit validate frame r) :
    readFrameInterruptibleValidatedWith env deadlines limit validate link = r :=
  (turns_finish hreach).symm.trans h.finish

end

theorem deadlines_hard : (frame.deadlines deadlines).hard = deadlines.hard := by
  cases frame <;> rfl

/-- What a nondecreasing clock and a script of read outcomes allow a frame read.  A read is begun
only while the clock has met neither the hard deadline nor the stall clock's end.  The stall clock
runs exactly when a byte of the frame has arrived; it was started by the read that returned the
first of them and no later turn renews it.  A timeout needs the hard deadline or an arrived byte;
an end without a frame needs a stop request, or the idle deadline with no byte arrived and none
taken from the stream.  The end of the stream is never reported as such an end. -/
theorem deadline_law (env : Env) (deadlines : Deadlines) (limit : Duration)
    (validate : FrameHeader → Except IpcError τ) (link : Link) (hclock : Monotone env.now) :
    let result := readFrameInterruptibleValidatedWith env deadlines limit validate link
    let reaches := Reaches env deadlines limit validate link
    (∃ last, reaches last ∧ Ends env deadlines limit validate last result) ∧
    (∀ frame, reaches frame → frame.Begins env deadlines →
      (∀ hard, deadlines.hard = some hard →
        ∀ reading ≤ frame.turn.link.readings, env.now reading < hard) ∧
      ∀ d, frame.turn.stall = some d →
        ∀ reading ≤ (frame.turn.capped env (frame.deadlines deadlines)).readings,
          env.now reading < d) ∧
    (∀ frame, reaches frame →
      frame.arrived ++ arriving frame.turn.script = arriving link.script ∧
      (frame.turn.stall = none ↔ frame.arrived = []) ∧
      ∀ d, frame.turn.stall = some d → Since env deadlines limit validate link d ∧
        ∀ later, ReflTransGen (Next env deadlines limit validate) frame later →
          later.turn.stall = some d) ∧
    (result.1 = .error (.failed .timeout) →
      (∃ hard reading, deadlines.hard = some hard ∧ link.readings ≤ reading ∧
        reading < result.2.readings ∧ hard ≤ env.now reading) ∨
      (arriving result.2.script).length < (arriving link.script).length) ∧
    (result.1 = .ok none →
      (∃ load, link.loads ≤ load ∧ load < result.2.loads ∧ env.stop load = true) ∨
      arriving result.2.script = arriving link.script ∧
        ∃ idle reading, deadlines.idle = some idle ∧ link.readings ≤ reading ∧
          reading < result.2.readings ∧ idle ≤ env.now reading) ∧
    (∀ frame rest, reaches frame → frame.Begins env deadlines →
      frame.turn.script = .eof :: rest →
      result.1 = .error (.failed (.io .unexpectedEof))) ∧
    ∀ frame hard, reaches frame → deadlines.hard = some hard →
      hard ≤ env.now frame.turn.link.readings →
      env.stop frame.turn.link.loads = false → result.1 = .error (.failed .timeout) := by
  intro result reaches
  obtain ⟨last, hreach, he⟩ := read_ends env deadlines limit validate link
  refine ⟨⟨last, hreach, he⟩, fun frame hf hbeg => ⟨?_, ?_⟩, fun frame hf => ?_,
    ?_, ?_, ?_, ?_⟩
  · intro hard hha reading hrdg
    have hnow := not_passed hbeg.inTime (deadlines_hard.trans hha)
    exact (hclock hrdg).trans_lt hnow
  · intro d hd reading hrdg
    exact (hclock hrdg).trans_lt (not_passed hbeg.flowing hd)
  · exact ⟨hf.kept.bytes, hf.kept.clock, fun d hd =>
      ⟨stall_since hf hd, fun later hla => stall_kept hla hd⟩⟩
  · intro hti
    have hl : Ends env deadlines limit validate last (.error (.failed .timeout), result.2) :=
      hti ▸ he
    exact hl.timeout hreach
  · intro hn
    have hl : Ends env deadlines limit validate last (.ok none, result.2) := hn ▸ he
    exact (hl.stops hreach).imp_right And.right
  · intro frame rest hf hbeg heof
    exact congrArg Prod.fst (hf.result (.failed (.eof hbeg heof)))
  · intro frame hard hf hha hlate hru
    have hp : frame.turn.loaded.passed env (frame.deadlines deadlines).hard = true :=
      passed_iff.mpr ⟨hard, deadlines_hard.trans hha, hlate⟩
    exact congrArg Prod.fst (hf.result (.failed (.late (Bool.eq_false_iff.mp hru)
      hp)))

/-- A clock that goes one second forward with each reading. -/
def secondsClock : Env :=
  ⟨fun reading => reading * 1000000000, 2 ^ 64, fun _ => false, fun _ => none⟩

/-- One poll of a quiet peer, two seconds into a drain whose idle deadline was one second. -/
theorem deadline_law_quiet :
    let result := readFrameInterruptibleValidatedWith secondsClock
      ⟨some 9000000000, some 1000000000⟩ appLinkIoDeadline Except.ok
      (fresh [.failed .wouldBlock, .failed .timedOut, .bytes 75 []])
    result.1 = .ok none ∧
      ((∃ load, 0 ≤ load ∧ load < result.2.loads ∧ secondsClock.stop load = true) ∨
        arriving result.2.script = [75] ∧
          ∃ idle reading, some 1000000000 = some idle ∧ 0 ≤ reading ∧
            reading < result.2.readings ∧ idle ≤ secondsClock.now reading) :=
  have hn : (readFrameInterruptibleValidatedWith secondsClock
      ⟨some 9000000000, some 1000000000⟩ appLinkIoDeadline Except.ok
      (fresh [.failed .wouldBlock, .failed .timedOut, .bytes 75 []])).1 = .ok none := rfl
  have hcl : Monotone secondsClock.now := fun _ _ h => Nat.mul_le_mul_right _ h
  ⟨hn, (deadline_law secondsClock ⟨some 9000000000, some 1000000000⟩ appLinkIoDeadline
    Except.ok _ hcl).2.2.2.2.1 hn⟩

end FrameTurn

end Keld.Ipc
