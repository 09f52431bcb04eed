/-
# `Keld.Ipc.BootstrapUnix` — the Unix loop, and the take that comes too late

`UnixInv` is kept by every step (`UnixInv.step`) except a cancel's take of the
active stream after the loop has looked for a stop for the last time and before
its guard is gone: the stream is then shut down and returned all the same.
-/
import Keld.Ipc.BootstrapSafety

namespace Keld.Ipc

open List

structure UnixInv (s : UnixListener) : Prop where
  permitted : Always (AdmitPermitted s.config) s.log
  place : AtLoop s.config s.log s.now s.deadline s.loop
  deadline : callDeadline s.log = s.deadline
  stops : .stopping ∈ s.log ↔ s.stopping = true
  conns : ∀ conn, .accepted conn ∈ s.log → conn < s.nextConn
  shut : ∀ conn, .shut conn ∈ s.log → s.stopping = true
  cancelled : .cancelled ∈ s.log → s.stopping = true
  pending : 0 < s.taking ∨ 0 < s.looking ∨ 0 < s.waking → s.stopping = true
  spent : s.listener = false → (∃ time, .closed time ∈ s.log) ∨ .hostFailed ∈ s.log
  ended : ∀ conn time, .returned (some (.authenticated conn)) time ∈ s.log →
    s.listener = false ∧ s.activeStream = none ∧ s.loop.conn = none
  left : ∀ admission, s.loop = .leaving (some admission) → s.listener = false
  checked : ∀ conn, s.loop = .checkClock conn →
    .passed conn ∈ s.log ∧ (reached s.deadline s.now = true ∨ .shut conn ∉ s.log)

/-- The loop has looked for a stop for the last time, and its guard holds the stream. -/
def UnixListener.Handing (s : UnixListener) : Prop :=
  s.activeStream.isSome = true ∧
    match s.loop with
    | .checkClock _ => reached s.deadline s.now = false
    | .closing (.authenticated _) | .leaving (some (.authenticated _)) => True
    | _ => False

/-- No cancel takes the stream that is being handed over. -/
def UnixListener.StepOk (s : UnixListener) : UnixEvent → Prop
  | .cancelTake => s.taking ≠ 0 → ¬ s.Handing
  | _ => True

namespace UnixInv

variable {s : UnixListener}

section

variable (h : UnixInv s)
include h

/-- The loop goes on, with what it notes. -/
theorem moves (facts : List AdmitFact) (loop : AdmitLoop) (hq : ∀ fact ∈ facts, fact.Quiet)
    (hp : Always (AdmitPermitted s.config) (s.log ++ facts))
    (hpl : AtLoop s.config (s.log ++ facts) s.now s.deadline loop)
    (hco : loop.conn = none ∨ ∃ conn, s.loop.conn = some conn)
    (hle : ∀ admission, loop = .leaving (some admission) → s.listener = false)
    (hchk : ∀ conn, loop = .checkClock conn → .passed conn ∈ s.log ++ facts ∧ .shut conn ∉ s.log) :
    UnixInv
      { s with
        log := s.log ++ facts
        loop := loop } where
  permitted := hp
  place := hpl
  deadline := (callDeadline_quiet hq).trans h.deadline
  stops :=
    ⟨fun hm => h.stops.mp (mem_of_quiet hq id hm), fun hs =>
      mem_append_left _ (h.stops.mpr hs)⟩
  conns conn hm := h.conns conn (mem_of_quiet hq id hm)
  shut conn hm := h.shut conn (mem_of_quiet hq id hm)
  cancelled hm := h.cancelled (mem_of_quiet hq id hm)
  pending := h.pending
  spent hlsn := spent_append (h.spent hlsn) _
  ended conn time hm := by
    obtain ⟨hlsn, ha, hn⟩ := h.ended conn time (mem_of_quiet hq id hm)
    refine ⟨hlsn, ha, hco.resolve_right ?_⟩
    rintro ⟨other, ho⟩
    rw [hn] at ho
    cases ho
  left := hle
  checked conn hl := by
    obtain ⟨hpa, hsh⟩ := hchk conn hl
    exact ⟨hpa, .inr fun hm => hsh (mem_of_quiet hq id hm)⟩

theorem goto (loop : AdmitLoop) (hpl : AtLoop s.config s.log s.now s.deadline loop)
    (hco : loop.conn = none ∨ ∃ conn, s.loop.conn = some conn)
    (hle : ∀ admission, loop = .leaving (some admission) → s.listener = false)
    (hchk : ∀ conn, loop ≠ .checkClock conn) : UnixInv (s.goto loop) := by
  have hmo := h.moves [] loop nofun (by rw [append_nil]; exact h.permitted)
    (by rw [append_nil]; exact hpl) hco hle fun conn hl => absurd hl (hchk conn)
  rwa [append_nil] at hmo

theorem noteGoto (fact : AdmitFact) (loop : AdmitLoop) (hq : fact.Quiet)
    (hp : AdmitPermitted s.config s.log fact)
    (hpl : AtLoop s.config (s.log ++ [fact]) s.now s.deadline loop)
    (hco : loop.conn = none ∨ ∃ conn, s.loop.conn = some conn)
    (hl : ∀ admission, loop = .leaving (some admission) → s.listener = false)
    (hchk : ∀ conn, loop = .checkClock conn → .passed conn ∈ s.log ++ [fact] ∧ .shut conn ∉ s.log) :
    UnixInv ((s.note fact).goto loop) :=
  h.moves [fact] loop (fun other ho => by rw [mem_singleton.mp ho]; exact hq)
    (always_snoc.mpr ⟨h.permitted, hp⟩) hpl hco hl hchk

theorem emptied : UnixInv { s with activeStream := none } :=
  { h with ended := fun conn time hm => ⟨(h.ended conn time hm).1, rfl, (h.ended conn time hm).2.2⟩ }

theorem stop_closing (hs : s.stopping = true) : UnixInv (s.goto (.closing .cancelled)) :=
  h.goto _ (h.stops.mpr hs) (.inl rfl) nofun nofun

theorem elapsed_closing (hel : Elapsed s.config s.deadline s.now) :
    UnixInv (s.goto (.closing .deadlineElapsed)) :=
  h.goto _ hel (.inl rfl) nofun nofun

end

variable {conn : ℕ}

section

variable (h : UnixInv s)
include h

theorem reject (hc : current s.log = some conn)
    (rejection : BootstrapRejection) : UnixInv (s.reject conn rejection) :=
  h.noteGoto (.rejected conn rejection) .retry trivial hc (by rw [AtLoop, current_snoc]; rfl)
    (.inl rfl) nofun nofun

theorem failed : UnixInv ((s.note .hostFailed).goto (.leaving none)) := by
  refine h.noteGoto .hostFailed (.leaving none) trivial trivial (.inl ?_) (.inl rfl) nofun nofun
  rw [sinceCall_snoc]
  exact mem_concat_self

theorem unreturned (hco : s.loop.conn = some conn) (other : ℕ) (time : Instant) :
    .returned (some (.authenticated other)) time ∉ s.log := by
  intro hm
  have hn := (h.ended other time hm).2.2
  rw [hco] at hn
  cases hn

/-- The loop notes a fact that is not quiet, on its way to a place that holds nothing. -/
theorem marks {fact : AdmitFact} {deadline : Option Instant} {loop : AdmitLoop} {active : Option ℕ}
    (hlo : fact ≠ .stopping ∧ fact ≠ .cancelled ∧ (∀ conn, fact ≠ .shut conn) ∧
      ∀ conn, fact ≠ .accepted conn)
    (hp : AdmitPermitted s.config s.log fact) (hc : current (s.log ++ [fact]) = none)
    (hdl : callDeadline (s.log ++ [fact]) = deadline)
    (ha : s.activeStream = none → active = none)
    (he : ∀ conn time, fact = .returned (some (.authenticated conn)) time →
      s.listener = false ∧ active = none)
    (hl : loop = .idle ∨ loop = .top) :
    UnixInv
      { s with
        log := s.log ++ [fact]
        deadline := deadline
        loop := loop
        activeStream := active } := by
  have hco : loop.conn = none := by rcases hl with rfl | rfl <;> rfl
  exact
    { permitted := always_snoc.mpr ⟨h.permitted, hp⟩
      place := by rcases hl with rfl | rfl <;> exact hc
      deadline := hdl
      stops := ⟨fun hm => h.stops.mp (mem_of_snoc hm hlo.1.symm), fun hs =>
        mem_append_left _ (h.stops.mpr hs)⟩
      conns := fun conn hm => h.conns conn (mem_of_snoc hm (hlo.2.2.2 conn).symm)
      shut := fun conn hm => h.shut conn (mem_of_snoc hm (hlo.2.2.1 conn).symm)
      cancelled := fun hm => h.cancelled (mem_of_snoc hm hlo.2.1.symm)
      pending := h.pending
      spent := fun hlsn => spent_append (h.spent hlsn) _
      ended := fun conn time hm => by
        rcases mem_snoc.mp hm with hb | hla
        · obtain ⟨hlsn, hn, -⟩ := h.ended conn time hb
          exact ⟨hlsn, ha hn, hco⟩
        · obtain ⟨hlsn, hn⟩ := he conn time hla.symm
          exact ⟨hlsn, hn, hco⟩
      left := fun _ heq => by rcases hl with rfl | rfl <;> cases heq
      checked := fun _ heq => by rcases hl with rfl | rfl <;> cases heq }

theorem finish {admission : Option BootstrapAdmission}
    (hl : s.loop = .leaving admission) : UnixInv (s.finish admission) := by
  have hpl := h.place
  rw [hl] at hpl
  refine h.marks ⟨nofun, nofun, nofun, nofun⟩ (hpl.returns h.deadline)
    (by rw [current_snoc]; rfl) (by rw [callDeadline_snoc]; exact h.deadline) (fun _ => rfl)
    (fun conn time he => ?_) (.inl rfl)
  cases he
  exact ⟨h.left _ hl, rfl⟩

theorem advance : UnixInv s.advance := by
  have hpl := h.place
  unfold UnixListener.advance
  generalize hl : s.loop = loop at hpl ⊢
  cases loop with
  | top =>
    dsimp only
    split_ifs with hs
    · exact h.stop_closing hs
    · exact h.goto .clock hpl (.inl rfl) nofun nofun
  | clock =>
    dsimp only
    split_ifs with hrch
    · exact h.elapsed_closing (elapsed_of_reached hrch)
    · exact h.goto .accept hpl (.inl rfl) nofun nofun
  | accepted conn =>
    dsimp only
    split_ifs with hs
    · exact h.stop_closing hs
    · exact h.goto (.window conn) hpl (.inr ⟨conn, by rw [hl]; rfl⟩) nofun nofun
  | window conn =>
    cases hw : peerHandshakeWindow s.config.horizon s.now s.deadline s.config.limit with
    | none => exact h.elapsed_closing (peerHandshakeWindow_none s.config.limit_pos hw)
    | some window =>
      obtain ⟨timeout, until_⟩ := window
      obtain ⟨hst, hli, hdl⟩ := peerHandshakeWindow_spec hw
      refine h.noteGoto (.windowed conn s.now until_) (.options conn until_) trivial
        ⟨hpl, hst, hli, by rw [h.deadline]; exact hdl⟩ ⟨?_, ?_⟩
        (.inr ⟨conn, by rw [hl]; rfl⟩) nofun nofun
      · rw [current_snoc]
        exact hpl
      · exact ⟨s.now, until_, mem_concat_self⟩
  | publish conn until_ =>
    have hco : s.loop.conn = some conn := by rw [hl]; rfl
    have ha : UnixInv { s with activeStream := some conn } :=
      { h with ended := fun other time hm => absurd hm (h.unreturned hco other time) }
    exact ha.goto (.handshake conn until_) hpl (.inr ⟨conn, hco⟩) nofun nofun
  | refused conn err =>
    dsimp only
    split_ifs with hs hti
    · exact h.stop_closing hs
    · exact h.goto (.refusedClock conn err) hpl (.inr ⟨conn, by rw [hl]; rfl⟩) nofun nofun
    · exact h.reject hpl _
  | refusedClock conn err =>
    dsimp only
    split_ifs with hrch
    · exact h.elapsed_closing (elapsed_of_reached hrch)
    · exact h.reject hpl _
  | checkStop conn =>
    dsimp only
    split_ifs with hs
    · exact h.stop_closing hs
    · -- No cancel has begun, so that none has shut the stream down.
      have hsh : .shut conn ∉ s.log := fun hm => hs (h.shut conn hm)
      refine h.noteGoto (.passed conn) (.checkClock conn) trivial
        ⟨hpl.1, fun hm => hs (h.cancelled hm), hsh⟩ ⟨?_, hpl.2.append _⟩
        (.inr ⟨conn, by rw [hl]; rfl⟩) nofun (fun other he => ?_)
      · rw [current_snoc]
        exact hpl.1
      · cases he
        exact ⟨mem_concat_self, hsh⟩
  | checkClock conn =>
    obtain ⟨hp, hsh⟩ := h.checked conn hl
    have hco : s.loop.conn = some conn := by rw [hl]; rfl
    dsimp only
    split_ifs with hrch
    · exact h.elapsed_closing (elapsed_of_reached hrch)
    · refine h.goto (.closing (.authenticated conn)) ⟨hpl.1, hp, ?_, ?_, h.unreturned hco⟩
        (.inr ⟨conn, hco⟩) nofun nofun
      · exact hpl.2.before (eq_false_of_ne_true hrch)
      · exact hsh.resolve_left hrch
  | leaving admission => exact h.finish hl
  | retry =>
    exact h.emptied.goto .top hpl (.inl rfl) nofun nofun
  | idle | accept | options | clone | handshake | consume | closing => exact h

/-- A cancel notes something, and only the slot and the counts of the cancels change. -/
theorem beside {s' : UnixListener} (fact : AdmitFact) (hbes : fact.Beside)
    (hlo : s'.log = s.log ++ [fact]) (hco : s'.config = s.config) (hnow : s'.now = s.now)
    (hdl : s'.deadline = s.deadline) (hl : s'.loop = s.loop)
    (hlsn : s'.listener = s.listener) (hconn : s'.nextConn = s.nextConn)
    (hsl : s'.activeStream = s.activeStream ∨ s'.activeStream = none)
    (hs : s'.stopping = true) (hst : .stopping ∈ s'.log)
    (hp : AdmitPermitted s.config s.log fact) (hsp : Spares s.loop fact)
    (hchk : ∀ conn, s.loop = .checkClock conn → fact ≠ .shut conn ∨
      reached s.deadline s.now = true) : UnixInv s' := by
  have hol : ∀ {other : AdmitFact}, ¬ other.Beside → other ∈ s'.log → other ∈ s.log := by
    intro other ho hm
    rw [hlo] at hm
    rcases mem_snoc.mp hm with hb | hla
    · exact hb
    · rw [hla] at ho
      exact absurd hbes ho
  exact
    { permitted := by
        rw [hlo, hco, always_snoc]
        exact ⟨h.permitted, hp⟩
      place := by
        rw [hlo, hco, hnow, hdl, hl]
        exact h.place.beside hbes hsp
      deadline := by
        rw [hlo, hdl, callDeadline_snoc, hbes.bounds]
        exact h.deadline
      stops := ⟨fun _ => hs, fun _ => hst⟩
      conns := fun conn hm => by
        rw [hconn]
        exact h.conns conn (hol id hm)
      shut := fun _ _ => hs
      cancelled := fun _ => hs
      pending := fun _ => hs
      spent := fun hcl => by
        rw [hlsn] at hcl
        rw [hlo]
        exact spent_append (h.spent hcl) _
      ended := fun conn time hm => by
        obtain ⟨hcl, ha, hn⟩ := h.ended conn time (hol id hm)
        rw [hlsn, hl]
        refine ⟨hcl, ?_, hn⟩
        rcases hsl with hsa | hn
        · rw [hsa, ha]
        · exact hn
      left := fun admission hle => by
        rw [hlsn]
        exact h.left admission (hl ▸ hle)
      checked := fun conn hcc => by
        rw [hl] at hcc
        obtain ⟨hpa, hsh⟩ := h.checked conn hcc
        rw [hlo, hdl, hnow]
        refine ⟨mem_append_left _ hpa, ?_⟩
        rcases hsh with hrch | hsh
        · exact .inl hrch
        · rcases hchk conn hcc with hne | hrch
          · right
            rw [mem_append, not_or, mem_singleton]
            exact ⟨hsh, hne.symm⟩
          · exact .inl hrch }

theorem taken (hok : s.StepOk .cancelTake) : UnixInv (s.step .cancelTake) := by
  unfold UnixListener.step
  dsimp only
  split_ifs with hn
  · exact h
  · have hst := h.pending (.inl (Nat.pos_of_ne_zero hn))
    have hsp := h.stops.mpr hst
    have hi := hok hn
    cases hs : s.activeStream with
    | none =>
      have hne : UnixInv
          { s with
            taking := s.taking - 1
            looking := s.looking + 1 } := { h with pending := fun _ => hst }
      rw [hs] at hne
      exact hne
    | some conn =>
      refine h.beside (.shut conn) trivial rfl rfl rfl rfl rfl rfl rfl (.inr rfl) hst
        (mem_append_left _ hsp) ⟨hsp, fun time hm => ?_⟩ ?_ ?_
      · have ha := (h.ended conn time hm).2.1
        rw [hs] at ha
        cases ha
      · intro other hl
        refine absurd ⟨by rw [hs]; rfl, ?_⟩ hi
        rcases hl with hl | hl <;> rw [hl] <;> trivial
      · intro other hl
        by_cases hrch : reached s.deadline s.now = true
        · exact .inr hrch
        · refine absurd ⟨by rw [hs]; rfl, ?_⟩ hi
          rw [hl]
          exact eq_false_of_ne_true hrch

theorem accepted (hc : current s.log = none) (hlsn : s.listener = true) :
    UnixInv (({ s with nextConn := s.nextConn + 1 }.note (.accepted s.nextConn)).goto
      (.accepted s.nextConn)) := by
  have hf : .accepted s.nextConn ∉ s.log := fun hm => (h.conns s.nextConn hm).false
  exact
    { permitted := always_snoc.mpr ⟨h.permitted, hc, hf⟩
      place := by
        change current (s.log ++ _) = some s.nextConn
        rw [current_snoc]
        rfl
      deadline := by
        change callDeadline (s.log ++ _) = s.deadline
        rw [callDeadline_snoc]
        exact h.deadline
      stops := ⟨fun hm => h.stops.mp (mem_of_snoc hm nofun), fun hs =>
        mem_append_left _ (h.stops.mpr hs)⟩
      conns := fun conn hm => by
        rcases mem_snoc.mp hm with hb | he
        · exact Nat.lt_succ_of_lt (h.conns conn hb)
        · cases he
          exact Nat.lt_succ_self _
      shut := fun conn hm => h.shut conn (mem_of_snoc hm nofun)
      cancelled := fun hm => h.cancelled (mem_of_snoc hm nofun)
      pending := h.pending
      spent := fun hcl => absurd (hcl.symm.trans hlsn) Bool.false_ne_true
      ended := fun conn time hm => by
        have hcl := (h.ended conn time (mem_of_snoc hm nofun)).1
        exact absurd (hcl.symm.trans hlsn) Bool.false_ne_true
      left := nofun
      checked := nofun }

theorem unlistened (hsp : (∃ time, .closed time ∈ s.log) ∨ .hostFailed ∈ s.log) :
    UnixInv
      { s with
        listener := false
        listening := false } :=
  { h with
    spent := fun _ => hsp
    ended := fun conn time hm => ⟨rfl, (h.ended conn time hm).2⟩
    left := fun _ _ => rfl }

theorem closed {admission : BootstrapAdmission} {ok : Bool} (hl : s.loop = .closing admission)
    (hdec : Decided s.config s.log s.now s.deadline admission) :
    UnixInv (if ok then
        ({ s with
          listener := false
          listening := false }.note (.closed s.now)).goto (.leaving (some admission))
      else
        ({ s with
          listener := false
          listening := false }.note .hostFailed).goto (.leaving none)) := by
  split_ifs with hok
  · have hno : UnixInv (s.note (.closed s.now)) := by
      refine h.moves [.closed s.now] s.loop (fun fact hm => ?_)
        (always_snoc.mpr ⟨h.permitted, hdec.closes h.deadline⟩) ?_ ?_ h.left (fun conn he => ?_)
      · rw [mem_singleton.mp hm]
        trivial
      · rw [hl]
        exact hdec.closed s.now
      · cases hco : s.loop.conn with
        | none => exact .inl rfl
        | some conn => exact .inr ⟨conn, rfl⟩
      · rw [hl] at he
        cases he
    have hm : .closed s.now ∈ s.log ++ [.closed s.now] := mem_concat_self
    have hcl := hno.unlistened (.inl ⟨s.now, hm⟩)
    refine hcl.goto (.leaving (some admission)) ⟨⟨s.now, hm⟩, hdec.closed s.now⟩ ?_
      (fun _ _ => rfl) nofun
    cases admission with
    | authenticated conn => exact .inr ⟨conn, by change s.loop.conn = _; rw [hl]; rfl⟩
    | cancelled | deadlineElapsed => exact .inl rfl
  · exact h.failed.unlistened (.inr mem_concat_self)

theorem step {event : UnixEvent} (hok : s.StepOk event) : UnixInv (s.step event) := by
  have hpl := h.place
  unfold UnixListener.step
  cases event with
  | tick elapsed =>
    refine { h with place := hpl.tick (Nat.le_add_right ..), checked := fun conn hl => ?_ }
    obtain ⟨hp, hsh⟩ := h.checked conn hl
    refine ⟨hp, hsh.imp (fun hrch => ?_) id⟩
    cases hdl : s.deadline with
    | none =>
      rw [hdl] at hrch
      cases hrch
    | some instant =>
      rw [hdl] at hrch
      have hle : instant ≤ s.now := by simpa [reached] using hrch
      have hla : instant ≤ s.now + elapsed := hle.trans (Nat.le_add_right ..)
      simpa [reached] using hla
  | call deadline =>
    dsimp only
    split_ifs with hi
    · rw [hi] at hpl
      refine h.marks ⟨?_, ?_, ?_, ?_⟩ hpl (by rw [current_snoc]; rfl)
        (by rw [callDeadline_snoc]; rfl) id ?_ (.inr rfl)
      all_goals simp
    · exact h
  | advance => exact h.advance
  | tryAccept result =>
    dsimp only
    by_cases hac : s.loop = .accept
    · rw [hac] at hpl
      rw [if_neg (not_not.mpr hac)]
      split_ifs with hlsn
      · cases result with
        | wouldBlock =>
          exact h.goto .top hpl (.inl rfl) (by rintro _ ⟨⟩) (by rintro _ ⟨⟩)
        | failed => exact h.failed
        | stream =>
          exact h.accepted hpl hlsn
      · refine h.noteGoto .spent (.leaving none) trivial
          (h.spent (eq_false_of_ne_true hlsn)) (.inr ?_) (.inl rfl)
          (by rintro _ ⟨⟩) (by rintro _ ⟨⟩)
        rw [sinceCall_snoc]
        exact mem_concat_self
    · rw [if_pos hac]
      exact h
  | setOptions ok =>
    dsimp only
    split
    · rename_i conn until_ hl
      rw [hl] at hpl
      split_ifs with hok
      · exact h.goto (.clone conn until_) hpl (.inr ⟨conn, by rw [hl]; rfl⟩) (by rintro _ ⟨⟩) (by rintro _ ⟨⟩)
      · exact h.reject hpl.1 _
    · exact h
  | tryClone ok =>
    dsimp only
    split
    · rename_i conn until_ hl
      rw [hl] at hpl
      split_ifs with hok
      · exact h.goto (.publish conn until_) hpl (.inr ⟨conn, by rw [hl]; rfl⟩) (by rintro _ ⟨⟩) (by rintro _ ⟨⟩)
      · exact h.failed
    · exact h
  | handshake env link =>
    dsimp only
    split
    · rename_i conn until_ hl
      rw [hl] at hpl
      have hco : s.loop.conn = some conn := by rw [hl]; rfl
      split
      · rename_i link' hd
        obtain ⟨hbeg, hw⟩ := handshake_completed hd
        refine h.noteGoto (.answered conn link link' s.now) (.checkStop conn) trivial
          ⟨hpl.1, hpl.2, hbeg, hw⟩ ⟨?_, ?_⟩ (.inr ⟨conn, hco⟩)
          (by rintro _ ⟨⟩) (by rintro _ ⟨⟩)
        · rw [current_snoc]
          exact hpl.1
        · exact ⟨link, link', s.now, mem_concat_self, le_rfl⟩
      · rename_i link' hd
        obtain ⟨load, hlo⟩ := handshake_stopped hd
        exact h.stop_closing (Bool.and_eq_true_iff.mp hlo).1
      · exact h.goto (.refused conn _) hpl.1 (.inr ⟨conn, hco⟩) (by rintro _ ⟨⟩) (by rintro _ ⟨⟩)
      · exact h
    · exact h
  | closeEndpoint ok =>
    dsimp only
    split
    · rename_i admission hl
      rw [hl] at hpl
      exact h.closed hl hpl
    · exact h
  | cancelStop =>
    exact h.beside .stopping trivial rfl rfl rfl rfl rfl rfl rfl (.inl rfl) rfl
      mem_concat_self trivial
      (fun _ _ => by rintro ⟨⟩) (fun _ _ => .inl (by rintro ⟨⟩))
  | cancelTake => exact h.taken hok
  | cancelLook =>
    dsimp only
    split_ifs with hn hli
    · exact h
    · have hs := h.pending (.inr (.inl (Nat.pos_of_ne_zero hn)))
      exact { h with pending := fun _ => hs }
    · have hs := h.pending (.inr (.inl (Nat.pos_of_ne_zero hn)))
      exact h.beside .cancelled trivial rfl rfl rfl rfl rfl rfl rfl (.inl rfl) hs
        (mem_append_left _ (h.stops.mpr hs)) (h.stops.mpr hs)
        (fun _ _ => by rintro ⟨⟩) (fun _ _ => .inl (by rintro ⟨⟩))
  | cancelWake =>
    dsimp only
    split_ifs with hn
    · exact h
    · have hs := h.pending (.inr (.inr (Nat.pos_of_ne_zero hn)))
      exact h.beside .cancelled trivial rfl rfl rfl rfl rfl rfl rfl (.inl rfl) hs
        (mem_append_left _ (h.stops.mpr hs)) (h.stops.mpr hs)
        (fun _ _ => by rintro ⟨⟩) (fun _ _ => .inl (by rintro ⟨⟩))

end

end UnixInv

namespace UnixListener

theorem run_snoc (config : AdmitConfig) (events : List UnixEvent) (event : UnixEvent) :
    run config (events ++ [event]) = (run config events).step event := foldl_append ..

end UnixListener

/-- Every step of the run is taken where it spares the stream that is being handed over. -/
def Sparing (config : AdmitConfig) (events : List UnixEvent) : Prop :=
  ∀ before event after, events = before ++ event :: after →
    (UnixListener.run config before).StepOk event

theorem unixInv_initial (config : AdmitConfig) : UnixInv { config := config } where
  permitted := always_nil _
  place := rfl
  deadline := rfl
  stops := ⟨nofun, nofun⟩
  conns _ hm := nomatch hm
  shut _ hm := nomatch hm
  cancelled hm := nomatch hm
  pending hp := by
    rcases hp with hpos | hpos | hpos <;> cases hpos
  spent hlsn := nomatch hlsn
  ended _ _ hm := nomatch hm
  left _ he := nomatch he
  checked _ he := nomatch he

theorem run_unixInv {config : AdmitConfig} {events : List UnixEvent} (h : Sparing config events) :
    UnixInv (UnixListener.run config events) := by
  induction events using reverseRecOn with
  | nil => exact unixInv_initial config
  | append_singleton events event ih =>
    rw [UnixListener.run_snoc]
    refine (ih fun before other after he => ?_).step (h events event [] rfl)
    refine h before other (after ++ [event]) ?_
    rw [he, append_assoc, cons_append]

end Keld.Ipc
