/-
# `Keld.Ipc.BootstrapWindows` — the Windows loop, and the one-shot

The one-shot of the pipe instance and the act of a cancel exclude each other:
whichever comes first, the other finds it and does nothing.  So `WindowsInv` is
kept by every step.
-/
import Keld.Ipc.BootstrapSafety

namespace Keld.Ipc

open List

structure WindowsInv (s : WindowsListener) : Prop where
  permitted : Always (AdmitPermitted s.config) s.log
  place : AtLoop s.config s.log s.now s.deadline s.loop
  deadline : callDeadline s.log = s.deadline
  stops : .stopping ∈ s.log ↔ s.stopping = true
  conns : ∀ conn, .accepted conn ∈ s.log → conn < s.nextConn
  shut : ∀ conn, .shut conn ∈ s.log → s.cancelled = true
  acted : .cancelled ∈ s.log → s.cancelled = true ∨ s.consumed = true
  flag : s.cancelled = true → s.stopping = true
  pending : 0 < s.acting → s.stopping = true
  gone : s.server = false → ∃ time, .closed time ∈ s.log
  spent : s.consumed = true → (∃ time, .closed time ∈ s.log) ∨ .hostFailed ∈ s.log
  ended : ∀ conn time, .returned (some (.authenticated conn)) time ∈ s.log → s.consumed = true
  held : s.loop.holding = true → s.consumed = false
  handed : ∀ conn, s.loop = .leaving (some (.authenticated conn)) → s.consumed = true
  decided : ∀ conn, s.loop ≠ .closing (.authenticated conn)

namespace WindowsInv

variable {s : WindowsListener}

section

variable (h : WindowsInv s)
include h

/-- The loop goes on, with what it notes. -/
theorem moves (facts : List AdmitFact) (loop : AdmitLoop) (hq : ∀ fact ∈ facts, fact.Quiet)
    (hp : Always (AdmitPermitted s.config) (s.log ++ facts))
    (hpl : AtLoop s.config (s.log ++ facts) s.now s.deadline loop)
    (hh : loop.holding = true → s.consumed = false)
    (hha : ∀ conn, loop ≠ .leaving (some (.authenticated conn)))
    (hdec : ∀ conn, loop ≠ .closing (.authenticated conn)) :
    WindowsInv
      { s with
        log := s.log ++ facts
        loop := loop } := { h with
  permitted := hp
  place := hpl
  deadline := (callDeadline_quiet hq).trans h.deadline
  stops :=
    ⟨fun hm => h.stops.mp (mem_of_quiet hq id hm), fun hs =>
      mem_append_left _ (h.stops.mpr hs)⟩
  conns conn hm := h.conns conn (mem_of_quiet hq id hm)
  shut conn hm := h.shut conn (mem_of_quiet hq id hm)
  acted hm := h.acted (mem_of_quiet hq id hm)
  gone hsrv := by
    obtain ⟨time, hcl⟩ := h.gone hsrv
    exact ⟨time, mem_append_left _ hcl⟩
  spent hc := spent_append (h.spent hc) _
  ended conn time hm := h.ended conn time (mem_of_quiet hq id hm)
  held := hh
  handed conn he := absurd he (hha conn)
  decided := hdec }

theorem goto (loop : AdmitLoop) (hpl : AtLoop s.config s.log s.now s.deadline loop)
    (hh : loop.holding = true → s.consumed = false)
    (hha : ∀ conn, loop ≠ .leaving (some (.authenticated conn)))
    (hdec : ∀ conn, loop ≠ .closing (.authenticated conn)) : WindowsInv (s.goto loop) := by
  have hmo := h.moves [] loop nofun
    (by rw [append_nil]; exact h.permitted) (by rw [append_nil]; exact hpl) hh
    hha hdec
  rwa [append_nil] at hmo

theorem noteGoto (fact : AdmitFact) (loop : AdmitLoop) (hq : fact.Quiet)
    (hp : AdmitPermitted s.config s.log fact)
    (hpl : AtLoop s.config (s.log ++ [fact]) s.now s.deadline loop)
    (hh : loop.holding = true → s.consumed = false)
    (hha : ∀ conn, loop ≠ .leaving (some (.authenticated conn)))
    (hdec : ∀ conn, loop ≠ .closing (.authenticated conn)) :
    WindowsInv ((s.note fact).goto loop) :=
  h.moves [fact] loop (fun other ho => by rw [mem_singleton.mp ho]; exact hq)
    (always_snoc.mpr ⟨h.permitted, hp⟩) hpl hh hha hdec

theorem stop_closing (hs : s.stopping = true) : WindowsInv (s.goto (.closing .cancelled)) :=
  h.goto _ (h.stops.mpr hs) nofun nofun nofun

theorem elapsed_closing (hel : Elapsed s.config s.deadline s.now) :
    WindowsInv (s.goto (.closing .deadlineElapsed)) :=
  h.goto _ hel nofun nofun nofun

end

variable {conn : ℕ}

section

variable (h : WindowsInv s)
include h

theorem reject (hc : current s.log = some conn)
    (rejection : BootstrapRejection) : WindowsInv (s.reject conn rejection) :=
  h.noteGoto (.rejected conn rejection) .retry trivial hc (by rw [AtLoop, current_snoc]; rfl)
    nofun nofun nofun

theorem failed : WindowsInv ((s.note .hostFailed).goto (.leaving none)) := by
  refine h.noteGoto .hostFailed (.leaving none) trivial trivial (.inl ?_) nofun nofun nofun
  rw [sinceCall_snoc]
  exact mem_concat_self

theorem found_spent (hsp : (∃ time, .closed time ∈ s.log) ∨ .hostFailed ∈ s.log) :
    WindowsInv ((s.note .spent).goto (.leaving none)) := by
  refine h.noteGoto .spent (.leaving none) trivial hsp (.inr ?_) nofun nofun nofun
  rw [sinceCall_snoc]
  exact mem_concat_self

/-- The loop notes a fact that is not quiet, on its way to a place that holds nothing. -/
theorem marks {fact : AdmitFact} {deadline : Option Instant} {loop : AdmitLoop}
    (hlo : fact ≠ .stopping ∧ fact ≠ .cancelled ∧ (∀ conn, fact ≠ .shut conn) ∧
      ∀ conn, fact ≠ .accepted conn)
    (hp : AdmitPermitted s.config s.log fact) (hc : current (s.log ++ [fact]) = none)
    (hdl : callDeadline (s.log ++ [fact]) = deadline)
    (he : ∀ conn time, fact = .returned (some (.authenticated conn)) time → s.consumed = true)
    (hl : loop = .idle ∨ loop = .top) :
    WindowsInv
      { s with
        log := s.log ++ [fact]
        deadline := deadline
        loop := loop } := by
  exact
    { permitted := always_snoc.mpr ⟨h.permitted, hp⟩
      place := by
        rcases hl with rfl | rfl
        · exact hc
        · exact hc
      deadline := hdl
      stops := ⟨fun hm => h.stops.mp (mem_of_snoc hm hlo.1.symm), fun hs =>
        mem_append_left _ (h.stops.mpr hs)⟩
      conns := fun conn hm => h.conns conn (mem_of_snoc hm (hlo.2.2.2 conn).symm)
      shut := fun conn hm => h.shut conn (mem_of_snoc hm (hlo.2.2.1 conn).symm)
      acted := fun hm => h.acted (mem_of_snoc hm hlo.2.1.symm)
      flag := h.flag
      pending := h.pending
      gone := fun hsrv => by
        obtain ⟨time, hcl⟩ := h.gone hsrv
        exact ⟨time, mem_append_left _ hcl⟩
      spent := fun hco => spent_append (h.spent hco) _
      ended := fun conn time hm => by
        rcases mem_snoc.mp hm with hb | hla
        · exact h.ended conn time hb
        · exact he conn time hla.symm
      held := fun heq => by rcases hl with rfl | rfl <;> cases heq
      handed := fun conn heq => by rcases hl with rfl | rfl <;> cases heq
      decided := fun conn heq => by rcases hl with rfl | rfl <;> cases heq }

theorem finish {admission : Option BootstrapAdmission}
    (hl : s.loop = .leaving admission) : WindowsInv (s.finish admission) := by
  have hpl := h.place
  rw [hl] at hpl
  refine h.marks ⟨nofun, nofun, nofun, nofun⟩ (hpl.returns h.deadline)
    (by rw [current_snoc]; rfl) (by rw [callDeadline_snoc]; exact h.deadline)
    (fun conn time he => ?_) (.inl rfl)
  cases he
  exact h.handed conn hl

/-- The one-shot is taken, which no cancel has acted on. -/
theorem consume (hl : s.loop = .consume conn) (hca : s.cancelled = false) :
    WindowsInv ((({ s with
      consumed := true
      server := false }.note (.passed conn)).note (.closed s.now)).goto
        (.leaving (some (.authenticated conn)))) := by
  have hpl := h.place
  rw [hl] at hpl
  obtain ⟨hc, hans⟩ := hpl
  have hco : s.consumed = false := h.held (by rw [hl]; rfl)
  have hun : .cancelled ∉ s.log := by
    intro hm
    rcases h.acted hm with hac | hsp
    · rw [hca] at hac
      cases hac
    · rw [hco] at hsp
      cases hsp
  have hsh : .shut conn ∉ s.log := by
    intro hm
    have hac := h.shut conn hm
    rw [hca] at hac
    cases hac
  have hre : ∀ other time, .returned (some (.authenticated other)) time ∉ s.log := by
    intro other time hm
    have hsp := h.ended other time hm
    rw [hco] at hsp
    cases hsp
  have hq : ∀ fact ∈ [AdmitFact.passed conn, .closed s.now], fact.Quiet := by
    intro fact hm
    rcases mem_cons.mp hm with rfl | hla
    · trivial
    · rw [mem_singleton.mp hla]
      trivial
  have hlo : s.log ++ [.passed conn] ++ [.closed s.now] =
      s.log ++ [.passed conn, .closed s.now] := by rw [append_assoc]; rfl
  have hp : .passed conn ∈ s.log ++ [.passed conn] := mem_concat_self
  have hdec : Decided s.config (s.log ++ [.passed conn]) s.now s.deadline
      (.authenticated conn) := by
    refine ⟨?_, hp, hans.append _, ?_, fun other time => ?_⟩
    · rw [current_snoc]
      exact hc
    · rw [mem_append, not_or, mem_singleton]
      exact ⟨hsh, nofun⟩
    · rw [mem_append, not_or, mem_singleton]
      exact ⟨hre other time, nofun⟩
  have hm : .closed s.now ∈ s.log ++ [.passed conn] ++ [.closed s.now] := mem_concat_self
  exact
    { permitted := by
        refine always_snoc.mpr ⟨always_snoc.mpr ⟨h.permitted, hc, hun, hsh⟩, ?_⟩
        exact .inr (.inr ⟨conn, hp, hdec.1⟩)
      place := ⟨⟨s.now, hm⟩, hdec.closed s.now⟩
      deadline := by
        change callDeadline (s.log ++ [.passed conn] ++ [.closed s.now]) = s.deadline
        rw [callDeadline_snoc, callDeadline_snoc]
        exact h.deadline
      stops := by
        change .stopping ∈ s.log ++ [.passed conn] ++ [.closed s.now] ↔ _
        rw [hlo]
        exact ⟨fun hs => h.stops.mp (mem_of_quiet hq id hs), fun hs =>
          mem_append_left _ (h.stops.mpr hs)⟩
      conns := fun other ho => by
        change .accepted other ∈ s.log ++ [.passed conn] ++ [.closed s.now] at ho
        rw [hlo] at ho
        exact h.conns other (mem_of_quiet hq id ho)
      shut := fun other ho => by
        change .shut other ∈ s.log ++ [.passed conn] ++ [.closed s.now] at ho
        rw [hlo] at ho
        exact h.shut other (mem_of_quiet hq id ho)
      acted := fun _ => .inr rfl
      flag := h.flag
      pending := h.pending
      gone := fun _ => ⟨s.now, hm⟩
      spent := fun _ => .inl ⟨s.now, hm⟩
      ended := fun _ _ _ => rfl
      held := nofun
      handed := fun _ _ => rfl
      decided := nofun }

theorem advance : WindowsInv s.advance := by
  have hpl := h.place
  have hh := h.held
  unfold WindowsListener.advance
  generalize hl : s.loop = loop at hpl hh ⊢
  cases loop with
  | top =>
    dsimp only
    by_cases hsrv : s.server = true
    · rw [if_neg (not_not.mpr hsrv)]
      split_ifs with hs
      · exact h.stop_closing hs
      · exact h.goto .clock hpl nofun nofun nofun
    · rw [if_pos hsrv]
      exact h.found_spent (.inl (h.gone (eq_false_of_ne_true hsrv)))
  | clock =>
    dsimp only
    split_ifs with hrch
    · exact h.elapsed_closing (elapsed_of_reached hrch)
    · exact h.goto .accept hpl nofun nofun nofun
  | accepted conn =>
    dsimp only
    split_ifs with hs
    · exact h.stop_closing hs
    · exact h.goto (.window conn) hpl (fun _ => hh rfl) nofun nofun
  | window conn =>
    cases hw : peerHandshakeWindow s.config.horizon s.now s.deadline s.config.limit with
    | none => exact h.elapsed_closing (peerHandshakeWindow_none s.config.limit_pos hw)
    | some window =>
      obtain ⟨timeout, until_⟩ := window
      obtain ⟨hst, hli, hdl⟩ := peerHandshakeWindow_spec hw
      refine h.noteGoto (.windowed conn s.now until_) (.options conn until_) trivial
        ⟨hpl, hst, hli, by rw [h.deadline]; exact hdl⟩ ⟨?_, ?_⟩
        (fun _ => hh rfl) nofun nofun
      · rw [current_snoc]
        exact hpl
      · exact ⟨s.now, until_, mem_concat_self⟩
  | refused conn err =>
    dsimp only
    split_ifs with hs hti
    · exact h.stop_closing hs
    · exact h.goto (.refusedClock conn err) hpl (fun _ => hh rfl) nofun nofun
    · exact h.reject hpl _
  | refusedClock conn err =>
    dsimp only
    split_ifs with hrch
    · exact h.elapsed_closing (elapsed_of_reached hrch)
    · exact h.reject hpl _
  | checkStop conn =>
    dsimp only
    split_ifs with hs
    · exact h.stop_closing hs
    · exact h.goto (.checkClock conn) hpl (fun _ => hh rfl) nofun nofun
  | checkClock conn =>
    dsimp only
    split_ifs with hrch
    · exact h.elapsed_closing (elapsed_of_reached hrch)
    · exact h.goto (.consume conn) ⟨hpl.1, hpl.2.before (eq_false_of_ne_true hrch)⟩
        (fun _ => hh rfl) nofun nofun
  | consume conn =>
    dsimp only
    split_ifs with hca
    · exact h.stop_closing (h.flag hca)
    · exact h.consume hl (eq_false_of_ne_true hca)
  | leaving admission => exact h.finish hl
  | retry | publish | idle | accept | options | clone | handshake | closing => exact h

theorem accepted (hcu : current s.log = none) (hc : s.consumed = false) :
    WindowsInv (({ s with
      nextConn := s.nextConn + 1
      connection := some s.nextConn }.note (.accepted s.nextConn)).goto (.accepted s.nextConn)) := by
  have hf : .accepted s.nextConn ∉ s.log := fun hm => (h.conns s.nextConn hm).false
  exact
    { permitted := always_snoc.mpr ⟨h.permitted, hcu, hf⟩
      place := by
        change current (s.log ++ _) = some s.nextConn
        rw [current_snoc]
        rfl
      deadline := by
        change callDeadline (s.log ++ _) = s.deadline
        rw [callDeadline_snoc]
        exact h.deadline
      stops := ⟨fun hm => h.stops.mp (mem_of_snoc hm nofun), fun hs =>
        mem_append_left _ (h.stops.mpr hs)⟩
      conns := fun conn hm => by
        rcases mem_snoc.mp hm with hb | he
        · exact Nat.lt_succ_of_lt (h.conns conn hb)
        · cases he
          exact Nat.lt_succ_self _
      shut := fun conn hm => h.shut conn (mem_of_snoc hm nofun)
      acted := fun hm => h.acted (mem_of_snoc hm nofun)
      flag := h.flag
      pending := h.pending
      gone := fun hsrv => by
        obtain ⟨time, hcl⟩ := h.gone hsrv
        exact ⟨time, mem_append_left _ hcl⟩
      spent := fun hsp => absurd (hc.symm.trans hsp) Bool.false_ne_true
      ended := fun conn time hm => h.ended conn time (mem_of_snoc hm nofun)
      held := fun _ => hc
      handed := nofun
      decided := nofun }

theorem ended_instance (hh : s.loop.holding = false)
    (hsp : (∃ time, .closed time ∈ s.log) ∨ .hostFailed ∈ s.log) :
    WindowsInv { s with consumed := true } :=
  { h with
    acted := fun _ => .inr rfl
    spent := fun _ => hsp
    ended := fun _ _ _ => rfl
    held := fun he => absurd (hh.symm.trans he) Bool.false_ne_true
    handed := fun _ _ => rfl }

theorem closed {admission : BootstrapAdmission} {ok : Bool} (hl : s.loop = .closing admission)
    (hdec : Decided s.config s.log s.now s.deadline admission) :
    WindowsInv (if ok then
        ({ { s with consumed := true } with server := false }.note (.closed s.now)).goto
          (.leaving (some admission))
      else ({ s with consumed := true }.note .hostFailed).goto (.leaving none)) := by
  have hne : ∀ conn, admission ≠ .authenticated conn := by
    rintro conn rfl
    exact h.decided conn hl
  split_ifs with hok
  · have hm : .closed s.now ∈ s.log ++ [.closed s.now] := mem_concat_self
    have hcl := h.noteGoto (.closed s.now) (.leaving (some admission)) trivial
      (hdec.closes h.deadline) ⟨⟨s.now, hm⟩, hdec.closed s.now⟩ nofun
      (fun conn heq => hne conn (by cases heq; rfl)) nofun
    have he := hcl.ended_instance rfl (.inl ⟨s.now, hm⟩)
    exact { he with gone := fun _ => ⟨s.now, hm⟩ }
  · exact h.failed.ended_instance rfl (.inr mem_concat_self)

/-- A cancel notes something, and only its flags and counts change. -/
theorem beside {s' : WindowsListener} (fact : AdmitFact) (hbes : fact.Beside)
    (hl : s'.log = s.log ++ [fact]) (hco : s'.config = s.config) (hnow : s'.now = s.now)
    (hdl : s'.deadline = s.deadline) (hlo : s'.loop = s.loop)
    (hsrv : s'.server = s.server) (hc : s'.consumed = s.consumed)
    (hconn : s'.nextConn = s.nextConn) (hca : s.cancelled = true → s'.cancelled = true)
    (hsh : ∀ conn, fact = .shut conn → s'.cancelled = true ∧ s.consumed = false)
    (hac : fact = .cancelled → s'.cancelled = true ∨ s.consumed = true)
    (hs : s'.stopping = true) (hst : .stopping ∈ s'.log)
    (hp : AdmitPermitted s.config s.log fact) : WindowsInv s' := by
  have ho : ∀ {other : AdmitFact}, other ≠ fact → other ∈ s'.log → other ∈ s.log := by
    intro other hot hm
    rw [hl] at hm
    exact mem_of_snoc hm hot
  exact
    { permitted := by
        rw [hl, hco, always_snoc]
        exact ⟨h.permitted, hp⟩
      place := by
        rw [hl, hco, hnow, hdl, hlo]
        refine h.place.beside hbes fun conn hre he => ?_
        rcases hre with hclg | hle
        · exact h.decided conn hclg
        · have hsp := h.handed conn hle
          rw [(hsh conn he).2] at hsp
          cases hsp
      deadline := by
        rw [hl, hdl, callDeadline_snoc, hbes.bounds]
        exact h.deadline
      stops := ⟨fun _ => hs, fun _ => hst⟩
      conns := fun conn hm => by
        rw [hconn]
        refine h.conns conn (ho ?_ hm)
        rintro rfl
        cases hbes
      shut := fun conn hm => by
        rw [hl] at hm
        rcases mem_snoc.mp hm with hb | hla
        · exact hca (h.shut conn hb)
        · exact (hsh conn hla.symm).1
      acted := fun hm => by
        rw [hl] at hm
        rw [hc]
        rcases mem_snoc.mp hm with hb | hla
        · exact (h.acted hb).imp hca id
        · exact hac hla.symm
      flag := fun _ => hs
      pending := fun _ => hs
      gone := fun hg => by
        rw [hsrv] at hg
        obtain ⟨time, hcl⟩ := h.gone hg
        rw [hl]
        exact ⟨time, mem_append_left _ hcl⟩
      spent := fun hsp => by
        rw [hc] at hsp
        rw [hl]
        exact spent_append (h.spent hsp) _
      ended := fun conn time hm => by
        rw [hc]
        exact h.ended conn time (ho (fun he => hbes.ne_returned he.symm) hm)
      held := fun hh => by
        rw [hc]
        exact h.held (hlo ▸ hh)
      handed := fun conn hha => by
        rw [hc]
        exact h.handed conn (hlo ▸ hha)
      decided := fun conn hclg => h.decided conn (hlo ▸ hclg) }

theorem acts : WindowsInv (s.step .cancelAct) := by
  unfold WindowsListener.step
  by_cases hn : s.acting = 0
  · rw [if_pos hn]
    exact h
  rw [if_neg hn]
  have hs := h.pending (Nat.pos_of_ne_zero hn)
  have hst := h.stops.mpr hs
  by_cases hc : s.consumed = true
  · rw [if_pos hc]
    exact h.beside .cancelled trivial rfl rfl rfl rfl rfl rfl rfl rfl id nofun
      (fun _ => .inr hc) hs (mem_append_left _ hst) hst
  rw [if_neg hc]
  have hun := eq_false_of_ne_true hc
  cases s.connection with
  | none =>
    exact h.beside .cancelled trivial rfl rfl rfl rfl rfl rfl rfl rfl (fun _ => rfl)
      nofun (fun _ => .inl rfl) hs (mem_append_left _ hst) hst
  | some conn =>
    have hsh : WindowsInv ({ s with
        acting := s.acting - 1
        cancelled := true }.note (.shut conn)) := by
      refine h.beside (.shut conn) trivial rfl rfl rfl rfl rfl rfl rfl rfl (fun _ => rfl)
        (fun _ _ => ⟨rfl, hun⟩) nofun hs
        (mem_append_left _ hst) ⟨hst, fun time hm => ?_⟩
      exact hc (h.ended conn time hm)
    have hst' := hsh.stops.mpr hs
    exact hsh.beside .cancelled trivial rfl rfl rfl rfl rfl rfl rfl rfl (fun _ => rfl)
      nofun (fun _ => .inl rfl) hs (mem_append_left _ hst')
      hst'

theorem step (event : WindowsEvent) : WindowsInv (s.step event) := by
  have hpl := h.place
  have hh := h.held
  unfold WindowsListener.step
  cases event with
  | tick elapsed => exact { h with place := hpl.tick (Nat.le_add_right ..) }
  | call deadline =>
    dsimp only
    split_ifs with hi
    · rw [hi] at hpl
      exact h.marks ⟨nofun, nofun, nofun, nofun⟩ hpl (by rw [current_snoc]; rfl)
        (by rw [callDeadline_snoc]; rfl) nofun (.inr rfl)
    · exact h
  | advance => exact h.advance
  | acceptUntil outcome =>
    dsimp only
    by_cases hac : s.loop = .accept
    · rw [hac] at hpl
      rw [if_neg (not_not.mpr hac)]
      by_cases hc : s.consumed = true
      · rw [if_pos hc]
        exact h.found_spent (h.spent hc)
      rw [if_neg hc]
      have hcnd := h.accepted hpl (eq_false_of_ne_true hc)
      cases outcome with
      | ready => exact hcnd
      | peerClosed => exact hcnd.reject hcnd.place _
      | cancelled =>
        dsimp only
        split_ifs with hca
        · exact h.stop_closing (h.flag hca)
        · exact h
      | deadlineElapsed =>
        dsimp only
        split_ifs with hrch
        · exact h.elapsed_closing (elapsed_of_reached hrch)
        · exact h
      | failed => exact h.failed
    · rw [if_pos hac]
      exact h
  | openStream ok =>
    dsimp only
    split
    · rename_i conn until_ hl
      rw [hl] at hpl hh
      split_ifs with hok
      · exact h.goto (.handshake conn until_) hpl (fun _ => hh rfl) nofun nofun
      · exact h.failed
    · exact h
  | handshake env link =>
    dsimp only
    split
    · rename_i conn until_ hl
      rw [hl] at hpl hh
      split
      · rename_i link' hd
        obtain ⟨hbeg, hw⟩ := handshake_completed hd
        refine h.noteGoto (.answered conn link link' s.now) (.checkStop conn) trivial
          ⟨hpl.1, hpl.2, hbeg, hw⟩ ⟨?_, ?_⟩ (fun _ => hh rfl)
          nofun nofun
        · rw [current_snoc]
          exact hpl.1
        · exact ⟨link, link', s.now, mem_concat_self, le_rfl⟩
      · rename_i link' hd
        obtain ⟨load, hlo⟩ := handshake_stopped hd
        exact h.stop_closing (Bool.and_eq_true_iff.mp hlo).1
      · exact h.goto (.refused conn _) hpl.1 (fun _ => hh rfl) nofun nofun
      · exact h
    · exact h
  | closeTerminal ok =>
    dsimp only
    split
    · rename_i admission hl
      rw [hl] at hpl
      exact h.closed hl hpl
    · exact h
  | disconnect ok =>
    dsimp only
    split
    · rename_i hl
      rw [hl] at hpl
      split_ifs with hc hok
      · exact h.found_spent (h.spent hc)
      · have htop := h.goto .top hpl nofun nofun nofun
        exact { htop with }
      · exact h.failed
    · exact h
  | cancelStop =>
    exact h.beside .stopping trivial rfl rfl rfl rfl rfl rfl rfl rfl id nofun
      nofun rfl mem_concat_self trivial
  | cancelAct => exact h.acts

end

end WindowsInv

theorem run_windowsInv (config : AdmitConfig) (events : List WindowsEvent) :
    WindowsInv (WindowsListener.run config events) := by
  induction events using reverseRecOn with
  | nil =>
    exact
      { permitted := always_nil _
        place := rfl
        deadline := rfl
        stops := ⟨nofun, nofun⟩
        conns := nofun
        shut := nofun
        acted := nofun
        flag := nofun
        pending := nofun
        gone := nofun
        spent := nofun
        ended := nofun
        held := nofun
        handed := nofun
        decided := nofun }
  | append_singleton events event ih =>
    rw [show WindowsListener.run config (events ++ [event]) =
      (WindowsListener.run config events).step event from foldl_append ..]
    exact ih.step event

end Keld.Ipc
