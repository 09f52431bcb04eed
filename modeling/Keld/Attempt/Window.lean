/-
# `Keld.Attempt.Window` — when the health window passes

A wait is decided by the quiet reads in front of its script and by the first
reading of the clock at or after the window's end.  While the readings are
earlier, quiet reads only lead to the next read (`decideLoop_quiet`); then one of
four things ends the wait: the clock (`decideLoop_end`), a read that was not quiet
(`decideLoop_loud`), a read that has not returned, or, before any read, a clock that
is already past the end.

The law puts these together.  It asks nothing of the clock; where the clock never
goes back, a reading before the end says that all readings before it were.
-/
import Keld.Attempt.HealthSafety

namespace Keld.Attempt

open List OwnerChannel HealthWindow

open Ipc (Instant Duration Env ErrorKind Link Delivery)

/-- A read that reported nothing but the passing of its deadline. -/
def Quiet (delivery : Delivery) : Prop := ∃ kind, delivery = .failed kind ∧ isDeadline kind = true

theorem observe_quiet {delivery : Delivery} (h : Quiet delivery) (rest : List Delivery) :
    observe delivery rest = (.ok .deadlineElapsed, rest) := by
  obtain ⟨kind, rfl, hk⟩ := h
  unfold observe
  dsimp only
  rw [if_pos hk]

variable {env : Env} {window : HealthWindow} {exited : Except ErrorKind Bool}

/-- The link behind reads that were all quiet. -/
def behind (link : Link) (reads : Nat) (rest : List Delivery) : Link :=
  { link with script := rest, readings := link.readings + reads }

variable {link : Link} {front rest : List Delivery}

/-- Quiet reads that return before the end lead to the next read. -/
theorem decideLoop_quiet (hscr : link.script = front ++ rest)
    (hq : ∀ delivery ∈ front, Quiet delivery)
    (hb : ∀ i < front.length, env.now (link.readings + i) < window.ends) :
    decideLoop env window exited link (.read window.ends) (front ++ rest) =
      decideLoop env window exited (behind link front.length rest) (.read window.ends) rest := by
  induction front generalizing link with
  | nil =>
    have hs : behind link 0 rest = link := by
      rw [behind, ← show link.script = rest from hscr]
      rfl
    rw [length_nil, hs]
    rfl
  | cons delivery front ih =>
    obtain ⟨hf, hfr⟩ := forall_mem_cons.mp hq
    have hnow : env.now link.readings < window.ends := hb 0 (Nat.zero_lt_succ _)
    have hst : window.afterRead .deadlineElapsed (env.now link.readings) =
        .read window.ends := if_pos hnow
    rw [cons_append, decideLoop, observe_quiet hf]
    dsimp only
    rw [hst]
    refine (ih rfl hfr fun i hi => ?_).trans ?_
    · have hl := hb (i + 1) (Nat.succ_lt_succ hi)
      rwa [← Nat.add_assoc, Nat.add_right_comm] at hl
    · have hs : behind { link with script := front ++ rest, readings := link.readings + 1 }
          front.length rest = behind link (delivery :: front).length rest := by
        rw [behind, behind, length_cons, Nat.add_assoc, Nat.add_comm 1]
      rw [hs]

/-- The first read that returns at or after the end is followed by the launch query alone. -/
theorem decideLoop_end {last : Delivery} (hscr : link.script = front ++ last :: rest)
    (hq : ∀ delivery ∈ front, Quiet delivery) (hl : Quiet last)
    (hb : ∀ i < front.length, env.now (link.readings + i) < window.ends)
    (he : window.ends ≤ env.now (link.readings + front.length)) :
    decideLoop env window exited link (.read window.ends) (front ++ last :: rest) =
      ((launchOutcome exited).mapError .failed, behind link (front.length + 1) rest) := by
  rw [decideLoop_quiet hscr hq hb, decideLoop, observe_quiet hl]
  have hs : window.afterRead .deadlineElapsed
      (env.now (behind link front.length (last :: rest)).readings) = .checkLaunch :=
    if_neg (Nat.not_lt.mpr he)
  dsimp only
  rw [hs]
  cases rest <;> rfl

theorem decideLoop_refuse (link : Link) (failure : AttemptHealthWindowFailure)
    (script : List Delivery) :
    decideLoop env window exited link (.refuse failure) script =
      (.error (.failed (.healthWindow failure none)), link) := by
  cases script <;> rfl

/-- A read that was not quiet refuses, whenever it returns. -/
theorem decideLoop_loud {loud : Delivery} (hscr : link.script = front ++ loud :: rest)
    (hq : ∀ delivery ∈ front, Quiet delivery) (hlo : ¬ Quiet loud)
    (hb : ∀ i < front.length, env.now (link.readings + i) < window.ends) :
    ∃ err link', decideLoop env window exited link (.read window.ends)
      (front ++ loud :: rest) = (.error (.failed err), link') ∧
      link'.script = (observe loud rest).2 := by
  rw [decideLoop_quiet hscr hq hb, decideLoop]
  cases loud with
  | bytes | eof =>
    dsimp only [observe, afterRead]
    rw [decideLoop_refuse]
    exact ⟨_, _, rfl, rfl⟩
  | failed kind =>
    have hk : isDeadline kind = false := by
      rw [Bool.eq_false_iff]
      exact fun h => hlo ⟨kind, rfl, h⟩
    dsimp only [observe]
    rw [hk]
    exact ⟨_, _, rfl, rfl⟩

theorem decideLoop_waiting (hscr : link.script = front) (hq : ∀ delivery ∈ front, Quiet delivery)
    (hb : ∀ i < front.length, env.now (link.readings + i) < window.ends) :
    decideLoop env window exited link (.read window.ends) front =
      (.error .waiting, behind link front.length []) := by
  have ha : decideLoop env window exited link (.read window.ends) (front ++ []) =
      decideLoop env window exited (behind link front.length []) (.read window.ends) [] :=
    decideLoop_quiet (hscr.trans (append_nil front).symm) hq hb
  rwa [append_nil] at ha

/-- How a wait that has begun can go. -/
theorem course (env : Env) (window : HealthWindow) (script : List Delivery) :
    ∀ reading, (∃ front last rest, script = front ++ last :: rest ∧
        (∀ delivery ∈ front, Quiet delivery) ∧ Quiet last ∧
        (∀ i < front.length, env.now (reading + i) < window.ends) ∧
        window.ends ≤ env.now (reading + front.length)) ∨
      (∃ front loud rest, script = front ++ loud :: rest ∧
        (∀ delivery ∈ front, Quiet delivery) ∧ ¬ Quiet loud ∧
        ∀ i < front.length, env.now (reading + i) < window.ends) ∨
      ((∀ delivery ∈ script, Quiet delivery) ∧
        ∀ i < script.length, env.now (reading + i) < window.ends) := by
  induction script with
  | nil => exact fun _ => .inr (.inr ⟨nofun, nofun⟩)
  | cons delivery script ih =>
    intro reading
    by_cases hq : Quiet delivery
    · rcases Nat.lt_or_ge (env.now reading) window.ends with hnow | he
      · -- one more quiet read in front of whatever follows
        have hc : ∀ {front : List Delivery},
            (∀ i < front.length, env.now (reading + 1 + i) < window.ends) →
              ∀ i < (delivery :: front).length, env.now (reading + i) < window.ends := by
          intro front hfr i hi
          cases i with
          | zero => exact hnow
          | succ i =>
            have hl := hfr i (Nat.lt_of_succ_lt_succ hi)
            rwa [Nat.add_right_comm, Nat.add_assoc] at hl
        rcases ih (reading + 1) with ⟨front, last, rest, rfl, hfr, hla, hb, he⟩ |
          ⟨front, loud, rest, rfl, hfr, hlo, hb⟩ | ⟨ha, hb⟩
        · refine .inl ⟨delivery :: front, last, rest, rfl,
            forall_mem_cons.mpr ⟨hq, hfr⟩, hla, hc hb, ?_⟩
          rwa [length_cons, Nat.add_comm front.length, ← Nat.add_assoc]
        · exact .inr (.inl ⟨delivery :: front, loud, rest, rfl,
            forall_mem_cons.mpr ⟨hq, hfr⟩, hlo, hc hb⟩)
        · exact .inr (.inr ⟨forall_mem_cons.mpr ⟨hq, ha⟩, hc hb⟩)
      · exact .inl ⟨[], delivery, script, rfl, nofun, hq, nofun, he⟩
    · exact .inr (.inl ⟨[], delivery, script, rfl, nofun, hq, nofun⟩)

/-! ## The wait -/

section Wait

variable {channel : OwnerChannel} {margin : Duration} {readAt : Instant}

/-- The link after the clock was read once. -/
def begun (link : Link) : Link := { link with readings := link.readings + 1 }

theorem awaitHealthWindow_eq (hphase : channel.phase = .ready readAt)
    (hwindow : afterReady env readAt margin = .ok window) :
    awaitHealthWindow env margin channel =
      settle { channel with queries := channel.queries + 1 } (fun _ => .healthy)
        (decideLoop env window (channel.pin.hasExited channel.queries)
          (begun channel.link) (window.begin (env.now channel.link.readings))
          channel.link.script) := by
  unfold awaitHealthWindow
  rw [hphase]
  dsimp only
  unfold decideHealth
  rw [hwindow]
  rfl

theorem afterReady_error {failure : AttemptHealthWindowFailure}
    (h : afterReady env readAt margin = .error failure) :
    failure = .unrepresentable := by
  unfold afterReady ofLength at h
  split_ifs at h
  · split at h
    · cases h
    · cases h
      rfl
  · cases h
    rfl

/-- The clock was before the end when the wait began, and has passed it behind these reads. -/
structure Ends (env : Env) (window : HealthWindow) (link : Link) (front rest : List Delivery) :
    Prop where
  script : link.script = front ++ rest
  some : front ≠ []
  quiet : ∀ delivery ∈ front, Quiet delivery
  before : ∀ i < front.length, env.now (link.readings + i) < window.ends
  ended : window.ends ≤ env.now (link.readings + front.length)

variable {front rest : List Delivery}

/-- The wait reads up to the end and not behind it, and then asks for the process. -/
theorem await_ends (hphase : channel.phase = .ready readAt)
    (hwindow : afterReady env readAt margin = .ok window)
    (h : Ends env window channel.link front rest) :
    awaitHealthWindow env margin channel =
      settle { channel with queries := channel.queries + 1 } (fun _ => .healthy)
        ((launchOutcome (channel.pin.hasExited channel.queries)).mapError .failed,
          behind (begun channel.link) front.length rest) := by
  obtain ⟨init, last, rfl⟩ : ∃ init last, front = init ++ [last] :=
    ⟨front.dropLast, front.getLast h.some, (dropLast_concat_getLast h.some).symm⟩
  have hscr : channel.link.script = init ++ last :: rest := by
    rw [h.script, append_assoc, singleton_append]
  have hl : (init ++ [last]).length = init.length + 1 := by
    rw [length_append, length_singleton]
  have hnow : env.now channel.link.readings < window.ends :=
    h.before 0 (by rw [hl]; exact Nat.zero_lt_succ _)
  have hbg : window.begin (env.now channel.link.readings) = .read window.ends := if_pos hnow
  rw [awaitHealthWindow_eq hphase hwindow, hbg, hscr]
  have he := h.ended
  rw [hl, Nat.add_comm init.length, ← Nat.add_assoc] at he
  have hbe : ∀ i < init.length, env.now ((begun channel.link).readings + i) < window.ends := by
    intro i hi
    have hla := h.before (i + 1) (by rw [hl]; exact Nat.succ_lt_succ hi)
    rwa [Nat.add_comm i, ← Nat.add_assoc] at hla
  have hb : (begun channel.link).script = init ++ last :: rest := hscr
  have hin : ∀ delivery ∈ init, Quiet delivery :=
    fun delivery hd => h.quiet delivery (mem_append_left _ hd)
  have hlast : Quiet last := h.quiet last mem_concat_self
  rw [decideLoop_end hb hin hlast hbe he, hl]

theorem launchOutcome_ok {exited : Except ErrorKind Bool} :
    launchOutcome exited = .ok () ↔ exited = .ok false := by
  rcases exited with source | _ | _
  · exact iff_of_false nofun nofun
  · exact iff_of_true rfl rfl
  · exact iff_of_false nofun (by decide)

theorem settle_outcome {channel : OwnerChannel} {next : Unit → OwnerPhase}
    {r : Except ExchangeError Unit} {link : Link} :
    ((channel.settle next (r.mapError .failed, link)).1 = .ok () ↔ r = .ok ()) ∧
      (r ≠ .ok () → ∃ err, (channel.settle next (r.mapError .failed, link)).1 =
        .error (.failed err)) ∧
      (channel.settle next (r.mapError .failed, link)).2.link = link := by
  rcases r with err | ⟨⟩
  · exact ⟨iff_of_false nofun nofun, fun _ => ⟨err, rfl⟩, rfl⟩
  · exact ⟨iff_of_true rfl rfl, fun h => absurd rfl h, rfl⟩

/-- A read that was not quiet, with the clock before the end when it was begun. -/
structure Loud (env : Env) (window : HealthWindow) (link : Link) (front : List Delivery)
    (loud : Delivery) (rest : List Delivery) : Prop where
  script : link.script = front ++ loud :: rest
  quiet : ∀ delivery ∈ front, Quiet delivery
  loud : ¬ Quiet loud
  before : ∀ i ≤ front.length, env.now (link.readings + i) < window.ends

section

variable (hphase : channel.phase = .ready readAt)
  (hwindow : afterReady env readAt margin = .ok window)
include hphase hwindow

theorem await_loud {loud : Delivery} (h : Loud env window channel.link front loud rest) :
    (∃ err, (awaitHealthWindow env margin channel).1 = .error (.failed err)) ∧
      (awaitHealthWindow env margin channel).2.link.script = (observe loud rest).2 := by
  have hbg : window.begin (env.now channel.link.readings) = .read window.ends :=
    if_pos (h.before 0 (Nat.zero_le _))
  have hbe : ∀ i < front.length, env.now ((begun channel.link).readings + i) < window.ends := by
    intro i hi
    have hl := h.before (i + 1) hi
    rwa [Nat.add_comm i, ← Nat.add_assoc] at hl
  have hb : (begun channel.link).script = front ++ loud :: rest := h.script
  obtain ⟨err, link', hlo, hle⟩ : ∃ err link', decideLoop env window
      (channel.pin.hasExited channel.queries) (begun channel.link) (.read window.ends)
      (front ++ loud :: rest) = (.error (.failed err), link') ∧
      link'.script = (observe loud rest).2 :=
    decideLoop_loud hb h.quiet h.loud hbe
  rw [awaitHealthWindow_eq hphase hwindow, hbg, h.script, hlo]
  exact ⟨⟨err, rfl⟩, hle⟩

/-- A wait that passes was one that reached the end, with the process running. -/
theorem await_ok (hnow : env.now channel.link.readings < window.ends)
    (hp : (awaitHealthWindow env margin channel).1 = .ok ()) :
    ∃ front rest, Ends env window channel.link front rest ∧
      channel.pin.hasExited channel.queries = .ok false := by
  -- the readings behind the first one, counted from the first one
  have hfrom : ∀ {n : Nat}, (∀ i < n, env.now (channel.link.readings + 1 + i) < window.ends) →
      ∀ i ≤ n, env.now (channel.link.readings + i) < window.ends := by
    intro n hl i hi
    cases i with
    | zero => exact hnow
    | succ i =>
      have hi' := hl i hi
      rwa [Nat.add_assoc, Nat.add_comm 1] at hi'
  rcases course env window channel.link.script (channel.link.readings + 1) with
    ⟨front, last, rest, hscr, hfr, hla, hb, hen⟩ |
    ⟨front, loud, rest, hscr, hfr, hlo, hb⟩ | ⟨ha, hb⟩
  · have he : Ends env window channel.link (front ++ [last]) rest := by
      have hle : (front ++ [last]).length = front.length + 1 := by
        rw [length_append, length_singleton]
      refine ⟨?_, append_ne_nil_of_right_ne_nil _ (cons_ne_nil _ _), ?_, ?_, ?_⟩
      · rw [hscr, append_assoc, singleton_append]
      · intro delivery hd
        rcases mem_snoc.mp hd with hd | hd
        · exact hfr delivery hd
        · rwa [hd]
      · intro i hi
        rw [hle] at hi
        exact hfrom hb i (Nat.le_of_lt_succ hi)
      · rwa [hle, Nat.add_comm front.length, ← Nat.add_assoc]
    rw [await_ends hphase hwindow he] at hp
    exact ⟨_, rest, he, launchOutcome_ok.mp (settle_outcome.1.mp hp)⟩
  · obtain ⟨⟨err, her⟩, -⟩ := await_loud hphase hwindow ⟨hscr, hfr, hlo, hfrom hb⟩
    rw [her] at hp
    cases hp
  · have hbe : window.begin (env.now channel.link.readings) = .read window.ends := if_pos hnow
    rw [awaitHealthWindow_eq hphase hwindow, hbe,
      decideLoop_waiting (show (begun channel.link).script = channel.link.script from rfl) ha
        hb] at hp
    cases hp

end

/-- The wait for the health window passes exactly when the window can be represented, the clock
was before its end when the wait began and at every read up to the end, all those reads were
quiet, and the process runs when the end is reached.  Nothing is read behind the end; a read
that was not quiet refuses whenever it returns, and so do a wait begun too late and a window
without an end. -/
theorem health_window_law (env : Env) (margin : Duration) {channel : OwnerChannel}
    {readAt : Instant} (hphase : channel.phase = .ready readAt) :
    ((awaitHealthWindow env margin channel).1 = .ok () ↔
      ∃ window front rest, afterReady env readAt margin = .ok window ∧
        Ends env window channel.link front rest ∧
        channel.pin.hasExited channel.queries = .ok false) ∧
    (∀ window front rest, afterReady env readAt margin = .ok window →
      Ends env window channel.link front rest →
      (awaitHealthWindow env margin channel).2.link.script = rest ∧
      (channel.pin.hasExited channel.queries ≠ .ok false →
        ∃ err, (awaitHealthWindow env margin channel).1 = .error (.failed err))) ∧
    (∀ window front loud rest, afterReady env readAt margin = .ok window →
      Loud env window channel.link front loud rest →
      (∃ err, (awaitHealthWindow env margin channel).1 = .error (.failed err)) ∧
      (awaitHealthWindow env margin channel).2.link.script =
        (observe loud rest).2) ∧
    (∀ window, afterReady env readAt margin = .ok window →
      window.ends ≤ env.now channel.link.readings →
      (awaitHealthWindow env margin channel).1 =
        .error (.failed (.healthWindow .notObserved none)) ∧
      (awaitHealthWindow env margin channel).2.link.script = channel.link.script) ∧
    ((∀ window, afterReady env readAt margin ≠ .ok window) →
      (awaitHealthWindow env margin channel).1 =
        .error (.failed (.healthWindow .unrepresentable none)) ∧
      (awaitHealthWindow env margin channel).2.link = channel.link) := by
  have hla : ∀ window, afterReady env readAt margin = .ok window →
      window.ends ≤ env.now channel.link.readings →
      (awaitHealthWindow env margin channel).1 =
        .error (.failed (.healthWindow .notObserved none)) ∧
      (awaitHealthWindow env margin channel).2.link.script =
        channel.link.script := by
    intro window hwindow hen
    have hbe : window.begin (env.now channel.link.readings) = .refuse .notObserved :=
      if_neg (Nat.not_lt.mpr hen)
    rw [awaitHealthWindow_eq hphase hwindow, hbe, decideLoop_refuse]
    exact ⟨rfl, rfl⟩
  have hn : (∀ window, afterReady env readAt margin ≠ .ok window) →
      (awaitHealthWindow env margin channel).1 =
        .error (.failed (.healthWindow .unrepresentable none)) ∧
      (awaitHealthWindow env margin channel).2.link = channel.link := by
    intro hno
    rcases hr : afterReady env readAt margin with failure | window
    · obtain rfl := afterReady_error hr
      unfold awaitHealthWindow
      rw [hphase]
      dsimp only
      unfold decideHealth
      rw [hr]
      exact ⟨rfl, rfl⟩
    · exact absurd hr (hno window)
  refine ⟨⟨fun hp => ?_, ?_⟩, ?_, ?_, hla, hn⟩
  · rcases hr : afterReady env readAt margin with failure | window
    · rw [(hn fun window h => by rw [hr] at h; cases h).1] at hp
      cases hp
    · rcases Nat.lt_or_ge (env.now channel.link.readings) window.ends with hnow | hen
      · obtain ⟨front, rest, he, hru⟩ := await_ok hphase hr hnow hp
        exact ⟨window, front, rest, rfl, he, hru⟩
      · rw [(hla window hr hen).1] at hp
        cases hp
  · rintro ⟨window, front, rest, hwindow, he, hru⟩
    rw [await_ends hphase hwindow he]
    exact settle_outcome.1.mpr (launchOutcome_ok.mpr hru)
  · intro window front rest hwindow he
    rw [await_ends hphase hwindow he]
    exact ⟨congrArg Link.script settle_outcome.2.2, fun hex =>
      settle_outcome.2.1 fun h => hex (launchOutcome_ok.mp h)⟩
  · exact fun window front loud rest hwindow hlo => await_loud hphase hwindow hlo

end Wait

/-! ## A small case -/

/-- Three silent reads of a wait begun two seconds before its end; the last returns at the end. -/
def silentChannel : OwnerChannel :=
  ⟨Link.fresh (List.replicate 3 (.failed .timedOut)), ⟨7, 1, fun _ => .ok false⟩,
    ⟨quietId, quietId, quietId, quietNonce, quietNonce, 7, 9⟩, .ready 0, 0⟩

/-- A clock read once a second, twenty-eight seconds after Ready. -/
def secondsEnv : Env :=
  ⟨fun reading => (28 + reading) * 1000000000, 2 ^ 64, fun _ => false, fun _ => none⟩

theorem health_window_law_silent :
    (awaitHealthWindow secondsEnv 0 silentChannel).1 = .ok () ∧
      ∃ window front rest, afterReady secondsEnv 0 0 = .ok window ∧
        Ends secondsEnv window silentChannel.link front rest ∧
        silentChannel.pin.hasExited silentChannel.queries = .ok false :=
  have hp : (awaitHealthWindow secondsEnv 0 silentChannel).1 = .ok () := by
    decide +kernel
  ⟨hp, (health_window_law secondsEnv 0 rfl).1.mp hp⟩

end Keld.Attempt
