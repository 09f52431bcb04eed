/-
# `Keld.Strict.Readiness` — the readiness gate of a strict launch

Bubblewrap is started with the pipe on which the launcher reports its Landlock layer.
The parent's loop reads the pipe, polls the child and looks at the clock; launcher,
target and clock move between any two of these calls, and a `Turn` is what the three
meet.  A target that exits before the end of the stream is read makes the poll refuse
a record that was complete (`shortLived_refused`); `readiness_law` says when none does.
-/
import Keld.Strict.Command

namespace Keld.Strict.Readiness

open List

inductive LinuxLandlockStatus
  | fullyEnforced
  | partiallyEnforced
  | notImplemented
deriving DecidableEq, Repr

def launcherReadyMax : ℕ := 64
def launcherReadyFull : List Byte := utf8 "KLS1 landlock=fully-enforced\n"
def launcherReadyPartial : List Byte := utf8 "KLS1 landlock=partially-enforced\n"
def launcherReadyUnavailable : List Byte := utf8 "KLS1 landlock=not-implemented\n"

/-- `BUBBLEWRAP_READY_TIMEOUT` in milliseconds. -/
def bubblewrapReadyTimeout : ℕ := 10000

def parseLauncherReady (record : List Byte) : Except String LinuxLandlockStatus :=
  if record = launcherReadyFull then .ok .fullyEnforced
  else if record = launcherReadyPartial then .ok .partiallyEnforced
  else if record = launcherReadyUnavailable then .ok .notImplemented
  else .error s!"invalid readiness record length {record.length}"

/-- What the launcher writes. -/
def recordOf : LinuxLandlockStatus → List Byte
  | .fullyEnforced => launcherReadyFull
  | .partiallyEnforced => launcherReadyPartial
  | .notImplemented => launcherReadyUnavailable

theorem parseLauncherReady_ok {record : List Byte} {status : LinuxLandlockStatus} :
    parseLauncherReady record = .ok status ↔ record = recordOf status := by
  constructor
  · intro h
    unfold parseLauncherReady at h
    split_ifs at h with hfu hpa hun <;> cases h
    · exact hfu
    · exact hpa
    · exact hun
  · rintro rfl
    cases status <;> decide +kernel

theorem recordOf_short (status : LinuxLandlockStatus) :
    (recordOf status).length ≤ launcherReadyMax := by
  cases status <;> decide +kernel

/-! ## The loop -/

/-- How a read ends: with at most so many bytes where there are some, or with an error. -/
inductive Read
  | upTo (count : ℕ)
  | interrupted
  | failed (source : String)

structure Turn where
  /-- written to the pipe since the last read -/
  arrived : List Byte
  /-- no writer is left at the read -/
  closed : Bool
  read : Read
  /-- the status with which the child has exited by the poll -/
  tryWait : Except String (Option String)
  /-- milliseconds since the loop began, where it looks at the clock -/
  now : ℕ
  /-- what `failed_child_stderr` reads -/
  stderr : String

/-- What was written to the pipe, and whether its end has come. -/
structure Stream where
  written : List Byte := []
  closed : Bool := false

def Stream.arrive (s : Stream) (t : Turn) : Stream :=
  if s.closed then s else ⟨s.written ++ t.arrived, t.closed⟩

inductive Child
  | running
  /-- reaped, or never started -/
  | gone
deriving DecidableEq

/-- The loop's answer and what it leaves of the child. -/
abbrev Ended := Except LinuxStrictError LinuxLandlockStatus × Child

/-- The child is killed and waited for, or the poll has reaped it. -/
def refused (text : String) : Option Ended :=
  some (.error (.new "launcher readiness" text), .gone)

def failedReadiness (t : Turn) (detail : String) : Option Ended :=
  refused s!"{detail}; stderr: {t.stderr}"

/-- The record after a read, and the answer where there is one. -/
def readRecord (s : Stream) (record : List Byte) (t : Turn) : List Byte × Option Ended :=
  match t.read with
  | .interrupted => (record, none)
  | .failed source => (record, failedReadiness t source)
  | .upTo count =>
    let pending := s.written.drop record.length
    if pending = [] then
      if s.closed then
        match parseLauncherReady record with
        | .ok status => (record, some (.ok status, .running))
        | .error detail => (record, failedReadiness t detail)
      else (record, none)
    else
      let record := record ++ pending.take (max 1 (min count launcherReadyMax))
      if record.length > launcherReadyMax then
        (record, failedReadiness t s!"record exceeds {launcherReadyMax} bytes")
      else (record, none)

/-- The poll and the check of the deadline. -/
def poll (t : Turn) : Option Ended :=
  match t.tryWait with
  | .error source => refused source
  | .ok (some status) =>
    refused s!"Bubblewrap exited with {status} before post-Landlock readiness; stderr: {t.stderr}"
  | .ok none =>
    if t.now ≥ bubblewrapReadyTimeout then
      failedReadiness t "post-Landlock readiness did not arrive before the deadline"
    else none

def waitForLauncherReady (s : Stream) (record : List Byte) : List Turn → Option Ended
  | [] => none
  | t :: turns =>
    let (record, ended) := readRecord (s.arrive t) record t
    match ended <|> poll t with
    | some ended => some ended
    | none => waitForLauncherReady (s.arrive t) record turns

/-- `spawn`, where `started` is what Bubblewrap's own start gives. -/
def spawn (started : Except String Unit) (turns : List Turn) : Option Ended :=
  match started with
  | .error source => some (.error (.new "Bubblewrap spawn" source), .gone)
  | .ok () => waitForLauncherReady {} [] turns

/-! ## One turn -/

/-- The child has not exited at the poll, nor has the deadline passed at the check. -/
def Turn.Early (t : Turn) : Prop := t.tryWait = .ok none ∧ t.now < bubblewrapReadyTimeout

variable {s : Stream} {record : List Byte} {t : Turn} {turns : List Turn}
  {status : LinuxLandlockStatus}

/-- The read meets the end of the stream. -/
def MeetsEnd (s : Stream) (record : List Byte) (t : Turn) : Prop :=
  (∃ count, t.read = .upTo count) ∧ record = s.written ∧ s.closed = true

inductive Reads (s : Stream) (record : List Byte) (t : Turn) : List Byte × Option Ended → Prop
  | more (next : List Byte) (hnext : next <+: s.written) (h : ∀ source, t.read ≠ .failed source)
      (hend : ¬ MeetsEnd s record t) : Reads s record t (next, none)
  | ready (status : LinuxLandlockStatus) (h : MeetsEnd s record t)
      (hrecord : record = recordOf status) : Reads s record t (record, some (.ok status, .running))
  | refused (next : List Byte) (hnext : next <+: s.written) (text : String)
      (h : (∃ source, t.read = .failed source) ∨ launcherReadyMax < next.length ∨
        MeetsEnd s record t ∧ ∀ status, record ≠ recordOf status) :
      Reads s record t (next, refused text)

theorem reads (h : record <+: s.written) : Reads s record t (readRecord s record t) := by
  unfold readRecord
  cases hr : t.read with
  | interrupted => exact .more _ h (by simp [hr]) (by simp [MeetsEnd, hr])
  | failed source => exact .refused _ h _ (.inl ⟨source, hr⟩)
  | upTo count =>
    obtain ⟨pending, hp⟩ := h
    have hn (n : ℕ) : record ++ pending.take n <+: s.written :=
      ⟨pending.drop n, by rw [append_assoc, take_append_drop, hp]⟩
    have he : MeetsEnd s record t ↔ pending = [] ∧ s.closed = true := by
      simp [MeetsEnd, hr, ← hp]
    simp only [← hp, drop_left]
    split_ifs with hni hcl hl
    · have hme := he.mpr ⟨hni, hcl⟩
      cases hpa : parseLauncherReady record with
      | ok status => exact .ready status hme (parseLauncherReady_ok.mp hpa)
      | error detail =>
        refine .refused _ ⟨pending, hp⟩ _ (.inr (.inr ⟨hme, fun status hre => ?_⟩))
        rw [parseLauncherReady_ok.mpr hre] at hpa
        cases hpa
    · exact .more _ ⟨pending, hp⟩ (by simp [hr]) fun hm => hcl (he.mp hm).2
    · exact .refused _ (hn _) _ (.inr (.inl hl))
    · exact .more _ (hn _) (by simp [hr]) fun hm => hni (he.mp hm).1

theorem poll_cases (t : Turn) :
    t.Early ∧ poll t = none ∨ ¬ t.Early ∧ ∃ text, poll t = refused text := by
  unfold poll Turn.Early
  split
  next source h => exact .inr ⟨by simp [h], _, rfl⟩
  next status h => exact .inr ⟨by simp [h], _, rfl⟩
  next h =>
    split_ifs with hla
    · exact .inr ⟨fun hea => absurd hla (not_le.mpr hea.2), _, rfl⟩
    · exact .inl ⟨⟨h, not_le.mp hla⟩, rfl⟩

/-! ## Runs of the loop -/

theorem arrive_closed (h : s.closed = true) (turns : List Turn) :
    turns.foldl Stream.arrive s = s := by
  induction turns with
  | nil => rfl
  | cons t turns ih => rw [foldl_cons, Stream.arrive, if_pos h, ih]

theorem written_stream (s : Stream) (turns : List Turn) :
    s.written <+: (turns.foldl Stream.arrive s).written := by
  induction turns generalizing s with
  | nil => exact prefix_rfl
  | cons t turns ih =>
    refine IsPrefix.trans ?_ (ih (s.arrive t))
    unfold Stream.arrive
    split_ifs
    · exact prefix_rfl
    · exact prefix_append ..

/-- A read meets the end of the stream before any call fails, any poll finds that the child has
exited and any check that the deadline has passed. -/
def Timely : Stream → List Byte → List Turn → Prop
  | _, _, [] => False
  | s, record, t :: turns =>
    (∀ source, t.read ≠ .failed source) ∧ (MeetsEnd (s.arrive t) record t ∨
      t.Early ∧ Timely (s.arrive t) (readRecord (s.arrive t) record t).1 turns)

/-- What is said of the answer in these turns; `s` is the pipe after them. -/
structure ReadinessLaw (s : Stream) (turns : List Turn) (timely : Prop) (answer : Option Ended) :
    Prop where
  exact : ∀ status child, answer = some (.ok status, child) →
    s.closed = true ∧ s.written = recordOf status
  reaped : ∀ e child, answer = some (.error e, child) → child = .gone
  finishes : (∃ t ∈ turns, bubblewrapReadyTimeout ≤ t.now) → answer ≠ none
  ready : ∀ status, s.closed = true → s.written = recordOf status →
    (answer = some (.ok status, .running) ↔ timely)

variable {timely : Prop}

theorem lawful_refusal (e : LinuxStrictError)
    (h : timely → s.closed = true → ∀ status, s.written ≠ recordOf status) :
    ReadinessLaw s turns timely (some (.error e, .gone)) where
  exact := nofun
  reaped := by rintro _ _ ⟨⟩; rfl
  finishes := fun _ => nofun
  ready status hcl hw := iff_of_false nofun fun ht => h ht hcl status hw

theorem lawful_answer (h : timely) (hcl : s.closed = true) (hw : s.written = recordOf status) :
    ReadinessLaw s turns timely (some (.ok status, .running)) where
  exact := by rintro _ _ ⟨⟩; exact ⟨hcl, hw⟩
  reaped := nofun
  finishes := fun _ => nofun
  ready found _ hf := by
    have hpa := parseLauncherReady_ok.mpr (hw.symm.trans hf)
    rw [parseLauncherReady_ok.mpr rfl] at hpa
    cases hpa
    exact iff_of_true rfl h

theorem wait_law (h : record <+: s.written) :
    ReadinessLaw (turns.foldl Stream.arrive s) turns (Timely s record turns)
      (waitForLauncherReady s record turns) := by
  induction turns generalizing s record with
  | nil => exact ⟨nofun, nofun, by simp, fun _ _ _ => iff_of_false nofun id⟩
  | cons t turns ih =>
    have hr : Reads (s.arrive t) record t (readRecord (s.arrive t) record t) :=
      reads (h.trans (written_stream s [t]))
    unfold waitForLauncherReady Timely
    rw [foldl_cons]
    generalize readRecord (s.arrive t) record t = read at hr ⊢
    cases hr with
    | more next hn hre he =>
      rw [and_iff_right hre, or_iff_right he]
      rcases poll_cases t with ⟨hea, hpo⟩ | ⟨hla, text, hpo⟩ <;> simp only [hpo]
      · rw [and_iff_right hea]
        refine { ih hn with finishes := ?_ }
        rintro ⟨late, hm, hla⟩
        rcases mem_cons.mp hm with rfl | hm
        · exact absurd hla (not_le.mpr hea.2)
        · exact (ih hn).finishes ⟨late, hm, hla⟩
      · exact lawful_refusal _ fun hp => absurd hp.1 hla
    | ready status hme hrec =>
      rw [arrive_closed hme.2.2]
      refine lawful_answer ⟨fun source hf => ?_, .inl hme⟩ hme.2.2 (hme.2.1 ▸ hrec)
      exact nomatch hf.symm.trans hme.1.choose_spec
    | refused next hn text hp =>
      refine lawful_refusal _ fun hti hcl status hw => ?_
      rcases hp with ⟨source, hf⟩ | hl | ⟨hme, hne⟩
      · exact hti.1 source hf
      · have hsh := (hn.trans (written_stream _ turns)).length_le
        rw [hw] at hsh
        exact absurd (hsh.trans (recordOf_short status)) (not_le.mpr hl)
      · rw [arrive_closed hme.2.2, ← hme.2.1] at hw
        exact hne status hw

/-- The pipe after these turns. -/
def stream (turns : List Turn) : Stream := turns.foldl Stream.arrive {}

theorem readiness_law (started : Except String Unit) (turns : List Turn) :
    ReadinessLaw (stream turns) turns (started = .ok () ∧ Timely {} [] turns)
      (spawn started turns) := by
  cases started with
  | error source => exact lawful_refusal _ nofun
  | ok =>
    rw [and_iff_right rfl]
    exact wait_law prefix_rfl

/-- The record is read, and the target exits before the loop has met the end of the stream. -/
def shortLived : List Turn :=
  [⟨launcherReadyFull, true, .upTo 64, .ok (some "exit status: 0"), 1, ""⟩]

theorem shortLived_refused :
    (stream shortLived).closed = true ∧ (stream shortLived).written = recordOf .fullyEnforced ∧
      (∀ t ∈ shortLived, t.now < bubblewrapReadyTimeout) ∧
        (spawn (.ok ()) shortLived).map (fun ended => ended.1.isOk) = some false := by
  decide +kernel

end Keld.Strict.Readiness
