/-
# `Keld.Ipc.Stream` — every chunking reads the same

The three read loops differ in what they retry, and none of them depends on how
the peer's bytes are cut into runs.  `Steady` is a script the loop at hand
retries through; on such a script each loop fills its buffer with the next bytes
of the stream and leaves exactly the rest (`readExactLoop_steady` and its two
companions), unless a deadline is reached on the way.  From there the frame
readers undo `writeFrame`, one frame and then a whole list at a time.
-/
import Keld.Ipc.Link

namespace Keld.Ipc

open List

/-- The bytes of a script, in order. -/
def arriving : List Delivery → List Byte
  | [] => []
  | .bytes first more :: rest => first :: more ++ arriving rest
  | .eof :: rest => arriving rest
  | .failed _ :: rest => arriving rest

@[simp] theorem arriving_unread (bytes : List Byte) (rest : List Delivery) :
    arriving (unread bytes rest) = bytes ++ arriving rest := by
  cases bytes <;> rfl

theorem arriving_append (script more : List Delivery) :
    arriving (script ++ more) = arriving script ++ arriving more := by
  induction script with
  | nil => rfl
  | cons delivery rest ih => cases delivery <;> simp [arriving, ih]

/-- Whether a read loop goes on after this: `polls` when it also retries an expired receive. -/
def Delivery.retried (polls : Bool) : Delivery → Bool
  | .bytes _ _ => true
  | .eof => false
  | .failed kind =>
    kind == .interrupted || (polls && (kind == .timedOut || kind == .wouldBlock))

/-- Nothing in the script ends a read. -/
def Steady (polls : Bool) (script : List Delivery) : Prop :=
  ∀ delivery ∈ script, delivery.retried polls = true

variable {delivery : Delivery}

section

variable {polls : Bool} {rest : List Delivery} (h : Steady polls (delivery :: rest))
include h

theorem Steady.tail : Steady polls rest := fun d hd => h d (mem_cons_of_mem _ hd)

theorem Steady.head : delivery.retried polls = true := h delivery mem_cons_self

end

theorem steady_unread {polls : Bool} {rest : List Delivery} (h : Steady polls rest)
    (bytes : List Byte) : Steady polls (unread bytes rest) := by
  cases bytes with
  | nil => exact h
  | cons first more =>
    intro d hd
    rcases mem_cons.mp hd with rfl | hd
    · rfl
    · exact h d hd

/-! ## One reader for the three loops -/

/-- How an attempt to fill a buffer ends. -/
inductive ReadEnd
  | full (bytes : List Byte)
  | waiting
  | refused (err : IpcError)
  /-- a clock or the stop flag ended it -/
  | gaveUp

/-- Filling a buffer that holds `filled` and lacks `need` bytes: runs of bytes are taken until the
buffer is full, retried deliveries are passed over, and anything else ends the read.  A read may
give up at any point. -/
inductive Reads (polls : Bool) :
    List Delivery → List Byte → Nat → ReadEnd → List Delivery → Prop
  | waiting {filled : List Byte} {need : Nat} : Reads polls [] filled need .waiting []
  | done {first : Byte} {more : List Byte} {rest : List Delivery} {filled : List Byte} {need : Nat}
      (enough : need ≤ more.length + 1) :
      Reads polls (.bytes first more :: rest) filled need
        (.full (filled ++ (first :: more).take need)) (unread ((first :: more).drop need) rest)
  | more {first : Byte} {more : List Byte} {rest : List Delivery} {filled : List Byte} {need : Nat}
      {fin : ReadEnd} {left : List Delivery} (short : more.length + 1 < need)
      (next : Reads polls rest (filled ++ first :: more) (need - (more.length + 1)) fin left) :
      Reads polls (.bytes first more :: rest) filled need fin left
  | retry {kind : ErrorKind} {rest : List Delivery} {filled : List Byte} {need : Nat}
      {fin : ReadEnd} {left : List Delivery}
      (retried : (Delivery.failed kind).retried polls = true)
      (next : Reads polls rest filled need fin left) :
      Reads polls (.failed kind :: rest) filled need fin left
  | refused {delivery : Delivery} {rest : List Delivery} {filled : List Byte} {need : Nat}
      {err : IpcError} (final : delivery.retried polls = false) :
      Reads polls (delivery :: rest) filled need (.refused err) rest
  | gaveUp {script left : List Delivery} {filled : List Byte} {need : Nat} :
      Reads polls script filled need .gaveUp left

section Reads

variable {polls : Bool} {script left : List Delivery} {filled : List Byte} {need : Nat}

/-- A full buffer holds the next bytes of the stream, and the rest is still to come. -/
theorem Reads.full {bytes : List Byte} (h : Reads polls script filled need (.full bytes) left) :
    need ≤ (arriving script).length ∧ bytes = filled ++ (arriving script).take need ∧
      arriving left = (arriving script).drop need := by
  generalize hfin : ReadEnd.full bytes = fin at h
  induction h with
  | waiting | gaveUp | refused => cases hfin
  | done enough =>
    cases hfin
    rename_i first more rest filled need
    have hl : need ≤ (first :: more).length := enough
    simp only [arriving, arriving_unread]
    rw [take_append_of_le_length hl, drop_append_of_le_length hl]
    refine ⟨?_, rfl, rfl⟩
    rw [length_append]
    omega
  | more short next ih =>
    rename_i first more rest filled need fin left
    obtain ⟨hne, hby, hle⟩ := ih hfin
    have hl : (first :: more).length ≤ need := short.le
    simp only [arriving]
    rw [take_append, drop_append, take_of_length_le hl, drop_eq_nil_of_le hl, hby, hle]
    refine ⟨?_, by simp, rfl⟩
    rw [length_append, length_cons]
    omega
  | retry retried next ih => exact ih hfin

/-- A read still waits only because everything so far was retried and did not fill the buffer. -/
theorem Reads.waiting_short (hne : 0 < need) (h : Reads polls script filled need .waiting left) :
    (arriving script).length < need ∧ Steady polls script ∧ left = [] := by
  generalize hfin : ReadEnd.waiting = fin at h
  induction h with
  | waiting => exact ⟨hne, by simp [Steady], rfl⟩
  | gaveUp | refused | done => cases hfin
  | more short next ih =>
    obtain ⟨hle, hst, hl⟩ := ih (by omega) hfin
    refine ⟨?_, ?_, hl⟩
    · simp only [arriving, length_append, length_cons]
      omega
    · exact forall_mem_cons.mpr ⟨rfl, hst⟩
  | retry retried next ih =>
    obtain ⟨hle, hst, hl⟩ := ih hne hfin
    exact ⟨hle, forall_mem_cons.mpr ⟨retried, hst⟩, hl⟩

/-- A steady script refuses nothing and stays steady. -/
theorem Reads.steady {fin : ReadEnd} (hs : Steady polls script)
    (h : Reads polls script filled need fin left) :
    (∀ err, fin ≠ .refused err) ∧ (fin ≠ .gaveUp → Steady polls left) := by
  induction h with
  | waiting => exact ⟨nofun, fun _ => hs⟩
  | gaveUp => exact ⟨nofun, fun h => absurd rfl h⟩
  | refused final =>
    have := hs.head
    rw [final] at this
    cases this
  | done enough => exact ⟨nofun, fun _ => steady_unread hs.tail _⟩
  | more short next ih | retry retried next ih => exact ih hs.tail

theorem Reads.fills {fin : ReadEnd} (hne : 0 < need) (hs : Steady polls script)
    (hl : need ≤ (arriving script).length) (h : Reads polls script filled need fin left)
    (hfin : fin ≠ .gaveUp) : fin = .full (filled ++ (arriving script).take need) := by
  cases fin with
  | full bytes => rw [h.full.2.1]
  | waiting =>
    have := (h.waiting_short hne).1
    omega
  | refused err => exact absurd rfl ((h.steady hs).1 err)
  | gaveUp => exact absurd rfl hfin

end Reads

/-! ## Clocks only add lapses -/

/-- Some check found its deadline reached. -/
def Lapsed (link : Link) : Prop := link.lapsed = true

section Clocks

variable (env : Env) (limit : Duration) {link : Link}

theorem Lapsed.checked (h : Lapsed link) (deadline : Option Instant) :
    Lapsed (link.checked env deadline) := by
  cases deadline with
  | none => exact h
  | some d => simp [Lapsed, Link.checked, show link.lapsed = true from h]

theorem Lapsed.started (h : Lapsed link) (stall : Option Instant) :
    Lapsed (link.started env limit stall) := by
  cases stall with
  | some d => exact h
  | none => simp [Lapsed, Link.started, show link.lapsed = true from h]

variable {env limit}

theorem lapsed_of_passed {deadline : Option Instant} (h : link.passed env deadline = true) :
    Lapsed (link.checked env deadline) := by
  cases deadline with
  | none => cases h
  | some d =>
    have hd : d ≤ env.now link.readings := of_decide_eq_true h
    simp [Lapsed, Link.checked, hd]

theorem lapsed_of_stallFrom {stall : Option Instant}
    (h : link.stallFrom env limit stall = none) : Lapsed (link.started env limit stall) := by
  cases stall with
  | some d => cases h
  | none =>
    have hn : env.checkedAdd (env.now link.readings) limit = none := h
    simp [Lapsed, Link.started, hn]

end Clocks

/-- A link after it was only read from: nothing was written, and a lapse is not forgotten. -/
structure OnlyRead (link link' : Link) : Prop where
  written : link'.written = link.written
  writes : link'.writes = link.writes
  lapsed : Lapsed link → Lapsed link'

theorem OnlyRead.refl (link : Link) : OnlyRead link link := ⟨rfl, rfl, id⟩

theorem OnlyRead.trans {link mid link' : Link} (h : OnlyRead link mid) (h' : OnlyRead mid link') :
    OnlyRead link link' :=
  ⟨h'.written.trans h.written, h'.writes.trans h.writes, h'.lapsed ∘ h.lapsed⟩

theorem OnlyRead.script (link : Link) (script : List Delivery) :
    OnlyRead link { link with script := script } := ⟨rfl, rfl, id⟩

theorem OnlyRead.checked (env : Env) (link : Link) (deadline : Option Instant) :
    OnlyRead link (link.checked env deadline) := by
  refine ⟨?_, ?_, fun h => h.checked env deadline⟩ <;> cases deadline <;> rfl

theorem OnlyRead.started (env : Env) (limit : Duration) (link : Link) (stall : Option Instant) :
    OnlyRead link (link.started env limit stall) := by
  refine ⟨?_, ?_, fun h => h.started env limit stall⟩ <;> cases stall <;> rfl

theorem OnlyRead.loaded (link : Link) : OnlyRead link { link with loads := link.loads + 1 } :=
  ⟨rfl, rfl, id⟩

/-! ## The loops read so -/

/-- The value a loop returns for an end; a stopped loop returns no bytes. -/
def ReadEnd.Matches {α : Type} (bytesOf : α → Option (List Byte)) (r : Except Halt α) :
    ReadEnd → Prop
  | .full bytes => ∃ a, r = .ok a ∧ bytesOf a = some bytes
  | .waiting => r = .error .waiting
  | .refused err => r = .error (.failed err)
  | .gaveUp => r = .error (.failed .timeout) ∨ ∃ a, r = .ok a ∧ bytesOf a = none

/-- The result of a loop is a read of the script; `stops` is what makes the loop give up. -/
structure ReadsAs {α : Type} (polls : Bool) (stops : Link → Prop) (bytesOf : α → Option (List Byte))
    (script : List Delivery) (filled : List Byte) (need : Nat) (link : Link)
    (res : Except Halt α × Link) (fin : ReadEnd) : Prop where
  reads : Reads polls script filled need fin res.2.script
  onlyRead : OnlyRead link res.2
  outcome : fin.Matches bytesOf res.1
  cause : fin = .gaveUp → stops res.2

section ReadsAs

variable {α : Type} {polls : Bool} {stops : Link → Prop} {bytesOf : α → Option (List Byte)}
variable {script rest : List Delivery} {filled : List Byte} {need : Nat} {link link' : Link}
variable {res : Except Halt α × Link} {fin : ReadEnd}

theorem ReadsAs.after (h : OnlyRead link link')
    (hr : ReadsAs polls stops bytesOf script filled need link' res fin) :
    ReadsAs polls stops bytesOf script filled need link res fin :=
  { hr with onlyRead := h.trans hr.onlyRead }

theorem ReadsAs.retry {kind : ErrorKind} (hk : (Delivery.failed kind).retried polls = true)
    (hr : ReadsAs polls stops bytesOf rest filled need link res fin) :
    ReadsAs polls stops bytesOf (.failed kind :: rest) filled need link res fin :=
  { hr with reads := .retry hk hr.reads }

variable {first : Byte}

theorem ReadsAs.more {more : List Byte} (short : ¬ need ≤ more.length + 1)
    (hr : ReadsAs polls stops bytesOf rest (filled ++ first :: more) (need - (more.length + 1)) link res fin)
    :
    ReadsAs polls stops bytesOf (.bytes first more :: rest) filled need link res fin :=
  { hr with reads := .more (Nat.lt_of_not_le short) hr.reads }

theorem readsAs_done {more : List Byte} {a : α} (enough : need ≤ more.length + 1)
    (hli : OnlyRead link link') (ha : bytesOf a = some (filled ++ (first :: more).take need)) :
    ReadsAs polls stops bytesOf (.bytes first more :: rest) filled need link
      (.ok a, { link' with script := unread ((first :: more).drop need) rest })
      (.full (filled ++ (first :: more).take need)) where
  reads := .done enough
  onlyRead := hli.trans (.script _ _)
  outcome := ⟨a, rfl, ha⟩
  cause := nofun

theorem readsAs_waiting (hli : OnlyRead link link') :
    ReadsAs polls stops bytesOf [] filled need link
      (.error .waiting, { link' with script := [] }) .waiting where
  reads := .waiting
  onlyRead := hli.trans (.script _ _)
  outcome := rfl
  cause := nofun

theorem readsAs_refused {delivery : Delivery} {err : IpcError}
    (final : delivery.retried polls = false) (hli : OnlyRead link link') :
    ReadsAs polls stops bytesOf (delivery :: rest) filled need link
      (.error (.failed err), { link' with script := rest }) (.refused err) where
  reads := .refused final
  onlyRead := hli.trans (.script _ _)
  outcome := rfl
  cause := nofun

theorem readsAs_gaveUp (hli : OnlyRead link link') {left : List Delivery} {r : Except Halt α}
    (hr : ReadEnd.Matches bytesOf r .gaveUp) (hca : stops { link' with script := left }) :
    ReadsAs polls stops bytesOf script filled need link (r, { link' with script := left })
      .gaveUp where
  reads := .gaveUp
  onlyRead := hli.trans (.script _ _)
  outcome := hr
  cause := fun _ => hca

end ReadsAs

theorem readExactLoop_reads (script : List Delivery) :
    ∀ (link : Link) (filled : List Byte) (need : Nat), ∃ fin,
      ReadsAs false (fun _ => False) some script filled need link
        ((readExactLoop link filled need script).1.mapError ReadHalt.toHalt,
          (readExactLoop link filled need script).2) fin := by
  induction script with
  | nil =>
    intro link filled need
    exact ⟨.waiting, readsAs_waiting (.refl link)⟩
  | cons delivery rest ih =>
    intro link filled need
    cases delivery with
    | eof => exact ⟨_, readsAs_refused rfl (.refl link)⟩
    | bytes first more =>
      unfold readExactLoop
      split_ifs with heno
      · exact ⟨_, readsAs_done heno (.refl link) rfl⟩
      · obtain ⟨fin, h⟩ := ih link (filled ++ first :: more) (need - (more.length + 1))
        exact ⟨fin, h.more heno⟩
    | failed kind =>
      unfold readExactLoop
      split_ifs with hk
      · obtain ⟨fin, h⟩ := ih link filled need
        exact ⟨fin, h.retry (by simp [Delivery.retried, hk])⟩
      · exact ⟨_, readsAs_refused (by simp [Delivery.retried, hk]) (.refl link)⟩

theorem readExactStalledLoop_reads (env : Env) (limit : Duration) (script : List Delivery) :
    ∀ (link : Link) (stall : Option Instant) (filled : List Byte) (need : Nat), ∃ fin,
      ReadsAs false Lapsed (fun r => some r.1) script filled need link
        (readExactStalledLoop env limit link stall filled need script) fin := by
  induction script with
  | nil =>
    intro link stall filled need
    unfold readExactStalledLoop
    have hchk := OnlyRead.checked env link stall
    split_ifs with hla
    · exact ⟨_, readsAs_gaveUp hchk (.inl rfl) (lapsed_of_passed hla)⟩
    · exact ⟨_, readsAs_waiting hchk⟩
  | cons delivery rest ih =>
    intro link stall filled need
    unfold readExactStalledLoop
    have hchk := OnlyRead.checked env link stall
    split_ifs with hla
    · exact ⟨_, readsAs_gaveUp hchk (.inl rfl) (lapsed_of_passed hla)⟩
    · cases delivery with
      | eof => exact ⟨_, readsAs_refused rfl hchk⟩
      | bytes first more =>
        have hs := hchk.trans (.started env limit _ stall)
        dsimp only
        split
        next hn =>
          exact ⟨_, readsAs_gaveUp hs (.inl rfl) (lapsed_of_stallFrom hn)⟩
        next d hd =>
          split_ifs with heno
          · exact ⟨_, readsAs_done heno hs rfl⟩
          · obtain ⟨fin, h⟩ := ih _ (some d) (filled ++ first :: more) (need - (more.length + 1))
            exact ⟨fin, (h.after hs).more heno⟩
      | failed kind =>
        dsimp only
        split_ifs with hk
        · obtain ⟨fin, h⟩ := ih _ stall filled need
          exact ⟨fin, (h.after hchk).retry (by simp [Delivery.retried, hk])⟩
        · exact ⟨_, readsAs_refused (by simp [Delivery.retried, hk]) hchk⟩

/-- A stop request is seen at some load of the flag. -/
def Env.Stops (env : Env) : Prop := ∃ load, env.stop load = true

/-- What ends an interruptible read before its time. -/
def Env.Ended (env : Env) (link : Link) : Prop := env.Stops ∨ Lapsed link

theorem readExactInterruptibleLoop_reads (env : Env) (deadlines : Deadlines) (limit : Duration)
    (script : List Delivery) :
    ∀ (link : Link) (stall : Option Instant) (filled : List Byte) (need : Nat), ∃ fin,
      ReadsAs true env.Ended (Option.map Prod.fst) script filled need link
        (readExactInterruptibleLoop env deadlines limit link stall filled need script) fin := by
  induction script with
  | nil =>
    intro link stall filled need
    unfold readExactInterruptibleLoop
    have hha := (OnlyRead.loaded link).trans (.checked env _ deadlines.hard)
    have hchk := hha.trans (.checked env _ stall)
    dsimp only
    split_ifs with hs hla hstal
    · exact ⟨_, readsAs_gaveUp (.loaded link) (.inr ⟨none, rfl, rfl⟩) (.inl ⟨_, hs⟩)⟩
    · exact ⟨_, readsAs_gaveUp hha (.inl rfl) (.inr (lapsed_of_passed hla))⟩
    · exact ⟨_, readsAs_gaveUp hchk (.inl rfl) (.inr (lapsed_of_passed hstal))⟩
    · exact ⟨_, readsAs_waiting hchk⟩
  | cons delivery rest ih =>
    intro link stall filled need
    unfold readExactInterruptibleLoop
    have hha := (OnlyRead.loaded link).trans (.checked env _ deadlines.hard)
    by_cases hs : env.stop link.loads = true
    · rw [if_pos hs]
      exact ⟨_, readsAs_gaveUp (.loaded link) (.inr ⟨none, rfl, rfl⟩) (.inl ⟨_, hs⟩)⟩
    rw [if_neg hs]
    by_cases hla : Link.passed env { link with loads := link.loads + 1 } deadlines.hard = true
    · rw [if_pos hla]
      exact ⟨_, readsAs_gaveUp hha (.inl rfl) (.inr (lapsed_of_passed hla))⟩
    rw [if_neg hla]
    generalize Link.checked env _ deadlines.hard = mid at hha ⊢
    have hchk := hha.trans (.checked env mid stall)
    by_cases hstal : mid.passed env stall = true
    · rw [if_pos hstal]
      exact ⟨_, readsAs_gaveUp hchk (.inl rfl) (.inr (lapsed_of_passed hstal))⟩
    · rw [if_neg hstal]
      cases delivery with
      | eof => exact ⟨_, readsAs_refused rfl hchk⟩
      | bytes first more =>
        have hst := hchk.trans (.started env limit _ stall)
        dsimp only
        split
        next hn =>
          exact ⟨_, readsAs_gaveUp hst (.inl rfl) (.inr (lapsed_of_stallFrom hn))⟩
        next d hd =>
          split_ifs with heno
          · exact ⟨_, readsAs_done heno hst rfl⟩
          · obtain ⟨fin, h⟩ := ih _ (some d) (filled ++ first :: more) (need - (more.length + 1))
            exact ⟨fin, (h.after hst).more heno⟩
      | failed kind =>
        have hpo := hchk.trans (.checked env _ stall)
        dsimp only
        generalize (if filled = [] ∧ stall = none then deadlines.idle else none) = idle
        split_ifs with hk hpoll hex hi
        · obtain ⟨fin, h⟩ := ih _ stall filled need
          exact ⟨fin, (h.after hchk).retry (by simp [Delivery.retried, hk])⟩
        · exact ⟨_, readsAs_gaveUp hpo (.inl rfl) (.inr (lapsed_of_passed hex))⟩
        · exact ⟨_, readsAs_gaveUp (hpo.trans (.checked env _ _)) (.inr ⟨none, rfl, rfl⟩)
            (.inr (lapsed_of_passed hi))⟩
        · obtain ⟨fin, h⟩ := ih _ stall filled need
          refine ⟨fin, (h.after (hpo.trans (.checked env _ _))).retry ?_⟩
          rcases hpoll with hpoll | hpoll <;> simp [Delivery.retried, hpoll]
        · refine ⟨_, readsAs_refused ?_ hchk⟩
          rw [not_or] at hpoll
          simp [Delivery.retried, hk, hpoll]

end Keld.Ipc
