/-
# `Keld.Fs.WriteLaw` — what the answer of a write says of its effects

Whatever the calls return and the looks find: a write that answers anything but
`WriteEffect` has changed nothing; one that answers `WriteEffect` reports the
bytes that were acknowledged, and they are a front of the request; one that
succeeds has written the request to the file that it truncated or created.

A run is followed from check to check.  Up to the first effect `Told` holds of
every way to stop because nothing happened, and from there on because what was
written is counted; that the written bytes and the rest are the request is the
invariant of the loop.
-/
import Keld.Fs.Write
import Keld.Fs.Confinement

namespace Keld.Fs

open List Writing Proc FsBroker

open Guard (Text Platform Principal)

/-! ## What a run did -/

def Effect.data : Effect → List Byte
  | .wrote _ bytes => bytes
  | _ => []

/-- Everything that was written, in order. -/
def content (effects : List Effect) : List Byte := effects.flatMap Effect.data

theorem content_append (effects : List Effect) (effect : Effect) :
    content (effects ++ [effect]) = content effects ++ effect.data := by
  rw [content, flatMap_append, flatMap_singleton]
  rfl

/-- The effect by which a file is opened for the content. -/
inductive Opens : WalkResult → Object → Effect → Prop
  | existing (file : Object) : Opens (.file file) file (.truncated file)
  | missing (parent : Object) (leaf : Text) (file : Object) :
      Opens (.missing parent leaf) file (.created parent leaf file)

/-- A file was opened, and everything after that was written to it. -/
inductive Writes (resolved : WalkResult) (file : Object) : List Effect → Prop
  | opens {effect : Effect} : Opens resolved file effect → Writes resolved file [effect]
  | wrote {effects : List Effect} (bytes : List Byte) : Writes resolved file effects →
      Writes resolved file (effects ++ [.wrote file bytes])

theorem Opens.data {resolved : WalkResult} {file : Object} {effect : Effect}
    (h : Opens resolved file effect) : effect.data = [] := by
  cases h <;> rfl

/-- What an error says interrupted the write. -/
def WriteError.interruption : WriteError → Option WriteInterruption
  | .fs .cancelled => some .cancelled
  | .fs .deadline => some .deadline
  | .io source => some (.io source)
  | .writeEffect cause .. => some cause
  | _ => none

theorem interruption_interrupted (effected : Bool) (committed requested : ℕ)
    (cause : WriteInterruption) :
    (interrupted effected committed requested cause).interruption = some cause := by
  cases effected with
  | true => rfl
  | false => cases cause <;> rfl

/-! ## Answers -/

/-- No check so far found anything. -/
def Clear (run : WriteRun) : Prop := ∀ check ∈ run.checks, check.cause = none

/-- What an answer says of the effects. -/
def Told (Full : List Effect → Prop) (bytes : List Byte) : Except WriteError Unit × WriteRun → Prop
  | (.ok (), run) => Full run.effects
  | (.error (.writeEffect _ committed requested), run) =>
    committed = (content run.effects).length ∧ requested = bytes.length ∧
      content run.effects <+: bytes
  | (.error _, run) => run.effects = []

/-- What a check finds is what the write answers. -/
def Answered (r : Except WriteError Unit × WriteRun) : Prop :=
  ∀ check ∈ r.2.checks, ∀ cause, check.cause = some cause →
    ∃ err, r.1 = .error err ∧ err.interruption = some cause

structure Sound (Full : List Effect → Prop) (bytes : List Byte)
    (r : Except WriteError Unit × WriteRun) : Prop where
  told : Told Full bytes r
  answered : Answered r

theorem Clear.checked {run : WriteRun} {check : Check} (h : Clear run) (hn : check.cause = none) :
    Clear (run.checked check) := by
  intro other ho
  rcases mem_snoc.mp ho with ho | rfl
  · exact h other ho
  · exact hn

theorem Clear.answered {run : WriteRun} (h : Clear run) (result : Except WriteError Unit) :
    Answered (result, run) := by
  intro check hch cause hca
  rw [h check hch] at hca
  cases hca

theorem Clear.stopped {run : WriteRun} {check : Check} {cause : WriteInterruption} (h : Clear run)
    (hca : check.cause = some cause) (effected : Bool) (committed requested : ℕ) :
    Answered (.error (interrupted effected committed requested cause), run.checked check) := by
  intro other ho cause' hca'
  rcases mem_snoc.mp ho with ho | ho
  · rw [h other ho] at hca'
    cases hca'
  · rw [ho, hca] at hca'
    cases hca'
    exact ⟨_, rfl, interruption_interrupted effected committed requested cause⟩

/-! ## The checks -/

section Checks

variable (os : WriteOs) {Full : List Effect → Prop} {bytes : List Byte} {run : WriteRun}
  {effected : Bool} {committed requested : ℕ} {stageError : Option StageError}

theorem look_run (stageError : Option StageError) (run : WriteRun) :
    look os stageError run =
      (.ok { sample := os.sample run.checks.length, stageError },
        run.checked { sample := os.sample run.checks.length, stageError }) := rfl

theorem stageError_of_cause {check : Check} (h : check.cause = none) : check.stageError = none := by
  rw [Check.cause] at h
  cases hsa : check.sample.cause with
  | none =>
    rw [hsa] at h
    exact Option.map_eq_none_iff.mp h
  | some interruption =>
    rw [hsa] at h
    cases interruption <;> cases h

/-- A check goes on where it finds nothing, and there was no error. -/
theorem checkWrite_run (effected : Bool) (committed requested : ℕ)
    (stageError : Option StageError) (run : WriteRun) :
    ∃ check : Check,
      (check.cause = none ∧ stageError = none ∧
        checkWrite os effected committed requested stageError run = (.ok (), run.checked check)) ∨
        ∃ cause, check.cause = some cause ∧
          checkWrite os effected committed requested stageError run =
            (.error (interrupted effected committed requested cause), run.checked check) := by
  refine ⟨{ sample := os.sample run.checks.length, stageError }, ?_⟩
  rw [checkWrite, bind_run_ok (look_run os stageError run)]
  cases hca : Check.cause { sample := os.sample run.checks.length, stageError } with
  | none => exact .inl ⟨rfl, stageError_of_cause hca, rfl⟩
  | some cause => exact .inr ⟨cause, rfl, rfl⟩

theorem told_before (heff : run.effects = []) (committed requested : ℕ) :
    ∀ cause run', run'.effects = run.effects →
      Told Full bytes (.error (interrupted false committed requested cause), run') := by
  intro cause run' hs
  cases cause <;> exact hs.trans heff

theorem told_behind (hco : committed = (content run.effects).length)
    (hfr : content run.effects <+: bytes) :
    ∀ cause run', run'.effects = run.effects →
      Told Full bytes (.error (interrupted true committed bytes.length cause), run') := by
  intro cause run' hs
  rw [← hs] at hco hfr
  exact ⟨hco, rfl, hfr⟩

/-- A check and what follows it. -/
theorem sound_check {f : Unit → Writing Unit} (hc : Clear run)
    (hs : ∀ cause run', run'.effects = run.effects →
      Told Full bytes (.error (interrupted effected committed requested cause), run'))
    (hgo : stageError = none → ∀ run', Clear run' → run'.effects = run.effects →
      Sound Full bytes (f () run')) :
    Sound Full bytes ((checkWrite os effected committed requested stageError >>= f) run) := by
  obtain ⟨check, ⟨hn, hst, hr⟩ | ⟨cause, hca, hr⟩⟩ :=
    checkWrite_run os effected committed requested stageError run
  · rw [bind_run_ok hr]
    exact hgo hst (run.checked check) (hc.checked hn) rfl
  · rw [bind_run_error hr]
    exact ⟨hs cause (run.checked check) rfl, hc.stopped hca effected committed requested⟩

/-- A check that is the answer of the write. -/
theorem sound_lastCheck (hc : Clear run)
    (hs : ∀ cause run', run'.effects = run.effects →
      Told Full bytes (.error (interrupted effected committed requested cause), run'))
    (hgo : stageError = none → Full run.effects) :
    Sound Full bytes (checkWrite os effected committed requested stageError run) := by
  obtain ⟨check, ⟨hn, hst, hr⟩ | ⟨cause, hca, hr⟩⟩ :=
    checkWrite_run os effected committed requested stageError run
  · rw [hr]
    exact ⟨hgo hst, (hc.checked hn).answered _⟩
  · rw [hr]
    exact ⟨hs cause (run.checked check) rfl, hc.stopped hca effected committed requested⟩

variable {α : Type} {f : α → Writing Unit}

/-- A step that looks at nothing. -/
theorem sound_pure {r : Except WriteError α} (hc : Clear run)
    (hs : ∀ err, r = .error err → Told Full bytes (.error err, run))
    (hgo : ∀ a, r = .ok a → Sound Full bytes (f a run)) :
    Sound Full bytes ((ofExcept r >>= f) run) := by
  cases r with
  | error err =>
    rw [bind_run_error (ofExcept_run _ run)]
    exact ⟨hs err rfl, hc.answered _⟩
  | ok a =>
    rw [bind_run_ok (ofExcept_run _ run)]
    exact hgo a rfl

theorem finishReadIo_run (result : Except StageError α) (run : WriteRun) :
    ∃ check : Check,
      (check.cause = none ∧ ∃ a, finishReadIo os result run = (.ok a, run.checked check)) ∨
        ∃ cause, check.cause = some cause ∧
          finishReadIo os result run =
            (.error (interrupted false 0 0 cause), run.checked check) := by
  refine ⟨{ sample := os.sample run.checks.length, stageError := errorOf result }, ?_⟩
  rw [finishReadIo, bind_run_ok (look_run os (errorOf result) run), Check.cause]
  cases (os.sample run.checks.length).cause with
  | some interruption =>
    cases interruption with
    | cancelled => exact .inr ⟨.cancelled, rfl, rfl⟩
    | deadline => exact .inr ⟨.deadline, rfl, rfl⟩
  | none =>
    cases result with
    | error source => exact .inr ⟨.io source, rfl, rfl⟩
    | ok a => exact .inl ⟨rfl, a, rfl⟩

theorem sound_finishReadIo {result : Except StageError α} (hc : Clear run) (heff : run.effects = [])
    (hgo : ∀ a run', Clear run' → run'.effects = [] → Sound Full bytes (f a run')) :
    Sound Full bytes ((finishReadIo os result >>= f) run) := by
  obtain ⟨check, ⟨hn, a, hr⟩ | ⟨cause, hca, hr⟩⟩ := finishReadIo_run os result run
  · rw [bind_run_ok hr]
    exact hgo a (run.checked check) (hc.checked hn) heff
  · rw [bind_run_error hr]
    exact ⟨told_before heff 0 0 cause (run.checked check) rfl, hc.stopped hca false 0 0⟩

end Checks

/-! ## The content -/

section Content

variable (os : WriteOs) {resolved : WalkResult} {file : Object} {bytes : List Byte}

/-- The request was written to the file that was opened. -/
def Full (resolved : WalkResult) (file : Object) (bytes : List Byte) (effects : List Effect) : Prop :=
  Writes resolved file effects ∧ content effects = bytes

theorem writeCall_run (file : Object) (offered : List Byte) (run : WriteRun) :
    (∃ source, writeCall os file offered run =
      (.ok (.error source), { run with calls := run.calls + 1 })) ∨
    (∃ count : Fin (offered.length + 1), count.val = 0 ∧ writeCall os file offered run =
      (.ok (.ok count), { run with calls := run.calls + 1 })) ∨
    ∃ count : Fin (offered.length + 1), count.val ≠ 0 ∧ writeCall os file offered run =
      (.ok (.ok count), ({ run with calls := run.calls + 1 } : WriteRun).effected
        (.wrote file (offered.take count))) := by
  rw [writeCall]
  cases os.write run.calls offered.length with
  | error source => exact .inl ⟨source, rfl⟩
  | ok count =>
    dsimp only
    split_ifs with hc
    · exact .inr (.inl ⟨count, hc, rfl⟩)
    · exact .inr (.inr ⟨count, hc, rfl⟩)

/-- The loop: what was written, and the rest behind it, is the request. -/
theorem sound_content (rest : List Byte) {run : WriteRun} {committed : ℕ} (hc : Clear run)
    (hwrs : Writes resolved file run.effects) (hr : content run.effects ++ rest = bytes)
    (hcomm : committed = (content run.effects).length) :
    Sound (Full resolved file bytes) bytes
      (writeContentFrom os file bytes.length committed rest run) := by
  induction hl : rest.length using Nat.strong_induction_on generalizing rest run committed with
  | _ n ih =>
    have hfr : content run.effects <+: bytes := ⟨rest, hr⟩
    rw [writeContentFrom]
    split_ifs with he
    · rw [he, append_nil] at hr
      exact sound_lastCheck os hc (told_behind hcomm hfr) fun _ => ⟨hwrs, hr⟩
    refine sound_check os hc (told_behind hcomm hfr) fun _ run hc hs => ?_
    rw [← hs] at hwrs hr hcomm hfr
    have hcl : Clear { run with calls := run.calls + 1 } := hc
    obtain ⟨source, hca⟩ | ⟨count, hco, hca⟩ | ⟨count, hco, hca⟩ :=
      writeCall_run os file (rest.take fsIoChunkBytes) run
    · rw [bind_run_ok hca]
      exact sound_lastCheck os hcl (told_behind hcomm hfr) nofun
    · rw [bind_run_ok hca]
      dsimp only
      rw [if_pos hco]
      exact sound_lastCheck os hcl (told_behind hcomm hfr) nofun
    · rw [bind_run_ok hca]
      dsimp only
      rw [if_neg hco]
      -- what was taken is a front of what was offered, which is a front of the rest
      have hle : count.val ≤ min fsIoChunkBytes rest.length :=
        (Nat.lt_succ_iff.mp count.isLt).trans_eq length_take
      have ht : (rest.take fsIoChunkBytes).take count = rest.take count := by
        rw [take_take, Nat.min_eq_left (Nat.le_trans hle (Nat.min_le_left _ _))]
      have hln : (rest.take count).length = count :=
        length_take_of_le (Nat.le_trans hle (Nat.min_le_right _ _))
      have hcont : content (run.effects ++ [.wrote file (rest.take count)]) =
          content run.effects ++ rest.take count := content_append _ _
      have hcn : committed + count =
          (content (run.effects ++ [.wrote file (rest.take count)])).length := by
        rw [hcont, length_append, hln, hcomm]
      have hn : content (run.effects ++ [.wrote file (rest.take count)]) ++ rest.drop count =
          bytes := by
        rw [hcont, append_assoc, take_append_drop, hr]
      have hd : (rest.drop count).length < n := by
        rw [length_drop]
        omega
      have hwr : Clear (({ run with calls := run.calls + 1 } : WriteRun).effected
          (.wrote file (rest.take count))) := hcl
      rw [ht]
      refine sound_check os hwr (told_behind hcn ⟨_, hn⟩) fun _ run' hc hs => ?_
      refine ih _ hd (rest.drop count) hc ?_ ?_ ?_ rfl
      · rw [hs]
        exact hwrs.wrote _
      · rw [hs]
        exact hn
      · rw [hs]
        exact hcn

end Content

/-! ## The two branches -/

section Branches

variable (os : WriteOs) {platform : Platform} {grant : RetainedGrant} {path : Text}
  {bytes : List Byte} {run : WriteRun}

theorem truncateCall_run (file : Object) (run : WriteRun) :
    truncateCall os file run = (.ok (.ok ()), run.effected (.truncated file)) ∨
      ∃ source, truncateCall os file run = (.ok (.error source), run) := by
  rw [truncateCall]
  cases os.setLen with
  | ok => exact .inl rfl
  | error source => exact .inr ⟨source, rfl⟩

theorem createCall_run (parent : Object) (leaf : Text) (run : WriteRun) :
    (∃ file, createCall os parent leaf run =
      (.ok (.ok file), run.effected (.created parent leaf file))) ∨
      ∃ source, createCall os parent leaf run = (.ok (.error source), run) := by
  rw [createCall]
  cases os.createNewFile with
  | ok file => exact .inl ⟨file, rfl⟩
  | error source => exact .inr ⟨source, rfl⟩

theorem told_mapError {Full : List Effect → Prop} {α : Type} {r : Except FsError α}
    (heff : run.effects = []) :
    ∀ err, r.mapError WriteError.fs = .error err → Told Full bytes (.error err, run) := by
  intro err h
  cases r with
  | ok a => cases h
  | error error =>
    cases h
    exact heff

/-- A step in front of the content, behind the effect that opened the file. -/
structure Opened (resolved : WalkResult) (file : Object) (run : WriteRun) : Prop where
  clear : Clear run
  writes : Writes resolved file run.effects
  empty : content run.effects = []

namespace Opened

variable {resolved : WalkResult} {file : Object}

theorem of_effect {effect : Effect} (hc : Clear run) (heff : run.effects = [])
    (h : Opens resolved file effect) : Opened resolved file (run.effected effect) where
  clear := hc
  writes := by
    show Writes resolved file (run.effects ++ [effect])
    rw [heff]
    exact .opens h
  empty := by
    show content (run.effects ++ [effect]) = []
    rw [content_append, h.data, heff]
    rfl

theorem told (h : Opened resolved file run) {Full : List Effect → Prop} :
    ∀ cause run', run'.effects = run.effects →
      Told Full bytes (.error (interrupted true 0 bytes.length cause), run') :=
  told_behind (congrArg List.length h.empty).symm ⟨bytes, by rw [h.empty, nil_append]⟩

theorem check (h : Opened resolved file run) {Full : List Effect → Prop}
    {stageError : Option StageError} {f : Unit → Writing Unit}
    (hgo : ∀ run', Opened resolved file run' → Sound Full bytes (f () run')) :
    Sound Full bytes ((checkWrite os true 0 bytes.length stageError >>= f) run) := by
  refine sound_check os h.clear h.told fun _ run' hc hs => hgo run' ⟨hc, ?_, ?_⟩
  · rw [hs]
    exact h.writes
  · rw [hs]
    exact h.empty

theorem content (h : Opened resolved file run) :
    Sound (Full resolved file bytes) bytes (writeContent os file bytes run) :=
  sound_content os bytes h.clear h.writes (by rw [h.empty, nil_append])
    (congrArg List.length h.empty).symm

end Opened

theorem Sound.mono {Full Full' : List Effect → Prop} {r : Except WriteError Unit × WriteRun}
    (h : Sound Full bytes r) (hmo : ∀ effects, Full effects → Full' effects) :
    Sound Full' bytes r := by
  obtain ⟨result, run⟩ := r
  refine ⟨?_, h.answered⟩
  cases result with
  | ok a => exact hmo _ h.told
  | error err => cases err <;> exact h.told

theorem sound_existing (file : Object) (hc : Clear run) (heff : run.effects = []) :
    Sound (Full (.file file) file bytes) bytes
      (existing os platform grant path bytes file run) := by
  rw [existing]
  refine sound_finishReadIo os hc heff fun metadata run hc heff => ?_
  refine sound_pure hc (told_mapError heff) fun _ _ => ?_
  refine sound_check os hc (told_before heff 0 bytes.length) fun _ run hc hs => ?_
  rw [heff] at hs
  obtain hca | ⟨source, hca⟩ := truncateCall_run os file run
  · rw [bind_run_ok hca]
    exact (Opened.of_effect hc hs (.existing file)).check os fun run h => h.content os
  · -- the truncation failed, which is told as an effect although there is none
    rw [bind_run_ok hca]
    have hco : content run.effects = [] := by
      rw [hs]
      rfl
    exact sound_check os hc
      (told_behind (congrArg List.length hco).symm ⟨bytes, by rw [hco, nil_append]⟩)
      nofun

theorem sound_missing (parent : Object) (leaf : Text) (hc : Clear run) (heff : run.effects = []) :
    Sound (fun effects => ∃ file, Full (.missing parent leaf) file bytes effects) bytes
      (missing os platform grant path bytes parent leaf run) := by
  rw [missing]
  refine sound_check os hc (told_before heff 0 bytes.length) fun _ run hc hs => ?_
  rw [heff] at hs
  obtain ⟨file, hca⟩ | ⟨source, hca⟩ := createCall_run os parent leaf run
  · rw [bind_run_ok hca]
    refine (Opened.of_effect hc hs (.missing parent leaf file)).check os fun run h => ?_
    cases os.metadata with
    | error source => exact sound_lastCheck os h.clear h.told nofun
    | ok metadata =>
      refine h.check os fun run h => ?_
      refine sound_pure h.clear ?_ fun _ _ => ?_
      · intro err he
        cases hre : ensureRegularAndDevice platform metadata grant path with
        | ok a =>
          rw [hre] at he
          cases he
        | error error =>
          rw [hre] at he
          cases he
          exact h.told (.io (.notRegular error)) run rfl
      · exact (h.content os).mono fun effects hfu => ⟨file, hfu⟩
  · rw [bind_run_ok hca]
    have hco : content run.effects = [] := by
      rw [hs]
      rfl
    cases source with
    | alreadyExists =>
      refine sound_check os hc (told_before hs 0 bytes.length) fun _ run hc hs' => ?_
      exact ⟨hs'.trans hs, hc.answered _⟩
    | _ =>
      exact sound_lastCheck os hc (told_behind (congrArg List.length hco).symm
        ⟨bytes, by rw [hco, nil_append]⟩) nofun

end Branches

/-! ## The whole write -/

section Whole

variable (platform : Platform) (os : WriteOs) (broker : FsBroker) (path : Text) (bytes : List Byte)

theorem walkTo_ok {grant : RetainedGrant} {resolved : WalkResult} :
    walkTo platform os grant path = .ok resolved ↔
      (Walker.mk platform grant path .write).walk os.first os.rounds = some (.ok resolved) := by
  obtain ⟨result, hres⟩ : ∃ result,
      (Walker.mk platform grant path .write).walk os.first os.rounds = some result :=
    Walker.walk_ends os.first
  rw [walkTo, hres]
  exact Option.some_inj.symm

/-- What a write that succeeded did. -/
def Wrote (effects : List Effect) : Prop :=
  ∃ grant ∈ broker.writeGrants, ∃ resolved file,
    (Walker.mk platform grant path .write).walk os.first os.rounds = some (.ok resolved) ∧
      Full resolved file bytes effects

theorem sound_writeAllowed (grantIndex : ℕ) :
    Sound (Wrote platform os broker path bytes) bytes
      (writeAllowed platform os broker path bytes grantIndex {}) := by
  have hc : Clear {} := nofun
  rw [writeAllowed]
  refine sound_check os hc (told_before rfl 0 bytes.length) fun _ run hc heff => ?_
  refine sound_pure hc (told_mapError heff) fun grant hgr => ?_
  refine sound_pure hc (told_mapError heff) fun resolved hre => ?_
  have hm : grant ∈ broker.writeGrants := by
    rw [mapError_ok, selectedGrant, orElseError_ok] at hgr
    exact mem_of_find?_eq_some hgr
  have hwa := (walkTo_ok platform os path).mp (mapError_ok.mp hre)
  refine sound_check os hc (told_before heff 0 bytes.length) fun _ run hc hs => ?_
  rw [heff] at hs
  cases resolved with
  | file file =>
    exact (sound_existing os file hc hs).mono fun effects hfu =>
      ⟨grant, hm, _, file, hwa, hfu⟩
  | missing parent leaf =>
    refine (sound_missing os parent leaf hc hs).mono ?_
    rintro effects ⟨file, hfu⟩
    exact ⟨grant, hm, _, file, hwa, hfu⟩

variable {α : Type}

/-- A request that the guard allows is handed on with the grant. -/
theorem dispatchPrivileged_cases (manifest : Guard.PermissionsManifest) (principal : Principal)
    (operation : Text) (handler : ℕ → α) :
    (∃ reason, Guard.dispatchPrivileged platform manifest principal operation path handler =
      .error reason) ∨
      ∃ grantIndex, Guard.dispatchPrivileged platform manifest principal operation path handler =
        .ok (handler grantIndex) := by
  rw [Guard.dispatchPrivileged]
  split
  · exact .inl ⟨_, rfl⟩
  · split_ifs
    · exact .inl ⟨_, rfl⟩
    · split
      · exact .inr ⟨_, rfl⟩
      · exact .inl ⟨_, rfl⟩

theorem sound_write (verified : VerifiedManifest) (principal : Principal) :
    Sound (Wrote platform os broker path bytes) bytes
      (write platform os broker verified principal path bytes {}) := by
  have hc : Clear {} := nofun
  rw [write]
  refine sound_pure hc ?_ fun _ _ => ?_
  · intro err h
    rw [require] at h
    split_ifs at h
    cases h
    rfl
  refine sound_pure hc (told_mapError rfl) fun _ _ => ?_
  refine sound_pure hc ?_ fun _ _ => ?_
  · intro err h
    rw [require] at h
    split_ifs at h
    cases h
    rfl
  obtain ⟨reason, hdis⟩ | ⟨grantIndex, hdis⟩ := dispatchPrivileged_cases platform path
    verified.manifest principal Guard.Capability.fsWrite
    (writeAllowed platform os broker path bytes)
  · rw [hdis]
    exact ⟨rfl, hc.answered _⟩
  · rw [hdis]
    exact sound_writeAllowed platform os broker path bytes grantIndex

/-- A check that finds the flag set says so, whatever the clock and the call say; the clock comes
before the call. -/
theorem Answered.precedence {r : Except WriteError Unit × WriteRun} (h : Answered r) {check : Check}
    (hch : check ∈ r.2.checks) :
    (check.sample.cancelled = true → ∃ err, r.1 = .error err ∧ err.interruption = some .cancelled) ∧
    (check.sample.cancelled = false → check.sample.expired = true →
      ∃ err, r.1 = .error err ∧ err.interruption = some .deadline) ∧
    (check.sample.cancelled = false → check.sample.expired = false →
      ∀ source, check.stageError = some source →
        ∃ err, r.1 = .error err ∧ err.interruption = some (.io source)) := by
  refine ⟨fun hca => h check hch _ ?_, fun hca hex => h check hch _ ?_,
    fun hca hex source hsrc => h check hch _ ?_⟩
  · rw [Check.cause, Sample.cause, hca]
    rfl
  · rw [Check.cause, Sample.cause, hca, hex]
    rfl
  · rw [Check.cause, Sample.cause, hca, hex, hsrc]
    rfl

theorem Moment.finishReadIo_precedence (m : Moment) (sample : Sample) (result : Except IoError α)
    (h : m.interruption = sample.cause) :
    m.finishReadIo result =
      if sample.cancelled then .error .cancelled
      else if sample.expired then .error .deadline
      else result.mapError .io := by
  rw [Moment.finishReadIo, Moment.checkRead, h, Sample.cause]
  split_ifs <;> rfl

/-- What the answer of a write says of its effects, and which interruption it names. -/
theorem write_classified (verified : VerifiedManifest) (principal : Principal) :
    let r := write platform os broker verified principal path bytes {}
    (∀ err, r.1 = .error err → (∀ cause committed requested,
      err ≠ .writeEffect cause committed requested) → r.2.effects = []) ∧
    (∀ cause committed requested, r.1 = .error (.writeEffect cause committed requested) →
      committed = (r.2.effects.map fun effect => effect.data.length).sum ∧
        requested = bytes.length ∧ content r.2.effects <+: bytes) ∧
    (r.1 = .ok () → ∃ grant ∈ broker.writeGrants, ∃ resolved file,
      (Walker.mk platform grant path .write).walk os.first os.rounds = some (.ok resolved) ∧
        Writes resolved file r.2.effects ∧ content r.2.effects = bytes) ∧
    (∀ check ∈ r.2.checks,
      (check.sample.cancelled = true →
        ∃ err, r.1 = .error err ∧ err.interruption = some .cancelled) ∧
      (check.sample.cancelled = false → check.sample.expired = true →
        ∃ err, r.1 = .error err ∧ err.interruption = some .deadline) ∧
      (check.sample.cancelled = false → check.sample.expired = false →
        ∀ source, check.stageError = some source →
          ∃ err, r.1 = .error err ∧ err.interruption = some (.io source))) ∧
    ∀ (m : Moment) (sample : Sample) (result : Except IoError Metadata),
      m.interruption = sample.cause →
        m.finishReadIo result =
          if sample.cancelled then .error .cancelled
          else if sample.expired then .error .deadline
          else result.mapError .io := by
  intro r
  have hs : Sound (Wrote platform os broker path bytes) bytes r :=
    sound_write platform os broker path bytes verified principal
  have hto := hs.told
  refine ⟨fun err he hne => ?_, fun cause committed requested he => ?_, fun hok => ?_,
    fun check hch => hs.answered.precedence hch,
    fun m sample result => m.finishReadIo_precedence sample result⟩
  · rw [← Prod.mk.eta (p := r), he] at hto
    cases err with
    | writeEffect cause committed requested => exact absurd rfl (hne cause committed requested)
    | _ => exact hto
  · rw [← Prod.mk.eta (p := r), he] at hto
    rw [← length_flatMap]
    exact hto
  · rw [← Prod.mk.eta (p := r), hok] at hto
    exact hto

end Whole

end Keld.Fs
