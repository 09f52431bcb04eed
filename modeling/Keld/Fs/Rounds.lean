/-
# `Keld.Fs.Rounds` — what a round of the walk does

A round that goes on does one of four things, and a round that ends a walk with a
result does one of two; `Next` and `Done` say which, with what the calls found.
`Reached` are the states a walk comes to, with the moves made so far.
-/
import Keld.Fs.Walk
import Mathlib.Data.Nat.Basic

namespace Keld.Fs

open Moment

open Guard (Text Platform PathScopeKind validateFsComponent)

variable {α β : Type}

/-! ## Calls -/

variable {m : Moment} {result : Except IoError α} {a : α} {dir child object : Object} {name : Text}
  {platform : Platform} {target : Option Text}

theorem Moment.answer_ok (h : m.answer result = .ok a) : result = .ok a := by
  unfold answer at h
  split at h
  · cases h
  · exact h

theorem Moment.child_ok {test : Metadata → Except IoError Unit}
    (h : m.child dir name test = .ok child) :
    m.world.entry dir name = some child ∧ test (m.world.metadata child) = .ok () := by
  obtain ⟨object, he, h⟩ := bind_ok.mp (answer_ok h)
  obtain ⟨hte, h⟩ := bind_unit_ok.mp h
  cases h
  exact ⟨orElseError_ok.mp he, hte⟩

theorem Moment.finishReadIo_ok (h : m.finishReadIo result = .ok a) : result = .ok a := by
  obtain ⟨-, h⟩ := bind_unit_ok.mp h
  exact mapError_ok.mp h

theorem Moment.openChildDirectory_ok (h : m.openChildDirectory platform dir name = .ok child) :
    m.world.entry dir name = some child ∧ (m.world.metadata child).fileType = .directory := by
  obtain ⟨he, hte⟩ := child_ok h
  obtain ⟨-, hte⟩ := bind_unit_ok.mp hte
  exact ⟨he, of_decide_eq_true (require_ok.mp hte)⟩

theorem Moment.openExistingFile_ok (h : m.openExistingFile platform dir name = .ok child) :
    m.world.entry dir name = some child ∧ (m.world.metadata child).fileType ≠ .symlink := by
  obtain ⟨he, hte⟩ := child_ok h
  obtain ⟨-, hte⟩ := bind_unit_ok.mp hte
  exact ⟨he, of_decide_eq_true (require_ok.mp hte)⟩

theorem Moment.readLinkContents_ok (h : m.readLinkContents dir name = .ok target) :
    ∃ link, m.world.entry dir name = some link ∧ (m.world.metadata link).fileType = .symlink ∧
      m.world.target link = target := by
  obtain ⟨link, hch, h⟩ := bind_ok.mp h
  obtain ⟨he, hte⟩ := child_ok hch
  cases h
  exact ⟨link, he, of_decide_eq_true (require_ok.mp hte), rfl⟩

theorem Moment.handleMetadata_ok {metadata : Metadata} (h : m.handleMetadata object = .ok metadata)
    : metadata = m.world.metadata object :=
  (Except.ok.inj (answer_ok h)).symm

theorem Moment.tryClone_ok {clone : Object} (h : m.tryClone object = .ok clone) : clone = object :=
  (Except.ok.inj (answer_ok h)).symm

theorem segmentOf_valid (h : validateFsComponent platform name = .ok ()) :
    segmentOf name = .normal name := by
  obtain ⟨hpo, -⟩ := bind_unit_ok.mp h
  obtain ⟨hno, -⟩ := bind_unit_ok.mp hpo
  have hpl := of_decide_eq_true (require_ok.mp hno)
  unfold segmentOf
  rw [if_neg hpl.2.1, if_neg hpl.2.2]

theorem linkComponents_ok {requested : Text} {components : List PendingComponent}
    (h : linkComponents platform target requested = .ok components) :
    ∃ text, target = some text ∧ isRooted platform text = false ∧
      components = (namesBetween (linkBreak platform) text).map segmentOf := by
  obtain ⟨text, htgt, h⟩ := bind_ok.mp h
  obtain ⟨hro, h⟩ := bind_unit_ok.mp h
  obtain ⟨-, h⟩ := bind_unit_ok.mp h
  cases h
  refine ⟨text, orElseError_ok.mp htgt, ?_, rfl⟩
  simpa using require_ok.mp hro

/-! ## One round -/

namespace Walker

variable (w : Walker)

/-- A round that goes on, what it did and where it leaves the walk. -/
inductive Next (r : Round) (s : WalkState) : Move → WalkState → Prop
  | stay {pending : List PendingComponent} : s.pending = .current :: pending →
      Next r s .stay { s with
        pending := pending
        components := s.components + 1 }
  | up {pending : List PendingComponent} : s.pending = .parent :: pending →
      s.directories.length ≠ 1 →
      Next r s .up { s with
        pending := pending
        components := s.components + 1
        directories := s.directories.tail }
  | follow {name text : Text} {pending : List PendingComponent} {current link : Object}
      {below : List Object} : s.pending = .normal name :: pending →
      validateFsComponent w.platform name = .ok () → s.directories = current :: below →
      w.grant.kind = .subtree → s.links + 1 ≤ maxFsSymlinkExpansions →
      r.act.world.entry current name = some link →
      (r.act.world.metadata link).fileType = .symlink → r.act.world.target link = some text →
      isRooted w.platform text = false →
      Next r s (.follow name (some text)) { s with
        pending := (namesBetween (linkBreak w.platform) text).map segmentOf ++ pending
        components := s.components + 1
        links := s.links + 1 }
  | enter {name : Text} {pending : List PendingComponent} {current child : Object}
      {below : List Object} : s.pending = .normal name :: pending →
      validateFsComponent w.platform name = .ok () → s.directories = current :: below →
      r.act.world.entry current name = some child →
      (r.act.world.metadata child).fileType = .directory →
      (r.opened.world.metadata child).dev = w.grant.rootDevice →
      Next r s (.enter name child) { s with
        pending := pending
        components := s.components + 1
        directories := child :: s.directories }

/-- A round that ends the walk with a result. -/
inductive Done (r : Round) (s : WalkState) : WalkResult → Prop
  | file {name : Text} {current file : Object} {below : List Object} :
      s.pending = [.normal name] → validateFsComponent w.platform name = .ok () →
      s.directories = current :: below → r.act.world.entry current name = some file →
      (r.act.world.metadata file).fileType ≠ .symlink →
      (r.opened.world.metadata file).fileType = .file →
      (r.opened.world.metadata file).dev = w.grant.rootDevice → Done r s (.file file)
  | missing {name : Text} {current : Object} {below : List Object} :
      s.pending = [.normal name] → s.directories = current :: below → w.purpose = .write →
      r.probe.symlinkMetadata current name = .error .notFound → Done r s (.missing current name)

variable {w}

variable {metadata : Metadata} {r : Round} {s : WalkState} {current : Object} {name : Text}
  {rounds : ℕ → Round} {fuel i : ℕ}

theorem ensureRegularAndDevice_ok {platform : Platform} {grant : RetainedGrant} {requested : Text}
    (h : ensureRegularAndDevice platform metadata grant requested = .ok ()) :
    metadata.fileType = .file ∧ metadata.dev = grant.rootDevice := by
  obtain ⟨-, h⟩ := bind_unit_ok.mp h
  obtain ⟨hdev, h⟩ := bind_unit_ok.mp h
  exact ⟨of_decide_eq_true (require_ok.mp h), of_decide_eq_true (require_ok.mp hdev)⟩

/-- What a round makes of an ordinary component. -/
inductive Normal (w : Walker) (r : Round) (s : WalkState) (name : Text) (current : Object) :
    Turn → Prop
  | follow {link : Object} {text : Text} : w.grant.kind = .subtree →
      s.links + 1 ≤ maxFsSymlinkExpansions → r.act.world.entry current name = some link →
      (r.act.world.metadata link).fileType = .symlink → r.act.world.target link = some text →
      isRooted w.platform text = false →
      Normal w r s name current (.next (.follow name (some text)) { s with
        pending := (namesBetween (linkBreak w.platform) text).map segmentOf ++ s.pending
        links := s.links + 1 })
  | enter {child : Object} : r.act.world.entry current name = some child →
      (r.act.world.metadata child).fileType = .directory →
      (r.opened.world.metadata child).dev = w.grant.rootDevice →
      Normal w r s name current
        (.next (.enter name child) { s with directories := child :: s.directories })
  | file {file : Object} : s.pending = [] → r.act.world.entry current name = some file →
      (r.act.world.metadata file).fileType ≠ .symlink →
      (r.opened.world.metadata file).fileType = .file →
      (r.opened.world.metadata file).dev = w.grant.rootDevice →
      Normal w r s name current (.done (.file file))
  | missing : s.pending = [] → w.purpose = .write →
      r.probe.symlinkMetadata current name = .error .notFound →
      Normal w r s name current (.done (.missing current name))

theorem linkTurn_ok {turn : Turn} (h : w.linkTurn r s current name = .ok turn) :
    Normal w r s name current turn := by
  obtain ⟨hk, h⟩ := bind_unit_ok.mp h
  obtain ⟨hli, h⟩ := bind_unit_ok.mp h
  obtain ⟨target, htgt, h⟩ := bind_ok.mp h
  obtain ⟨inserted, hin, h⟩ := bind_ok.mp h
  cases h
  obtain ⟨link, he, hlink, hr⟩ := readLinkContents_ok (finishReadIo_ok htgt)
  obtain ⟨text, rfl, hro, rfl⟩ := linkComponents_ok hin
  have hsu : w.grant.kind = .subtree := by
    cases hgr : w.grant.kind with
    | exact => exact absurd hgr (of_decide_eq_true (require_ok.mp hk))
    | subtree => rfl
  exact .follow hsu (of_decide_eq_true (require_ok.mp hli)) he hlink hr hro

theorem fileTurn_ok {turn : Turn} (hl : s.pending = [])
    (h : w.fileTurn r current name metadata = .ok turn) : Normal w r s name current turn := by
  obtain ⟨-, h⟩ := bind_unit_ok.mp h
  obtain ⟨-, h⟩ := bind_unit_ok.mp h
  obtain ⟨file, hfi, h⟩ := bind_ok.mp h
  obtain ⟨opened, hop, h⟩ := bind_ok.mp h
  obtain ⟨hre, h⟩ := bind_unit_ok.mp h
  cases h
  obtain ⟨he, hno⟩ := openExistingFile_ok (mapError_ok.mp hfi)
  rw [handleMetadata_ok (finishReadIo_ok hop)] at hre
  obtain ⟨hty, hdev⟩ := ensureRegularAndDevice_ok hre
  exact .file hl he hno hty hdev

theorem directoryTurn_ok {turn : Turn} (h : w.directoryTurn r s current name metadata = .ok turn) :
    Normal w r s name current turn := by
  obtain ⟨-, h⟩ := bind_unit_ok.mp h
  obtain ⟨-, h⟩ := bind_unit_ok.mp h
  obtain ⟨directory, hd, h⟩ := bind_ok.mp h
  obtain ⟨opened, hop, h⟩ := bind_ok.mp h
  obtain ⟨-, h⟩ := bind_unit_ok.mp h
  obtain ⟨hdev, h⟩ := bind_unit_ok.mp h
  cases h
  obtain ⟨he, hty⟩ := openChildDirectory_ok (mapError_ok.mp hd)
  rw [handleMetadata_ok (finishReadIo_ok hop)] at hdev
  exact .enter he hty (of_decide_eq_true (require_ok.mp hdev))

theorem normalTurn_ok {turn : Turn} (h : w.normalTurn r s name = .ok turn) :
    validateFsComponent w.platform name = .ok () ∧
      ∃ current below, s.directories = current :: below ∧ Normal w r s name current turn := by
  obtain ⟨hv, h⟩ := bind_unit_ok.mp h
  obtain ⟨current, hc, h⟩ := bind_ok.mp h
  obtain ⟨-, h⟩ := bind_unit_ok.mp h
  obtain ⟨below, hdi⟩ : ∃ below, s.directories = current :: below :=
    List.head?_eq_some_iff.mp (orElseError_ok.mp hc)
  refine ⟨mapError_ok.mp hv, current, below, hdi, ?_⟩
  cases hpr : r.probe.symlinkMetadata current name with
  | error source =>
    rw [hpr] at h
    dsimp only at h
    split at h
    · rename_i hmi
      obtain ⟨rfl, hl, hw⟩ := hmi
      obtain ⟨parent, hpar, h⟩ := bind_ok.mp h
      cases h
      rw [tryClone_ok (finishReadIo_ok hpar)]
      exact .missing hl hw hpr
    · cases h
  | ok metadata =>
    rw [hpr] at h
    obtain ⟨-, h⟩ := bind_unit_ok.mp h
    split at h
    · exact linkTurn_ok h
    · split at h
      · rename_i hl
        exact fileTurn_ok hl h
      · exact directoryTurn_ok h

/-- A round that is no error counts its component, and is a `Next` or a `Done`. -/
theorem turn_ok {turn : Turn} (h : w.turn r s = .ok turn) :
    s.components + 1 ≤ maxFsComponents ∧
      match turn with
      | .next move s' => w.Next r s move s'
      | .done result => w.Done r s result := by
  unfold Walker.turn at h
  cases hp : s.pending with
  | nil =>
    rw [hp] at h
    cases h
  | cons component pending =>
    rw [hp] at h
    obtain ⟨-, h⟩ := bind_unit_ok.mp h
    obtain ⟨hc, h⟩ := bind_unit_ok.mp h
    refine ⟨of_decide_eq_true (require_ok.mp hc), ?_⟩
    cases component with
    | current =>
      cases h
      exact .stay hp
    | parent =>
      obtain ⟨hle, h⟩ := bind_unit_ok.mp h
      cases h
      exact .up hp (of_decide_eq_true (require_ok.mp hle))
    | normal name =>
      obtain ⟨hv, current, below, hdi, hno⟩ := normalTurn_ok h
      cases hno with
      | follow hk hli he hlink htgt hro =>
        exact .follow hp hv hdi hk hli he hlink htgt hro
      | enter he hty hdev =>
        exact .enter hp hv hdi he hty hdev
      | file hl he hnl hty hdev =>
        subst hl
        exact .file hp hv hdi he hnl hty hdev
      | missing hl hw hpr =>
        subst hl
        exact .missing hp hdi hw hpr

/-! ## Whole walks -/

/-- The states that a walk comes to, behind how many rounds and by which moves. -/
inductive Reached (w : Walker) (rounds : ℕ → Round) (begins : WalkState) :
    ℕ → List Move → WalkState → Prop
  | start : Reached w rounds begins 0 [] begins
  | next {i : ℕ} {moves : List Move} {move : Move} {s s' : WalkState} :
      Reached w rounds begins i moves s → w.turn (rounds i) s = .ok (.next move s') →
      Reached w rounds begins (i + 1) (moves ++ [move]) s'

/-- A walk that ends with a result ends by a round in a state that it came to. -/
theorem walkFrom_done {begins : WalkState} {moves : List Move} {result : WalkResult}
    (hrch : w.Reached rounds begins i moves s)
    (h : w.walkFrom rounds fuel i s = some (.ok result)) :
    ∃ j moves' s', w.Reached rounds begins j moves' s' ∧
      w.turn (rounds j) s' = .ok (.done result) := by
  induction fuel generalizing i moves s with
  | zero => cases h
  | succ fuel ih =>
    unfold walkFrom at h
    cases htu : w.turn (rounds i) s with
    | error error =>
      rw [htu] at h
      cases h
    | ok turn =>
      rw [htu] at h
      cases turn with
      | next move s' => exact ih (hrch.next htu) h
      | done other =>
        cases h
        exact ⟨i, moves, s, hrch, htu⟩

theorem Next.components {s' : WalkState} {move : Move} (h : w.Next r s move s') :
    s'.components = s.components + 1 := by
  cases h <;> rfl

/-- Every round counts a component, so a round more than there may be is enough. -/
theorem walkFrom_ends (hc : s.components ≤ maxFsComponents)
    (hfu : maxFsComponents < s.components + fuel) :
    ∃ result, w.walkFrom rounds fuel i s = some result := by
  induction fuel generalizing i s with
  | zero => omega
  | succ fuel ih =>
    unfold walkFrom
    cases htu : w.turn (rounds i) s with
    | error error => exact ⟨_, rfl⟩
    | ok turn =>
      have hok := turn_ok htu
      cases turn with
      | next move s' =>
        have hcm := Next.components hok.2
        exact ih (by omega) (by omega)
      | done result => exact ⟨_, rfl⟩

end Walker

end Keld.Fs
