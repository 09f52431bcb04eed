/-
# `Keld.Update.FullLaw` — what a receipt for a full artifact is worth

Whatever the source answers and the decoder does: behind a receipt the bytes that
were handed to the decoder are the signed ones and none is left over, and the sink
holds the signed content.  Sizes are bounded at every end, a failure included: the
sink never holds more than the signed content size, and the decoder is never
handed more than one byte beyond the signed compressed size.

`Decoding` is what the second pass keeps.  The bytes between the two passes may
have changed, so nothing of it speaks of the first pass.
-/
import Keld.Archive.Canonical
import Keld.Update.Full

namespace Keld.Update

open FullIo Proc List SignedFullArtifact

variable (os : FullOs) (decoder : Decoder) (artifact : SignedFullArtifact)

/-- However a run ends. -/
structure WithinSigned (run : FullRun) : Prop where
  hashed : run.hashed.length ≤ artifact.compressedSize
  handed : run.handed.length ≤ artifact.compressedSize + 1
  sink : run.sink.length ≤ artifact.contentSize

/-- The first pass is not over. -/
structure Hashing (run : FullRun) (size : ℕ) : Prop where
  hashed : run.hashed.length = size
  handed : run.handed = []
  sink : run.sink = []

/-- The first pass found the signed bytes, and the second has put these into the sink. -/
structure Decoding (sink : List Byte) (run : FullRun) : Prop where
  size : run.hashed.length = artifact.compressedSize
  digest : os.blake3 run.hashed = artifact.compressedBlake3
  room : run.limit + run.handed.length ≤ artifact.compressedSize + 1
  sink : run.sink = sink

variable {os decoder artifact}

variable {run : FullRun} {size : ℕ} {sink : List Byte} {E : FullRun → Prop}

theorem Hashing.bounded (h : Hashing run size) (hs : size ≤ artifact.compressedSize) :
    WithinSigned artifact run where
  hashed := h.hashed.trans_le hs
  handed := by
    rw [h.handed]
    exact Nat.zero_le _
  sink := by
    rw [h.sink]
    exact Nat.zero_le _

theorem Decoding.bounded (h : Decoding os artifact sink run)
    (hsi : sink.length ≤ artifact.contentSize) : WithinSigned artifact run where
  hashed := h.size.le
  handed := Nat.le_trans (Nat.le_add_left _ _) h.room
  sink := by
    rw [h.sink]
    exact hsi

/-! ## The first pass -/

theorem read_run (room : ℕ) (run : FullRun) :
    FullIo.read os room run = (os.read run.reads room, { run with reads := run.reads + 1 }) := rfl

theorem read_ensures {room : ℕ} {f : String → FullError} {Q : Upto room → FullRun → Prop}
    (hok : ∀ bytes, Q bytes { run with reads := run.reads + 1 })
    (heo : E { run with reads := run.reads + 1 }) :
    Ensures Q E ((FullIo.read os room).mapError f) run := by
  cases hr : os.read run.reads room with
  | ok bytes =>
    have hru : FullIo.read os room run = (.ok bytes, { run with reads := run.reads + 1 }) := by
      rw [read_run, hr]
    exact .of_ok (mapError_run_ok hru) (hok bytes)
  | error error =>
    have hru : FullIo.read os room run = (.error error, { run with reads := run.reads + 1 }) := by
      rw [read_run, hr]
    exact .of_error (mapError_run_error hru) heo

theorem Hashing.read (h : Hashing run size) :
    Hashing { run with reads := run.reads + 1 } size := ⟨h.hashed, h.handed, h.sink⟩

/-- The loop hashes exactly as much as it is told to, or stops short of it. -/
theorem hashFrom_ensures {observed : ℕ} (h : Hashing run observed)
    (hle : observed ≤ artifact.compressedSize) :
    Ensures (fun _ run' => Hashing run' artifact.compressedSize) (WithinSigned artifact)
      (hashFrom os artifact.compressedSize observed) run := by
  induction hl : artifact.compressedSize - observed using Nat.strong_induction_on
    generalizing observed run with
  | _ n ih =>
    rw [hashFrom]
    split_ifs with hlt
    case neg =>
      refine .of_ok (pure_run () run) ?_
      rw [Nat.le_antisymm (Nat.not_lt.mp hlt) hle]
      exact h
    refine (read_ensures (Q := fun _ run' => Hashing run' observed) (fun _ => h.read)
      (h.read.bounded hle)).bind fun bytes run h => ?_
    split_ifs with hno
    · exact .of_error (fail_run _ run) (h.bounded hle)
    · -- what was read is at most what is missing
      have hro : bytes.val.length ≤ artifact.compressedSize - observed :=
        Nat.le_trans bytes.property (Nat.min_le_left _ _)
      have hn : Hashing { run with hashed := run.hashed ++ bytes.val }
          (observed + bytes.val.length) :=
        ⟨by rw [length_append, h.hashed], h.handed, h.sink⟩
      refine (Ensures.of_ok (Q := fun _ run' => Hashing run' (observed + bytes.val.length))
        (x := FullIo.hash bytes.val) rfl hn).bind fun _ run h => ?_
      exact ih (artifact.compressedSize - (observed + bytes.val.length)) (by omega) h (by omega) rfl

/-- Behind the first pass the hashed bytes are the signed ones. -/
theorem hashExactCompressed_ensures (h : Hashing run 0) :
    Ensures (fun _ run' => Hashing run' artifact.compressedSize ∧
        os.blake3 run'.hashed = artifact.compressedBlake3) (WithinSigned artifact)
      (hashExactCompressed os artifact.compressedSize artifact.compressedBlake3) run := by
  rw [hashExactCompressed]
  refine (hashFrom_ensures h (Nat.zero_le _)).bind fun _ run h => ?_
  refine (read_ensures (Q := fun _ run' => Hashing run' artifact.compressedSize) (fun _ => h.read)
    (h.read.bounded le_rfl)).bind fun extra run h => ?_
  split_ifs
  · exact .of_error (fail_run _ run) (h.bounded le_rfl)
  · refine (ensures_state (Q := fun seen run' => seen = run ∧ run' = run) ⟨rfl, rfl⟩).bind ?_
    rintro _ _ ⟨rfl, rfl⟩
    refine ensures_ofExcept (fun _ hdig => ⟨h, ?_⟩) fun _ _ => h.bounded le_rfl
    exact of_decide_eq_true (require_ok.mp hdig)

/-! ## The second pass -/

/-- What is handed over is hashed, and never more than the limit. -/
theorem handOver_keeps (sink : List Byte) (room : ℕ) :
    Keeps (Decoding os artifact sink) (handOver os room) := by
  intro run h
  rw [handOver]
  split_ifs with hli
  · exact h
  cases hr : os.read run.reads (min room run.limit) with
  | error error =>
    have hru : FullIo.read os (min room run.limit) run =
        (.error error, { run with reads := run.reads + 1 }) := by rw [read_run, hr]
    rw [hru]
    exact ⟨h.size, h.digest, h.room, h.sink⟩
  | ok bytes =>
    have hru : FullIo.read os (min room run.limit) run =
        (.ok bytes, { run with reads := run.reads + 1 }) := by rw [read_run, hr]
    have hro := h.room
    rw [hru]
    dsimp only
    split_ifs
    · refine ⟨h.size, h.digest, ?_, h.sink⟩
      show run.limit - bytes.val.length + (run.handed ++ bytes.val).length ≤ _
      rw [length_append]
      omega
    · refine ⟨h.size, h.digest, ?_, h.sink⟩
      show run.limit - bytes.val.length + run.handed.length ≤ _
      omega

theorem pull_ensures {α : Type} (program : Pull String (List Byte) α)
    (h : Decoding os artifact sink run) (E : FullRun → Prop) :
    Ensures (fun _ => Decoding os artifact sink) E (program.run (handOver os) : FullIo α) run := by
  obtain ⟨a, run', hr, h'⟩ : ∃ a run', (program.run (handOver os) : FullIo α) run = (.ok a, run') ∧
      Decoding os artifact sink run' := Pull.run_ok (handOver_keeps sink) program h
  exact .of_ok hr h'

theorem writeAll_ensures {bytes : List Byte} (h : Decoding os artifact sink run)
    (hf : sink.length + bytes.length ≤ artifact.contentSize) :
    Ensures (fun _ => Decoding os artifact (sink ++ bytes)) (WithinSigned artifact)
      (writeAll os bytes) run := by
  cases hw : os.write run.writes bytes.length with
  | none =>
    have hr : writeAll os bytes run =
        (.ok (), { run with writes := run.writes + 1, sink := run.sink ++ bytes }) := by
      rw [writeAll, hw]
    exact .of_ok hr ⟨h.size, h.digest, h.room, congrArg (· ++ bytes) h.sink⟩
  | some taken =>
    obtain ⟨count, error⟩ := taken
    have hr : writeAll os bytes run = (.error (processing "verified-content sink write" error),
          { run with writes := run.writes + 1, sink := run.sink ++ bytes.take count }) := by
      rw [writeAll, hw]
    refine .of_error hr ?_
    · refine ⟨h.size.le, Nat.le_trans (Nat.le_add_left _ _) h.room, ?_⟩
      rw [length_append, h.sink]
      have hle : (bytes.take count.val).length ≤ bytes.length := by
        rw [length_take]
        exact Nat.min_le_right _ _
      omega

/-- The loop: the hasher has seen what is in the sink, which is no longer than it may be. -/
theorem decodeFrom_ensures {produced : ℕ} {hah : List Byte} {state : decoder.State}
    (h : Decoding os artifact hah run) (hpr : produced = hah.length)
    (hle : produced ≤ artifact.contentSize) :
    Ensures (fun r run' => Decoding os artifact r.2.1 run' ∧ r.1 = r.2.1.length ∧
        r.1 ≤ artifact.contentSize) (WithinSigned artifact)
      (decodeFrom os decoder artifact.contentSize produced hah state) run := by
  induction hleft : artifact.contentSize - produced using Nat.strong_induction_on
    generalizing produced hah state run with
  | _ n ih =>
    rw [decodeFrom]
    refine (pull_ensures (decoder.read state) h _).bind fun step run h => ?_
    have hbd := h.bounded (hpr.symm.trans_le hle)
    refine (ensures_ofExcept (Q := fun _ run' => run' = run) (fun _ _ => rfl)
      fun _ _ => hbd).bind ?_
    rintro out _ rfl
    split_ifs with he hov hl
    · exact .of_ok (pure_run _ _) ⟨h, hpr, hle⟩
    · exact .of_error (fail_run _ _) hbd
    · exact .of_error (fail_run _ _) hbd
    · refine (writeAll_ensures h (by omega)).bind fun _ run h => ?_
      exact ih (artifact.contentSize - (produced + out.val.length)) (by omega) h
        (by rw [length_append, hpr]) (by omega) rfl

/-- The content is the signed one, and all of it is in the sink. -/
structure IsContent (os : FullOs) (artifact : SignedFullArtifact) (content : ContentIdentity)
    (sink : List Byte) : Prop where
  size : sink.length = artifact.contentSize
  digest : os.blake3 sink = artifact.identity.contentBlake3
  content : content = {
    identity := artifact.identity
    contentSize := artifact.contentSize
    contentBlake3 := artifact.identity.contentBlake3 }

theorem decodeContent_ensures (h : Decoding os artifact [] run) :
    Ensures (fun r run' => IsContent os artifact r.1 run'.sink ∧ Decoding os artifact run'.sink run')
      (WithinSigned artifact) (artifact.decodeContent os decoder) run := by
  have hbd := h.bounded (Nat.zero_le _)
  rw [decodeContent]
  refine (ensures_ofExcept (Q := fun _ run' => run' = run) (fun _ _ => rfl) fun _ _ => hbd).bind ?_
  rintro state run rfl
  refine (decodeFrom_ensures h rfl (Nat.zero_le _)).bind ?_
  rintro ⟨produced, hah, state⟩ run ⟨h, hpr, hle⟩
  have hbd := h.bounded (hpr.symm.trans_le hle)
  refine (ensures_ofExcept (Q := fun _ run' => run' = run ∧ produced = artifact.contentSize)
    (fun _ hs => ⟨rfl, of_decide_eq_true (require_ok.mp hs)⟩) fun _ _ => hbd).bind ?_
  rintro _ run ⟨rfl, rfl⟩
  refine (ensures_ofExcept (Q := fun _ run' => run' = run ∧
      os.blake3 hah = artifact.identity.contentBlake3)
    (fun _ hdig => ⟨rfl, of_decide_eq_true (require_ok.mp hdig)⟩) fun _ _ => hbd).bind ?_
  rintro _ run ⟨rfl, hdig⟩
  refine .of_ok (pure_run _ _) ⟨⟨?_, ?_, ?_⟩, ?_⟩
  · rw [h.sink]
    exact hpr.symm
  · rw [h.sink]
    exact hdig
  · rw [hdig]
  · rw [h.sink]
    exact h

/-! ## The receipt -/

/-- What is behind a receipt. -/
structure Received (os : FullOs) (artifact : SignedFullArtifact) (content : ContentIdentity)
    (run : FullRun) : Prop where
  handedSize : run.handed.length = artifact.compressedSize
  handedDigest : os.blake3 run.handed = artifact.compressedBlake3
  /-- The decoder consumed everything it was handed. -/
  left : run.left = some []
  content : IsContent os artifact content run.sink

theorem checkConsumed_ensures {buffered : List Byte} (hE : E run) :
    Ensures (fun _ run' => run' = run ∧ buffered = [] ∧
        run.handed.length = artifact.compressedSize ∧
        os.blake3 run.handed = artifact.compressedBlake3) E
      (checkConsumed os artifact.compressedSize artifact.compressedBlake3 buffered) run := by
  rw [checkConsumed]
  refine (ensures_state (Q := fun seen run' => seen = run ∧ run' = run) ⟨rfl, rfl⟩).bind ?_
  rintro _ run ⟨rfl, rfl⟩
  refine ensures_ofExcept (fun _ hok => ?_) fun _ _ => hE
  obtain ⟨-, hok⟩ := bind_unit_ok.mp hok
  obtain ⟨hs, hdig⟩ := bind_unit_ok.mp hok
  obtain ⟨hn, hs⟩ := of_decide_eq_true (require_ok.mp hs)
  exact ⟨rfl, eq_nil_of_length_eq_zero hn, hs, of_decide_eq_true (require_ok.mp hdig)⟩

theorem finishContent_ensures {content : ContentIdentity} {state : decoder.State}
    (hc : IsContent os artifact content run.sink) (h : Decoding os artifact run.sink run) :
    Ensures (fun content' run' => content' = content ∧ Received os artifact content run' ∧
        WithinSigned artifact run') (WithinSigned artifact)
      (artifact.finishContent os decoder content state) run := by
  have hsi := hc.size.le
  rw [finishContent]
  refine (pull_ensures (decoder.finishFrame state) h _).bind fun finished run' h => ?_
  rw [← h.sink] at hc
  refine (ensures_ofExcept (Q := fun _ run'' => run'' = run') (fun _ _ => rfl)
    fun _ _ => h.bounded hsi).bind ?_
  rintro _ run rfl
  have hbd := h.bounded hsi
  refine (Ensures.of_ok (x := finish decoder finished.2)
    (Q := fun buffered run' => run' = { run with left := some buffered }) rfl rfl).bind ?_
  rintro buffered _ rfl
  have hl : WithinSigned artifact { run with left := some buffered } :=
    ⟨hbd.hashed, hbd.handed, hbd.sink⟩
  refine (checkConsumed_ensures hl).bind ?_
  rintro _ _ ⟨rfl, rfl, hs, hdig⟩
  exact .of_ok (pure_run _ _) ⟨rfl, ⟨hs, hdig, rfl, hc⟩, hbd.hashed, hbd.handed, hbd.sink⟩

variable (os decoder artifact) in
theorem verifyContent_ensures :
    Ensures (fun content run => Received os artifact content run ∧ WithinSigned artifact run)
      (WithinSigned artifact) (artifact.verifyContent os decoder) {} := by
  have hs : Hashing {} 0 := ⟨rfl, rfl, rfl⟩
  rw [verifyContent]
  refine (ensures_ofExcept (Q := fun _ run => run = {}) (fun _ _ => rfl)
    fun _ _ => hs.bounded (Nat.zero_le _)).bind ?_
  rintro _ run rfl
  refine (hashExactCompressed_ensures hs).bind ?_
  rintro _ run ⟨h, hdig⟩
  have hbd := h.bounded le_rfl
  refine (ensures_ofExcept (Q := fun _ run' => run' = run) (fun _ _ => rfl) fun _ _ => hbd).bind ?_
  rintro _ run rfl
  refine (ensures_ofExcept (Q := fun _ run' => run' = run) (fun _ _ => rfl) fun _ _ => hbd).bind ?_
  rintro _ run rfl
  have hde : Decoding os artifact [] { run with limit := artifact.compressedSize + 1 } :=
    ⟨h.hashed, hdig, by rw [h.handed]; rfl, h.sink⟩
  refine (Ensures.of_ok (x := take (artifact.compressedSize + 1))
    (Q := fun _ run' => Decoding os artifact [] run') rfl hde).bind fun _ run h => ?_
  refine (decodeContent_ensures h).bind ?_
  rintro ⟨content, state⟩ run ⟨hc, h⟩
  refine (finishContent_ensures hc h).mono ?_
  rintro _ run' ⟨rfl, hre, hbd⟩
  exact ⟨hre, hbd⟩

/-- A receipt stands for signed bytes in both domains, all of them consumed, and no run, refused
or not, hands over or writes out more than the signed sizes allow. -/
theorem verifyContent_signed (os : FullOs) (decoder : Decoder) (artifact : SignedFullArtifact) :
    let r := artifact.verifyContent os decoder {}
    (∀ content, r.1 = .ok content →
      (r.2.handed.length = artifact.compressedSize ∧
        os.blake3 r.2.handed = artifact.compressedBlake3) ∧
      r.2.left = some [] ∧
      (r.2.sink.length = artifact.contentSize ∧
        os.blake3 r.2.sink = artifact.identity.contentBlake3) ∧
      content = {
        identity := artifact.identity
        contentSize := artifact.contentSize
        contentBlake3 := artifact.identity.contentBlake3 }) ∧
    r.2.hashed.length ≤ artifact.compressedSize ∧
    r.2.handed.length ≤ artifact.compressedSize + 1 ∧
    r.2.sink.length ≤ artifact.contentSize := by
  intro r
  have hen := verifyContent_ensures os decoder artifact
  rcases hr : artifact.verifyContent os decoder {} with ⟨result, run⟩
  have hr' : r = (result, run) := hr
  rw [hr']
  cases result with
  | error err =>
    have hbd := hen.error hr
    exact ⟨nofun, hbd.hashed, hbd.handed, hbd.sink⟩
  | ok content =>
    obtain ⟨hre, hbd⟩ := hen.ok hr
    refine ⟨?_, hbd.hashed, hbd.handed, hbd.sink⟩
    rintro _ ⟨⟩
    exact ⟨⟨hre.handedSize, hre.handedDigest⟩, hre.left,
      ⟨hre.content.size, hre.content.digest⟩, hre.content.content⟩

/-! ## A receipt is no archive -/

/-- The zstd frame of one byte of content. -/
def smallFrame : List Byte := [0x28, 0xb5, 0x2f, 0xfd, 0x20, 0x01, 0x09, 0x00, 0x00, 0x07]

def smallContent : List Byte := [0x07]

def smallFrameDigest : Digest :=
  0xb3bd5ecf4fbb416a75ee326bc2d711174efec9385c1af50c01449be828e6daa8#256

def smallContentDigest : Digest :=
  0xf471faf6a2f6e0b4c9d3c445d57cba33f6d652dc848e0f694a152496ddd88b44#256

/-- A file of the frame, read twice from its start, and a sink that takes everything. -/
def smallOs : FullOs where
  streamPosition := .ok ()
  seek := .ok ()
  read n room := .ok ⟨(if n = 1 then [] else smallFrame).take room, length_take_le _ _⟩
  write _ _ := none
  blake3 bytes := if bytes = smallFrame then smallFrameDigest else smallContentDigest

/-- A decoder that has its input in one read and knows this frame. -/
def smallDecoder : Decoder where
  State := Bool
  new := .ok false
  read consumed :=
    if consumed then .done (.ok ⟨[], Nat.zero_le _⟩, true)
    else .pull 131075 fun answer =>
      match answer with
      | .ok bytes =>
        if bytes = smallFrame then .done (.ok ⟨smallContent, by decide⟩, true)
        else .done (.error "Unknown frame descriptor", false)
      | .error error => .done (.error error, false)
  finishFrame state := .done (.ok (), state)
  buffer _ := []

def smallStart : smallDecoder.State := false

def smallEnd : smallDecoder.State := true

def smallArtifact : SignedFullArtifact where
  identity := {
    appId := "app"
    channel := .stable
    target := "windows-x64"
    version := "1.0.0"
    contentBlake3 := smallContentDigest }
  publishedAt := ""
  url := ""
  compressedSize := 10
  compressedBlake3 := smallFrameDigest
  contentSize := 1

theorem hashFrom_small :
    hashFrom smallOs 10 0 {} = (.ok (), { reads := 1, hashed := smallFrame }) := by
  rw [hashFrom, if_pos (by decide)]
  show hashFrom smallOs 10 10 { reads := 1, hashed := smallFrame } = _
  rw [hashFrom, if_neg (by decide)]
  rfl

theorem decodeFrom_small :
    decodeFrom smallOs smallDecoder 1 0 [] smallStart
        { reads := 2, hashed := smallFrame, limit := 11 } =
      (.ok (1, smallContent, smallEnd), {
        reads := 3, writes := 1, hashed := smallFrame, limit := 1, handed := smallFrame,
        sink := smallContent }) := by
  rw [decodeFrom]
  show decodeFrom smallOs smallDecoder 1 1 smallContent smallEnd {
    reads := 3, writes := 1, hashed := smallFrame, limit := 1, handed := smallFrame,
    sink := smallContent } = _
  rw [decodeFrom]
  rfl

/-- Content that is no archive has a receipt: it is parsed only behind it. -/
theorem receipt_of_no_archive :
    (smallArtifact.verifyContent smallOs smallDecoder {}).1 = .ok {
      identity := smallArtifact.identity
      contentSize := 1
      contentBlake3 := smallContentDigest } ∧
    (smallArtifact.verifyContent smallOs smallDecoder {}).2.sink = smallContent ∧
    ∀ env receipt archive,
      Archive.parseContentArchive env receipt ⟨smallContent, 0⟩ ≠ .ok archive := by
  have hha : hashExactCompressed smallOs 10 smallFrameDigest {} =
      (.ok (), { reads := 2, hashed := smallFrame }) := by
    rw [hashExactCompressed, bind_run_ok hashFrom_small]
    rfl
  have hde : smallArtifact.decodeContent smallOs smallDecoder
      { reads := 2, hashed := smallFrame, limit := 11 } =
        (.ok (⟨smallArtifact.identity, 1, smallContentDigest⟩, smallEnd), {
          reads := 3, writes := 1, hashed := smallFrame, limit := 1, handed := smallFrame,
          sink := smallContent }) := by
    rw [decodeContent]
    refine (ofExcept_bind_run (a := smallStart) rfl).trans ?_
    exact (bind_run_ok decodeFrom_small).trans rfl
  have hr : smallArtifact.verifyContent smallOs smallDecoder {} =
      (.ok ⟨smallArtifact.identity, 1, smallContentDigest⟩, {
        reads := 3, writes := 1, hashed := smallFrame, limit := 1, handed := smallFrame,
        left := some [], sink := smallContent }) := by
    rw [verifyContent]
    refine (ofExcept_bind_run (a := ()) rfl).trans ?_
    refine (bind_run_ok hha).trans ?_
    refine (ofExcept_bind_run (a := ()) rfl).trans ?_
    refine (ofExcept_bind_run (a := ()) rfl).trans ?_
    refine (bind_run_ok (x := take 11) (a := ()) rfl).trans ?_
    exact (bind_run_ok hde).trans rfl
  refine ⟨congrArg Prod.fst hr, congrArg (fun r => r.2.sink) hr, fun env receipt archive h => ?_⟩
  obtain ⟨items, -, hre, -⟩ := Archive.parseContentArchive_ok h
  -- an archive ends with two blocks of zeros
  have hl := congrArg List.length hre
  rw [Archive.canonical, length_append, length_append, Archive.length_zeros] at hl
  have hsm : (Archive.Input.rest ⟨smallContent, 0⟩).length = 1 := rfl
  rw [hsm, Pack.blockBytes] at hl
  omega

end Keld.Update
