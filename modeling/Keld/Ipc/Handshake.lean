/-
# `Keld.Ipc.Handshake` — the session token exchange

The server reads the peer's `HELLO`, compares the token it carries with its own
and only then writes its token.  So nothing it does before the comparison
depends on the token: `handshake_secrecy` says that the server writes, or
succeeds, only for a peer whose stream begins with the server's own `HELLO`,
and that on any other stream two servers with different tokens cannot be told
apart.
-/
import Keld.Ipc.RoundTrip

namespace Keld.Ipc

open List Proc

/-- The 32 secret bytes of a session. -/
structure SessionToken where
  bytes : List Byte
  len : bytes.length = sessionTokenLen
deriving DecidableEq

/-- Equality in constant time: the differences of all bytes are collected. -/
def SessionToken.sameAs (token other : SessionToken) : Bool :=
  (token.bytes.zip other.bytes).foldl (fun diff pair => diff ||| (pair.1 ^^^ pair.2)) 0 == 0

theorem foldl_or_xor_eq_zero {left right : List Byte} (h : left.length = right.length)
    (diff : Byte) :
    (left.zip right).foldl (fun diff pair => diff ||| (pair.1 ^^^ pair.2)) diff = 0 ↔
      diff = 0 ∧ left = right := by
  induction left generalizing right diff with
  | nil =>
    cases right with
    | nil => simp
    | cons b right => cases h
  | cons a left ih =>
    cases right with
    | nil => cases h
    | cons b right =>
      rw [zip_cons_cons, foldl_cons, ih (Nat.succ.inj h), UInt8.or_eq_zero_iff,
        UInt8.xor_eq_zero_iff, List.cons.injEq, and_assoc]

theorem SessionToken.sameAs_iff {token other : SessionToken} :
    token.sameAs other = true ↔ token = other := by
  have hl : token.bytes.length = other.bytes.length := token.len.trans other.len.symm
  rw [sameAs, beq_iff_eq, foldl_or_xor_eq_zero hl]
  cases token
  cases other
  simp

def SessionToken.tryFromSlice (bytes : List Byte) : Except IpcError SessionToken :=
  if h : bytes.length = sessionTokenLen then .ok ⟨bytes, h⟩
  else .error (.helloAuth "HELLO payload must be a 32-byte session token")

/-- The `HELLO` frame of a token. -/
def hello (token : SessionToken) : Frame := ⟨.hello, 0, handshakeChannel, ⟨0⟩, token.bytes⟩

def writeHello (env : Env) (token : SessionToken) : Io Unit := writeFrame env (hello token)

def verifyHelloToken (payload : List Byte) (token : SessionToken) : Except IpcError Unit := do
  let peer ← SessionToken.tryFromSlice payload
  require (peer.sameAs token) (.helloAuth "HELLO session token mismatch")

def readAndVerifyHello (env : Env) (token : SessionToken) (policy : ReceivePolicy) : Io Unit := do
  let (_, payload) ← readValidatedFrame env policy
  orFail (verifyHelloToken payload token)

def handshakeClient (env : Env) (token : SessionToken) : Io Unit := do
  writeHello env token
  readAndVerifyHello env token .clientAwaitHello

def handshakeServer (env : Env) (token : SessionToken) : Io Unit := do
  readAndVerifyHello env token .serverPreAuthHello
  writeHello env token

/-- `stop.load`, then the absolute deadline; `false` when a stop was requested. -/
def stillWanted (env : Env) (deadline : Instant) : Io Bool := fun link =>
  let stopped := env.stop link.loads
  let link := { link with loads := link.loads + 1 }
  if stopped then (.ok false, link)
  else if link.passed env (some deadline) then
    (.error (.failed .timeout), link.checked env (some deadline))
  else (.ok true, link.checked env (some deadline))

/-- Whether the handshake was completed; it is not when it was stopped. -/
def handshakeServerInterruptibleUntil (env : Env) (token : SessionToken) (deadline : Instant) :
    Io Bool := do
  match ← readValidatedFrameInterruptible env (some deadline) .serverPreAuthHello with
  | none => return false
  | some (_, payload) =>
    if ← stillWanted env deadline then
      orFail (verifyHelloToken payload token)
      writeHello env token
      return true
    else return false

/-! ## What a validated read has seen -/

/-- A script that begins with this frame. -/
def BeginsWith (frame : Frame) (link : Link) : Prop := frame.bytes <+: arriving link.script

variable {payload : List Byte} {direction : Direction} {α : Type} {v : ValidatedFrameHeader}

theorem verifyHelloToken_ok {token : SessionToken} :
    verifyHelloToken payload token = .ok () ↔ payload = token.bytes := by
  unfold verifyHelloToken SessionToken.tryFromSlice
  split_ifs with hl
  · simp only [bind, Except.bind]
    rw [require_ok, SessionToken.sameAs_iff]
    cases token
    simp
  · constructor
    · intro h
      cases h
    · rintro rfl
      exact absurd token.len hl

theorem verifyHelloToken_refused {token : SessionToken} (hl : payload.length = sessionTokenLen)
    (h : payload ≠ token.bytes) :
    verifyHelloToken payload token = .error (.helloAuth "HELLO session token mismatch") := by
  have hne : ¬ SessionToken.sameAs ⟨payload, hl⟩ token = true := by
    rw [SessionToken.sameAs_iff]
    intro he
    exact h (congrArg SessionToken.bytes he)
  unfold verifyHelloToken SessionToken.tryFromSlice
  rw [dif_pos hl]
  simp only [bind, Except.bind, require, if_neg hne]

/-- The header a `HELLO` policy admits is the one every `HELLO` has. -/
theorem hello_policy_header {header : FrameHeader}
    (h : (ReceivePolicy.hello direction).check header = .ok ()) (token : SessionToken) :
    header = (hello token).header := by
  unfold ReceivePolicy.check at h
  have hpi : ((ReceivePolicy.hello direction).allowPing && header.kind == .ping) = false := rfl
  rw [hpi, if_neg Bool.false_ne_true] at h
  simp only [bind_unit_ok, require_ok, beq_iff_eq, Bool.or_eq_true, and_not_structuredFlagsMask,
    AllowedKinds.contains_only, ReceivePolicy.hello, ExpectedCorrelation.check,
    PayloadMode.check] at h
  obtain ⟨hk, -, hfl, hc, hco, hl⟩ := h
  have hc : header.channel = handshakeChannel := by simpa using hc
  have hl' : header.len = UInt32.ofNat token.bytes.length := by rw [hl, token.len]
  obtain ⟨kind, flags, channel, corr, len⟩ := header
  simp only at hk hfl hc hco hl'
  simp [hello, Frame.header, hk, hfl, hc, hco, hl']

/-! ## The read half only reads -/

/-- Whatever happens, nothing is written. -/
def ReadsOnly {α : Type} (x : Io α) : Prop := ∀ link, OnlyRead link (x link).2

theorem ReadsOnly.bind {β : Type} {x : Io α} {f : α → Io β} (hx : ReadsOnly x)
    (hf : ∀ a, ReadsOnly (f a)) : ReadsOnly (x >>= f) := by
  intro link
  have hx := hx link
  rcases hr : x link with ⟨r, link'⟩
  rw [hr] at hx
  cases r with
  | ok a =>
    rw [bind_run_ok hr]
    exact hx.trans (hf a link')
  | error e =>
    rw [bind_run_error hr]
    exact hx

theorem readsOnly_pure (a : α) : ReadsOnly (pure a) := OnlyRead.refl

theorem readsOnly_orFail (r : Except IpcError α) : ReadsOnly (orFail r) := OnlyRead.refl

section ReadHalf

variable {env : Env}

theorem readExactStalledWith_readsOnly (limit : Duration) (len : Nat) (stall : Option Instant) :
    ReadsOnly (readExactStalledWith env limit len stall) := by
  intro link
  unfold readExactStalledWith
  split_ifs
  · exact .refl link
  · obtain ⟨fin, hr⟩ := readExactStalledLoop_reads env limit link.script link stall [] len
    exact hr.onlyRead

theorem readExactInterruptible_readsOnly (deadlines : Deadlines) (limit : Duration) (len : Nat)
    (stall : Option Instant) :
    ReadsOnly (readExactInterruptible env deadlines limit len stall) := by
  intro link
  unfold readExactInterruptible
  split_ifs
  · exact .refl link
  · obtain ⟨fin, hr⟩ :=
      readExactInterruptibleLoop_reads env deadlines limit link.script link stall [] len
    exact hr.onlyRead

theorem readValidatedFrame_readsOnly (env : Env) (policy : ReceivePolicy) :
    ReadsOnly (readValidatedFrame env policy) :=
  (readExactStalledWith_readsOnly _ _ _).bind fun _ => (readsOnly_orFail _).bind fun _ =>
    (readsOnly_orFail _).bind fun _ => (readExactStalledWith_readsOnly _ _ _).bind fun _ =>
      readsOnly_pure _

theorem readFrameInterruptibleValidatedWith_readsOnly {τ : Type} (env : Env)
    (deadlines : Deadlines) (limit : Duration) (validate : FrameHeader → Except IpcError τ) :
    ReadsOnly (readFrameInterruptibleValidatedWith env deadlines limit validate) := by
  refine (readExactInterruptible_readsOnly _ _ _ _).bind fun header => ?_
  cases header with
  | none => exact readsOnly_pure _
  | some r =>
    refine (readsOnly_orFail _).bind fun _ => (readsOnly_orFail _).bind fun _ =>
      (readExactInterruptible_readsOnly _ _ _ _).bind fun payload => ?_
    cases payload <;> exact readsOnly_pure _

theorem readValidatedFrameInterruptible_readsOnly (env : Env) (hard : Option Instant)
    (policy : ReceivePolicy) :
    ReadsOnly (readValidatedFrameInterruptible env hard policy) :=
  (readFrameInterruptibleValidatedWith_readsOnly _ _ _ _).bind fun _ => readsOnly_orFail _

variable {len : Nat} {link' : Link} {bytes payload : List Byte} {limit : Duration}
  {stall stall' : Option Instant} {policy : ReceivePolicy} {v : ValidatedFrameHeader}

/-- A read that returned took its bytes off the front of the stream. -/
theorem ReadsAs.returned {α : Type} {polls : Bool} {stops : Link → Prop}
    {bytesOf : α → Option (List Byte)} {link : Link} {a : α} {fin : ReadEnd}
    (hr : ReadsAs polls stops bytesOf link.script [] len link (.ok a, link') fin)
    (ha : bytesOf a = some bytes) :
    bytes.length = len ∧ arriving link.script = bytes ++ arriving link'.script := by
  have hou := hr.outcome
  cases fin with
  | waiting | refused => cases hou
  | gaveUp =>
    rcases hou with h | ⟨b, hb, hn⟩
    · cases h
    · cases hb
      rw [ha] at hn
      cases hn
  | full found =>
    obtain ⟨b, hb, hf⟩ := hou
    cases hb
    rw [ha] at hf
    cases hf
    obtain ⟨hle, hby, hl⟩ := hr.reads.full
    rw [nil_append] at hby
    rw [hby, hl, length_take, take_append_drop]
    exact ⟨by omega, rfl⟩

/-- `read_exact` takes its bytes off the stream, or the stream was cut or ran short. -/
theorem readExactIo_cases (len : Nat) (link : Link) :
    (∃ bytes link', readExactIo len link = (.ok bytes, link') ∧ bytes.length = len ∧
      arriving link.script = bytes ++ arriving link'.script ∧
      (Steady false link.script → Steady false link'.script)) ∨
    ∃ halt link', readExactIo len link = (.error halt, link') ∧
      (¬ Steady false link.script ∨ (arriving link.script).length < len) := by
  by_cases hl : len = 0
  · refine .inl ⟨[], link, ?_, hl.symm, rfl, id⟩
    unfold readExactIo
    rw [if_pos hl]
  obtain ⟨fin, hr⟩ := readExactLoop_reads link.script link [] len
  have hru : readExactIo len link = readExactLoop link [] len link.script := by
    unfold readExactIo
    rw [if_neg hl]
  rw [hru]
  rcases hlo : readExactLoop link [] len link.script with ⟨r, link'⟩
  rw [hlo] at hr
  cases r with
  | ok bytes =>
    obtain ⟨hby, harr⟩ := ReadsAs.returned hr rfl
    refine .inl ⟨bytes, link', rfl, hby, harr, fun hst => ?_⟩
    refine (hr.reads.steady hst).2 ?_
    rintro rfl
    exact hr.cause rfl
  | error halt =>
    refine .inr ⟨halt, link', rfl, ?_⟩
    cases fin with
    | full bytes =>
      obtain ⟨a, ha, -⟩ := hr.outcome
      cases ha
    | waiting => exact .inr (hr.reads.waiting_short (Nat.pos_of_ne_zero hl)).1
    | refused err => exact .inl fun hst => (hr.reads.steady hst).1 err rfl
    | gaveUp => exact absurd rfl (fun h => hr.cause h)

theorem readExactIo_onlyRead (len : Nat) (link : Link) :
    OnlyRead link (readExactIo len link).2 := by
  unfold readExactIo
  split_ifs with hl
  · exact .refl link
  · obtain ⟨fin, hr⟩ := readExactLoop_reads link.script link [] len
    exact hr.onlyRead

theorem readExactStalledWith_ok {link : Link}
    (h : readExactStalledWith env limit len stall link = (.ok (bytes, stall'), link')) :
    bytes.length = len ∧ arriving link.script = bytes ++ arriving link'.script := by
  unfold readExactStalledWith at h
  split_ifs at h with hl
  · cases h
    exact ⟨hl.symm, rfl⟩
  · obtain ⟨fin, hr⟩ := readExactStalledLoop_reads env limit link.script link stall [] len
    rw [h] at hr
    exact hr.returned rfl

theorem readExactInterruptible_ok {deadlines : Deadlines} {link : Link}
    (h : readExactInterruptible env deadlines limit len stall link = (.ok (some (bytes, stall')),
      link')) :
    bytes.length = len ∧ arriving link.script = bytes ++ arriving link'.script := by
  unfold readExactInterruptible at h
  split_ifs at h with hl
  · cases h
    exact ⟨hl.symm, rfl⟩
  · obtain ⟨fin, hr⟩ :=
      readExactInterruptibleLoop_reads env deadlines limit link.script link stall [] len
    rw [h] at hr
    exact hr.returned rfl

/-- A frame that was read and admitted stood at the front of the stream. -/
structure TookFrame (policy : ReceivePolicy) (link : Link) (v : ValidatedFrameHeader)
    (payload : List Byte) : Prop where
  admitted : policy.check v.header = .ok ()
  len : payload.length = v.header.len.toNat
  front : v.header.encode ++ payload <+: arriving link.script

theorem readValidatedFrame_ok {link : Link}
    (h : readValidatedFrame env policy link = (.ok (v, payload), link')) :
    TookFrame policy link v payload := by
  obtain ⟨⟨bytes, stall⟩, link₁, hh, h⟩ := bind_ok_iff.mp h
  obtain ⟨header, link₂, hdecd, h⟩ := bind_ok_iff.mp h
  obtain ⟨validated, link₃, hva, h⟩ := bind_ok_iff.mp h
  obtain ⟨⟨body, stall'⟩, link₄, hb, h⟩ := bind_ok_iff.mp h
  cases h
  obtain ⟨hde, rfl⟩ := orFail_ok hdecd
  obtain ⟨hv, rfl⟩ := orFail_ok hva
  obtain ⟨hch, rfl⟩ := validateReceivedHeader_ok.mp hv
  obtain ⟨hl, hfr⟩ := readExactStalledWith_ok hh
  obtain ⟨hbodyLen, hbodyFront⟩ := readExactStalledWith_ok hb
  refine ⟨hch, hbodyLen, ?_⟩
  rw [FrameHeader.encode_decode hl (decodeBounded_ok.mp hde).1, hfr, hbodyFront, ← append_assoc]
  exact prefix_append _ _

theorem readValidatedFrameInterruptible_ok {hard : Option Instant} {link : Link}
    (h : readValidatedFrameInterruptible env hard policy link = (.ok (some (v, payload)), link')) :
    TookFrame policy link v payload := by
  obtain ⟨frame, link₁, hf, hmint⟩ := bind_ok_iff.mp h
  obtain ⟨hmi, rfl⟩ := orFail_ok hmint
  obtain ⟨header, link₂, hh, hf⟩ := bind_ok_iff.mp hf
  cases header with
  | none =>
    cases hf
    cases hmi
  | some r =>
    obtain ⟨found, link₃, hdecd, hf⟩ := bind_ok_iff.mp hf
    obtain ⟨kept, link₄, hva, hf⟩ := bind_ok_iff.mp hf
    obtain ⟨body, link₅, hb, hf⟩ := bind_ok_iff.mp hf
    obtain ⟨hde, rfl⟩ := orFail_ok hdecd
    obtain ⟨hv, rfl⟩ := orFail_ok hva
    obtain ⟨first, -, hk⟩ := bind_ok.mp hv
    cases hk
    cases body with
    | none =>
      cases hf
      cases hmi
    | some body =>
      cases hf
      obtain ⟨second, hse, hpa⟩ := bind_ok.mp hmi
      cases hpa
      obtain ⟨hch, rfl⟩ := validateReceivedHeader_ok.mp hse
      obtain ⟨hl, hfr⟩ := readExactInterruptible_ok hh
      obtain ⟨hbodyLen, hbodyFront⟩ := readExactInterruptible_ok hb
      refine ⟨hch, hbodyLen, ?_⟩
      rw [FrameHeader.encode_decode hl (decodeBounded_ok.mp hde).1, hfr, hbodyFront, ← append_assoc]
      exact prefix_append _ _

end ReadHalf

/-! ## Secrecy -/

theorem TookFrame.beginsWith {link : Link} {token : SessionToken}
    (h : TookFrame (.hello direction) link v payload) (hp : payload = token.bytes) :
    BeginsWith (hello token) link := by
  have hh := hello_policy_header h.admitted token
  have hfr := h.front
  rw [hh, hp] at hfr
  exact hfr

theorem TookFrame.payload_length {link : Link} (token : SessionToken)
    (h : TookFrame (.hello direction) link v payload) : payload.length = sessionTokenLen := by
  have hf : (hello token).Fits := by
    show token.bytes.length ≤ maxFrameLen
    rw [token.len]
    decide
  rw [h.len, hello_policy_header h.admitted token, hf.len]
  exact token.len

section Secrecy

variable {env : Env} {token : SessionToken} {link : Link}

/-- Until it has compared the token, the server has only read; on a stream that does not begin with
its `HELLO` it stops there, at a point the token has no part in. -/
theorem handshakeServer_stranger (h : ¬ BeginsWith (hello token) link) :
    handshakeServer env token link =
      match readValidatedFrame env .serverPreAuthHello link with
      | (.ok _, link') => (.error (.failed (.helloAuth "HELLO session token mismatch")), link')
      | (.error halt, link') => (.error halt, link') := by
  unfold handshakeServer readAndVerifyHello
  rcases hr : readValidatedFrame env .serverPreAuthHello link with ⟨r, link'⟩
  cases r with
  | error halt => rw [bind_run_error (bind_run_error hr)]
  | ok p =>
    obtain ⟨v, payload⟩ := p
    have ht := readValidatedFrame_ok hr
    have hne : payload ≠ token.bytes := fun hp => h (ht.beginsWith hp)
    have href := verifyHelloToken_refused (ht.payload_length token) hne
    refine bind_run_error ?_
    rw [bind_run_ok hr]
    simp only [href]
    rfl

theorem handshakeServer_stranger_written (env : Env) (h : ¬ BeginsWith (hello token) link) :
    (handshakeServer env token link).1 ≠ .ok () ∧
      (handshakeServer env token link).2.written = link.written := by
  have hre := readValidatedFrame_readsOnly env .serverPreAuthHello link
  rw [handshakeServer_stranger h]
  rcases hr : readValidatedFrame env .serverPreAuthHello link with ⟨r, link'⟩
  rw [hr] at hre
  cases r with
  | error | ok => exact ⟨nofun, hre.written⟩

theorem stillWanted_readsOnly (env : Env) (deadline : Instant) :
    ReadsOnly (stillWanted env deadline) := by
  intro link
  have hchk := (OnlyRead.loaded link).trans (.checked env _ (some deadline))
  unfold stillWanted
  dsimp only
  split_ifs
  · exact .loaded link
  · exact hchk
  · exact hchk

/-- The interruptible server up to the comparison. -/
def interruptiblePrelude (env : Env) (deadline : Instant) : Io Bool := do
  match ← readValidatedFrameInterruptible env (some deadline) .serverPreAuthHello with
  | none => return false
  | some _ => stillWanted env deadline

theorem interruptiblePrelude_readsOnly (env : Env) (deadline : Instant) :
    ReadsOnly (interruptiblePrelude env deadline) := by
  refine (readValidatedFrameInterruptible_readsOnly _ _ _).bind fun frame => ?_
  cases frame with
  | none => exact readsOnly_pure _
  | some r => exact stillWanted_readsOnly env deadline

theorem handshakeServerInterruptibleUntil_stranger {deadline : Instant}
    (h : ¬ BeginsWith (hello token) link) :
    handshakeServerInterruptibleUntil env token deadline link =
      match interruptiblePrelude env deadline link with
      | (.ok false, link') => (.ok false, link')
      | (.ok true, link') => (.error (.failed (.helloAuth "HELLO session token mismatch")), link')
      | (.error halt, link') => (.error halt, link') := by
  unfold handshakeServerInterruptibleUntil interruptiblePrelude
  rcases hr : readValidatedFrameInterruptible env (some deadline) .serverPreAuthHello link with
    ⟨r, link₁⟩
  cases r with
  | error halt => rw [bind_run_error hr, bind_run_error hr]
  | ok frame =>
    rw [bind_run_ok hr, bind_run_ok hr]
    cases frame with
    | none => rfl
    | some p =>
      obtain ⟨v, payload⟩ := p
      have ht := readValidatedFrameInterruptible_ok hr
      have hne : payload ≠ token.bytes := fun hp => h (ht.beginsWith hp)
      have href := verifyHelloToken_refused (ht.payload_length token) hne
      dsimp only
      rcases hw : stillWanted env deadline link₁ with ⟨w, link₂⟩
      cases w with
      | error halt => rw [bind_run_error hw]
      | ok wanted =>
        rw [bind_run_ok hw, href]
        cases wanted <;> rfl

theorem handshakeServerInterruptibleUntil_stranger_written (env : Env) (deadline : Instant)
    (h : ¬ BeginsWith (hello token) link) :
    (handshakeServerInterruptibleUntil env token deadline link).1 ≠ .ok true ∧
      (handshakeServerInterruptibleUntil env token deadline link).2.written = link.written := by
  have hre := interruptiblePrelude_readsOnly env deadline link
  rw [handshakeServerInterruptibleUntil_stranger h]
  rcases hr : interruptiblePrelude env deadline link with ⟨r, link'⟩
  rw [hr] at hre
  cases r with
  | error halt => exact ⟨nofun, hre.written⟩
  | ok wanted => cases wanted <;> exact ⟨nofun, hre.written⟩

/-- Both servers write a byte, or succeed, only for a peer whose stream begins with the server's
own `HELLO`; on a stream that begins with neither of two tokens' `HELLO`s the servers of the two
tokens do the same in every respect, reads and writes included. -/
structure TokenSecrecy (env : Env) (link : Link) : Prop where
  server : ∀ token, (handshakeServer env token link).1 = .ok () ∨
    (handshakeServer env token link).2.written ≠ link.written → BeginsWith (hello token) link
  interruptible : ∀ token deadline,
    (handshakeServerInterruptibleUntil env token deadline link).1 = .ok true ∨
      (handshakeServerInterruptibleUntil env token deadline link).2.written ≠ link.written →
    BeginsWith (hello token) link
  serverAlike : ∀ token other, ¬ BeginsWith (hello token) link → ¬ BeginsWith (hello other) link →
    handshakeServer env token link = handshakeServer env other link
  interruptibleAlike : ∀ token other deadline, ¬ BeginsWith (hello token) link →
    ¬ BeginsWith (hello other) link →
    handshakeServerInterruptibleUntil env token deadline link =
      handshakeServerInterruptibleUntil env other deadline link

theorem handshake_keeps_token (env : Env) (link : Link) : TokenSecrecy env link where
  server := by
    intro token h
    by_contra hbeg
    obtain ⟨hok, hw⟩ := handshakeServer_stranger_written env hbeg
    exact h.elim hok (fun hne => hne hw)
  interruptible := by
    intro token deadline h
    by_contra hbeg
    obtain ⟨hok, hw⟩ := handshakeServerInterruptibleUntil_stranger_written env deadline hbeg
    exact h.elim hok (fun hne => hne hw)
  serverAlike := by
    intro token other h h'
    rw [handshakeServer_stranger h, handshakeServer_stranger h']
  interruptibleAlike := by
    intro token other deadline h h'
    rw [handshakeServerInterruptibleUntil_stranger h, handshakeServerInterruptibleUntil_stranger h']

end Secrecy

end Keld.Ipc
