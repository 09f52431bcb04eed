/-
# `Keld.Ipc.RendezvousPrograms` — what the two programs read and write

A client that completes has read both nonces, a challenge and its receipt
(`client_completed`).  An attempt of the listener writes two `HELLO`s and a
challenge, or the beginning of that (`admitPeer_speaks`); one that is
acknowledged has read the answer to what it wrote (`admitPeer_acknowledged`).
-/
import Keld.Ipc.RendezvousRecords

namespace Keld.Ipc

open List

/-! ## Reads -/

section Reads

variable {env : Env} {link link' : Link} {direction : Direction}

theorem readValidatedFrame_front {policy : ReceivePolicy} {v : ValidatedFrameHeader}
    {payload : List Byte} (h : readValidatedFrame env policy link = (.ok (v, payload), link')) :
    arriving link.script = v.header.encode ++ payload ++ arriving link'.script := by
  obtain ⟨⟨bytes, stall⟩, link₁, hh, h⟩ := Proc.bind_ok_iff.mp h
  obtain ⟨header, link₂, hdecd, h⟩ := Proc.bind_ok_iff.mp h
  obtain ⟨validated, link₃, hva, h⟩ := Proc.bind_ok_iff.mp h
  obtain ⟨⟨body, stall'⟩, link₄, hb, h⟩ := Proc.bind_ok_iff.mp h
  cases h
  obtain ⟨hde, rfl⟩ := orFail_ok hdecd
  obtain ⟨hv, rfl⟩ := orFail_ok hva
  obtain ⟨-, rfl⟩ := validateReceivedHeader_ok.mp hv
  rw [header_front hh hde, (readExactStalledWith_ok hb).2, append_assoc]

/-- A nonce that was read came in its `HELLO`. -/
theorem readRendezvousHello_ok {nonce : SessionToken}
    (h : readRendezvousHello env (.hello direction) link = (.ok nonce, link')) :
    arriving link.script = (hello nonce).bytes ++ arriving link'.script := by
  obtain ⟨⟨v, payload⟩, link₁, hr, h⟩ := Proc.bind_ok_iff.mp h
  dsimp only at h
  split_ifs at h with hsh
  · cases h
    have hfr := readValidatedFrame_front hr
    rw [hello_policy_header (readValidatedFrame_ok hr).admitted ⟨payload, hsh.2⟩] at hfr
    exact hfr
  · obtain ⟨hn, -⟩ := orFail_ok h
    cases hn

theorem readAndVerifyHello_front {token : SessionToken}
    (h : readAndVerifyHello env token (.hello direction) link = (.ok (), link')) :
    arriving link.script = (hello token).bytes ++ arriving link'.script := by
  obtain ⟨⟨v, payload⟩, link₁, hr, h⟩ := Proc.bind_ok_iff.mp h
  obtain ⟨hve, rfl⟩ := orFail_ok h
  have hfr := readValidatedFrame_front hr
  rw [hello_policy_header (readValidatedFrame_ok hr).admitted token,
    verifyHelloToken_ok.mp hve] at hfr
  exact hfr

theorem readRecord_ok {bytes : List Byte} (h : readRecord link = (.ok bytes, link')) :
    bytes.length = lifecycleBindingRecordLen ∧
      arriving link.script = bytes ++ arriving link'.script := by
  have hr := Proc.mapError_ok h
  rcases readExactIo_cases lifecycleBindingRecordLen link with
    ⟨found, after, hf, hl, hfr, -⟩ | ⟨halt, after, hha, -⟩
  · rw [hf] at hr
    cases hr
    exact ⟨hl, hfr⟩
  · rw [hha] at hr
    cases hr

end Reads

theorem orRefuse_ok {α : Type} {r : Except RendezvousError α} {a : α} {link link' : Link}
    (h : orRefuse r link = (.ok a, link')) : r = .ok a ∧ link' = link := by
  obtain ⟨hr, hli⟩ := Proc.ofExcept_ok h
  cases r with
  | error err => cases hr
  | ok b =>
    cases hr
    exact ⟨rfl, hli⟩

theorem orIo_ok {α : Type} {r : Except ErrorKind α} {a : α} {link link' : Link}
    (h : orIo r link = (.ok a, link')) : link' = link := (Proc.ofExcept_ok h).2

variable {bytes : List Byte} {clientNonce serverNonce : SessionToken} {serverPid : UInt32}
  {ε : Type} {x : Proc Link ε Unit} {t : Transcript}

theorem writeRecord_ok {env : Env} {link link' : Link}
    (h : writeRecord env bytes link = (.ok (), link')) :
    link'.written = link.written ++ bytes ∧ link'.script = link.script := by
  unfold writeRecord at h
  split at h
  · cases h
    exact ⟨rfl, rfl⟩
  · cases h

theorem writeAll_script (env : Env) (bytes : List Byte) (link : Link) :
    (writeAll env bytes link).2.script = link.script := by
  unfold writeAll
  split <;> rfl

theorem writeHello_script {env : Env} {token : SessionToken} {link link' : Link}
    (h : writeHello env token link = (.ok (), link')) : link'.script = link.script := by
  obtain ⟨⟨⟩, -, h⟩ := Proc.ofExcept_bind_ok h
  obtain ⟨⟨⟩, link₂, hh, h⟩ := Proc.bind_ok_iff.mp h
  obtain ⟨⟨⟩, link₃, hpay, h⟩ := Proc.bind_ok_iff.mp h
  have hf := writeAll_script env (hello token).header.encode link
  rw [hh] at hf
  have hl := writeAll_script env [] link₃
  rw [show writeAll env [] link₃ = (.ok (), link') from h] at hl
  split_ifs at hpay with he
  · cases hpay
    exact hl.trans hf
  · have hmi := writeAll_script env (hello token).payload link₂
    rw [hpay] at hmi
    exact hl.trans (hmi.trans hf)

/-! ## A client that completes -/

/-- What is read on the way to a receipt. -/
def Transcript.confirmation (t : Transcript) : List Byte :=
  (hello t.clientNonce).bytes ++ (hello t.serverNonce).bytes ++
    lifecycleBindingRecord challengeMagic t ++ lifecycleBindingRecord receiptMagic t

theorem authenticateClient_ok {env : Env} {expectation : WindowsLifecycleExpectation}
    {clientPid : UInt32} {link link' : Link} {binding : WindowsLifecycleBinding}
    {knowledge : WindowsLifecycleBindingKnowledge}
    (h : authenticateLifecycleBindingClient env expectation clientNonce serverNonce clientPid
      serverPid link = (.ok (binding, knowledge), link')) :
    expectation.accepts binding = some knowledge ∧
      lifecycleBindingRecord challengeMagic
          ⟨binding, clientNonce, serverNonce, clientPid, serverPid⟩ ++
        lifecycleBindingRecord receiptMagic
          ⟨binding, clientNonce, serverNonce, clientPid, serverPid⟩ <+: arriving link.script := by
  obtain ⟨received, link₁, hre, h⟩ := Proc.bind_ok_iff.mp h
  obtain ⟨found, link₂, hdecd, h⟩ := Proc.bind_ok_iff.mp h
  obtain ⟨known, link₃, hk, h⟩ := Proc.bind_ok_iff.mp h
  obtain ⟨⟨⟩, link₄, hw, h⟩ := Proc.bind_ok_iff.mp h
  obtain ⟨receipt, link₅, hrc, h⟩ := Proc.bind_ok_iff.mp h
  obtain ⟨⟨⟩, link₆, hco, h⟩ := Proc.bind_ok_iff.mp h
  cases h
  obtain ⟨hl, hf⟩ := readRecord_ok hre
  obtain ⟨hde, rfl⟩ := orRefuse_ok hdecd
  obtain ⟨hac, rfl⟩ := orRefuse_ok hk
  obtain ⟨-, hse⟩ := readRecord_ok hrc
  have hs := beq_iff_eq.mp (require_ok.mp (orRefuse_ok hco).1)
  refine ⟨orElseError_ok.mp hac, ?_⟩
  rw [hf, (decodeLifecycleChallenge_iff hl).mp hde]
  rw [(writeRecord_ok hw).2] at hse
  rw [hse, hs]
  exact prefix_append_right_inj _ |>.mpr (prefix_append ..)

theorem handshakeClient_ok {env : Env} {random : Except IpcError SessionToken} {link link' : Link}
    (h : handshakeClientRendezvous env random link = (.ok (clientNonce, serverNonce), link')) :
    arriving link.script =
      (hello clientNonce).bytes ++ (hello serverNonce).bytes ++ arriving link'.script := by
  obtain ⟨nonce, link₁, hno, h⟩ := Proc.bind_ok_iff.mp h
  obtain ⟨⟨⟩, link₂, hw, h⟩ := Proc.bind_ok_iff.mp h
  obtain ⟨⟨⟩, link₃, hve, h⟩ := Proc.bind_ok_iff.mp h
  obtain ⟨answer, link₄, han, h⟩ := Proc.bind_ok_iff.mp h
  obtain ⟨⟨⟩, link₅, hans, h⟩ := Proc.bind_ok_iff.mp h
  cases h
  obtain ⟨-, rfl⟩ := orFail_ok hno
  have hf := readAndVerifyHello_front hve
  have hse := readRendezvousHello_ok han
  rw [writeHello_script hw] at hf
  rw [hf, hse, writeHello_script hans, append_assoc]

/-- A client that completes accepts its binding, and has read all of the listener's side. -/
theorem client_completed {client : HonestClient} {pid : UInt32} {met : List Delivery}
    {done : RendezvousClient} (h : (client.run pid serverPid met).1 = .ok done) :
    client.expectation.accepts done.transcript.binding = some done.bindingKnowledge ∧
      done.transcript.clientPid = pid ∧ done.transcript.serverPid = serverPid ∧
      done.transcript.confirmation <+: arriving met := by
  rcases hr : client.run pid serverPid met with ⟨r, link'⟩
  rw [hr] at h
  cases h
  obtain ⟨⟨⟩, -, hr⟩ := Proc.ofExcept_bind_ok hr
  obtain ⟨⟨⟩, -, hr⟩ := Proc.ofExcept_bind_ok hr
  obtain ⟨⟨⟩, -, hr⟩ := Proc.ofExcept_bind_ok hr
  obtain ⟨sessionId, -, hr⟩ := Proc.ofExcept_bind_ok hr
  obtain ⟨process, -, hr⟩ := Proc.ofExcept_bind_ok hr
  obtain ⟨⟨⟩, -, hr⟩ := Proc.ofExcept_bind_ok hr
  obtain ⟨exited, -, hr⟩ := Proc.ofExcept_bind_ok hr
  obtain ⟨⟨⟩, -, hr⟩ := Proc.ofExcept_bind_ok hr
  obtain ⟨window, -, hr⟩ := Proc.ofExcept_bind_ok hr
  obtain ⟨⟨⟩, -, hr⟩ := Proc.ofExcept_bind_ok hr
  obtain ⟨⟨clientNonce, serverNonce⟩, link₁, hno, hr⟩ := Proc.bind_ok_iff.mp hr
  obtain ⟨⟨binding, knowledge⟩, link₂, hbi, hr⟩ := Proc.bind_ok_iff.mp hr
  obtain ⟨exitedAfter, -, hr⟩ := Proc.ofExcept_bind_ok hr
  obtain ⟨⟨⟩, -, hr⟩ := Proc.ofExcept_bind_ok hr
  obtain ⟨⟨⟩, -, hr⟩ := Proc.ofExcept_bind_ok hr
  cases hr
  have hf := handshakeClient_ok (Proc.mapError_ok hno)
  obtain ⟨hac, hre⟩ := authenticateClient_ok hbi
  refine ⟨hac, rfl, rfl, ?_⟩
  rw [show arriving met = _ from hf, Transcript.confirmation, append_assoc]
  exact (prefix_append_right_inj _).mpr hre

/-! ## Writes -/

theorem broke_succ (env : Env) (link : Link) (written : List Byte) :
    ({ link with
      writes := link.writes + 1
      written := written } : Link).broke env =
      (link.broke env || (env.writeFault link.writes).isSome) := by
  show (List.range (link.writes + 1)).any _ = _
  rw [range_succ, any_append, any_cons, any_nil, Bool.or_false]
  rfl

/-- The computation writes these bytes, or it fails at a write that put a part of them. -/
def Puts {ε : Type} (env : Env) (bytes : List Byte) (x : Proc Link ε Unit) : Prop :=
  ∀ link, ((x link).1 = .ok () ∧ (x link).2.written = link.written ++ bytes ∧
      (x link).2.broke env = link.broke env) ∨
    (∃ err, (x link).1 = .error err) ∧ (x link).2.broke env = true ∧
      ∃ part, part <+: bytes ∧ (x link).2.written = link.written ++ part

theorem Puts.bind {env : Env} {left right : List Byte} {y : Proc Link ε Unit} (hx : Puts env left x)
    (hy : Puts env right y) : Puts env (left ++ right) (x >>= fun _ => y) := by
  intro link
  rcases hr : x link with ⟨r, link'⟩
  have hf := hx link
  rw [hr] at hf
  rcases hf with ⟨hok, hw, hbr⟩ | ⟨⟨err, he⟩, hbr, part, hp, hw⟩
  · cases hok
    rw [Proc.bind_run_ok hr]
    rcases hy link' with ⟨hok', hw', hbr'⟩ | ⟨he', hbr', part, hp, hw'⟩
    · refine .inl ⟨hok', ?_, hbr'.trans hbr⟩
      rw [hw', hw, append_assoc]
    · refine .inr ⟨he', hbr', left ++ part, (prefix_append_right_inj left).mpr hp, ?_⟩
      rw [hw', hw, append_assoc]
  · cases he
    rw [Proc.bind_run_error hr]
    exact .inr ⟨⟨err, rfl⟩, hbr, part, hp.trans (prefix_append ..), hw⟩

theorem writeAll_puts (env : Env) (bytes : List Byte) : Puts env bytes (writeAll env bytes) := by
  intro link
  unfold writeAll
  dsimp only
  cases hfa : env.writeFault link.writes with
  | none =>
    refine .inl ⟨rfl, rfl, ?_⟩
    rw [broke_succ, hfa]
    exact Bool.or_false _
  | some fault =>
    refine .inr ⟨⟨_, rfl⟩, ?_, _, take_prefix .., rfl⟩
    rw [broke_succ, hfa]
    exact Bool.or_true _

theorem writeRecord_puts (env : Env) (bytes : List Byte) :
    Puts env bytes (writeRecord env bytes) := by
  intro link
  unfold writeRecord
  dsimp only
  cases hfa : env.writeFault link.writes with
  | none =>
    refine .inl ⟨rfl, rfl, ?_⟩
    rw [broke_succ, hfa]
    exact Bool.or_false _
  | some fault =>
    refine .inr ⟨⟨_, rfl⟩, ?_, _, take_prefix .., rfl⟩
    rw [broke_succ, hfa]
    exact Bool.or_true _

theorem writeHello_puts (env : Env) (token : SessionToken) :
    Puts env (hello token).bytes (writeHello env token) := by
  have hl : orFail (ensurePayloadLen (hello token).payload.length) = pure () := by
    rw [show ensurePayloadLen (hello token).payload.length = .ok () from
      require_ok.mpr (decide_eq_true (hello_fits token))]
    rfl
  have hpay : (hello token).payload ≠ [] := by
    intro he
    have hl := token.len
    rw [show token.bytes = [] from he] at hl
    cases hl
  have hf := writeAll_puts env (hello token).header.encode
  have hse := (writeAll_puts env (hello token).payload).bind (writeAll_puts env [])
  unfold writeHello writeFrame
  rw [hl, Proc.pure_bind, if_neg hpay]
  have ha := hf.bind hse
  rwa [append_nil] at ha

/-! ## What an attempt writes -/

/-- The frames of an attempt, as far as they are whole. -/
inductive Spoken : List Byte → Prop
  | nothing : Spoken []
  | echo (clientNonce : SessionToken) : Spoken (hello clientNonce).bytes
  | nonces (clientNonce serverNonce : SessionToken) :
      Spoken ((hello clientNonce).bytes ++ (hello serverNonce).bytes)
  | challenge (clientNonce serverNonce : SessionToken) {record : List Byte}
      (len : record.length = lifecycleBindingRecordLen) :
      Spoken ((hello clientNonce).bytes ++ (hello serverNonce).bytes ++ record)

/-- What was written is whole, or a write has failed in it. -/
structure Voiced (env : Env) (link : Link) : Prop where
  front : ∃ whole, Spoken whole ∧ link.written <+: whole
  whole : link.broke env = false → Spoken link.written

theorem Spoken.voiced {env : Env} {link : Link} (h : Spoken link.written) : Voiced env link :=
  ⟨⟨_, h, prefix_refl _⟩, fun _ => h⟩

theorem Spoken.read {α : Type} {env : Env} {x : Proc Link ε α} {link link' : Link} {r : Except ε α}
    (h : Spoken link.written) (hx : OnlyRead link (x link).2) (hr : x link = (r, link')) :
    Voiced env link' := by
  rw [hr] at hx
  refine Spoken.voiced ?_
  rwa [hx.written]

theorem Puts.voiced {env : Env} {link link' : Link} {r : Except ε Unit} (h : Puts env bytes x)
    (hn : Spoken (link.written ++ bytes)) (hr : x link = (r, link')) : Voiced env link' := by
  have hli := h link
  rw [hr] at hli
  rcases hli with ⟨-, hw, -⟩ | ⟨-, hbr, part, hp, hw⟩
  · refine Spoken.voiced ?_
    rwa [hw]
  · refine ⟨⟨_, hn, ?_⟩, fun hwh => ?_⟩
    · rw [hw]
      exact (prefix_append_right_inj _).mpr hp
    · rw [hbr] at hwh
      cases hwh

theorem Puts.written {env : Env} {link link' : Link} (h : Puts env bytes x)
    (hr : x link = (.ok (), link')) :
    link'.written = link.written ++ bytes := by
  have hli := h link
  rw [hr] at hli
  rcases hli with ⟨-, hw, -⟩ | ⟨⟨err, he⟩, -⟩
  · exact hw
  · cases he

theorem readRendezvousHello_readsOnly (env : Env) (policy : ReceivePolicy) :
    ReadsOnly (readRendezvousHello env policy) := by
  refine (readValidatedFrame_readsOnly env policy).bind fun r => ?_
  dsimp only
  split_ifs
  · exact readsOnly_pure _
  · exact readsOnly_orFail _

theorem readRecord_onlyRead (link : Link) : OnlyRead link (readRecord link).2 :=
  readExactIo_onlyRead lifecycleBindingRecordLen link

section Server

variable {α : Type} {env : Env} {peer : Except IpcError α} {random : Except IpcError SessionToken}
  {link link' : Link}

theorem handshakeServer_voiced (h : link.written = []) :
    Voiced env (handshakeServerRendezvous env peer random link).2 := by
  have hs : Spoken link.written := h ▸ .nothing
  refine Proc.bind_ends (fun _ _ => hs.read (readRendezvousHello_readsOnly env _ link))
    fun clientNonce link₁ hr => ?_
  have hr₁ := (readRendezvousHello_readsOnly env .serverPreAuthHello link).written
  rw [hr] at hr₁
  have hnoth : link₁.written = [] := hr₁.trans h
  have hs₁ : Spoken link₁.written := hnoth ▸ .nothing
  refine Proc.bind_ends (fun _ _ => hs₁.read (readsOnly_orFail peer link₁))
    fun found link₂ hpe => ?_
  obtain ⟨-, rfl⟩ := orFail_ok hpe
  have hec : Spoken (link₂.written ++ (hello clientNonce).bytes) := by
    rw [hnoth]
    exact .echo clientNonce
  refine Proc.bind_ends (fun _ _ => (writeHello_puts env clientNonce).voiced hec)
    fun _ link₃ hwr => ?_
  have hw := (writeHello_puts env clientNonce).written hwr
  rw [hnoth, nil_append] at hw
  have hs₃ : Spoken link₃.written := hw ▸ .echo clientNonce
  refine Proc.bind_ends (fun _ _ => hs₃.read (readsOnly_orFail random link₃))
    fun serverNonce link₄ hra => ?_
  obtain ⟨-, rfl⟩ := orFail_ok hra
  have hno : Spoken (link₄.written ++ (hello serverNonce).bytes) := by
    rw [hw]
    exact .nonces clientNonce serverNonce
  refine Proc.bind_ends (fun _ _ => (writeHello_puts env serverNonce).voiced hno)
    fun _ link₅ hwr' => ?_
  have hw' := (writeHello_puts env serverNonce).written hwr'
  have hs₅ : Spoken link₅.written := hw' ▸ hno
  refine Proc.bind_ends (fun _ _ => hs₅.read (readAndVerifyHello_readsOnly env serverNonce _ link₅))
    fun _ link₆ hve => ?_
  exact hs₅.read (readAndVerifyHello_readsOnly env serverNonce _ link₅) hve

theorem handshakeServer_ok {clientNonce serverNonce : SessionToken} {a : α}
    (h : handshakeServerRendezvous env peer random link =
      (.ok (clientNonce, serverNonce, a), link')) :
    peer = .ok a ∧
      link'.written = link.written ++ ((hello clientNonce).bytes ++ (hello serverNonce).bytes) ∧
      arriving link.script =
        (hello clientNonce).bytes ++ (hello serverNonce).bytes ++ arriving link'.script := by
  obtain ⟨nonce, link₁, hr, h⟩ := Proc.bind_ok_iff.mp h
  obtain ⟨found, link₂, hf, h⟩ := Proc.bind_ok_iff.mp h
  obtain ⟨⟨⟩, link₃, hw, h⟩ := Proc.bind_ok_iff.mp h
  obtain ⟨answer, link₄, hra, h⟩ := Proc.bind_ok_iff.mp h
  obtain ⟨⟨⟩, link₅, hw', h⟩ := Proc.bind_ok_iff.mp h
  obtain ⟨⟨⟩, link₆, hve, h⟩ := Proc.bind_ok_iff.mp h
  cases h
  obtain ⟨hpe, rfl⟩ := orFail_ok hf
  obtain ⟨-, rfl⟩ := orFail_ok hra
  have hon := (readRendezvousHello_readsOnly env .serverPreAuthHello link).written
  have hon' := (readAndVerifyHello_readsOnly env serverNonce .serverPreAuthHello link₅).written
  rw [hr] at hon
  rw [hve] at hon'
  have hfr := readAndVerifyHello_front hve
  rw [writeHello_script hw', writeHello_script hw] at hfr
  refine ⟨hpe, ?_, ?_⟩
  · rw [hon', (writeHello_puts env serverNonce).written hw',
      (writeHello_puts env clientNonce).written hw, hon, append_assoc]
  · rw [readRendezvousHello_ok hr, hfr, append_assoc]

end Server

theorem authenticateServer_voiced {env : Env} {link : Link}
    (h : link.written = (hello clientNonce).bytes ++ (hello serverNonce).bytes) :
    Voiced env (authenticateLifecycleBindingServer env t link).2 := by
  have hch : Spoken (link.written ++ lifecycleBindingRecord challengeMagic t) := by
    rw [h]
    exact .challenge clientNonce serverNonce (length_record t rfl)
  refine Proc.bind_ends (fun _ _ => (writeRecord_puts env _).voiced hch) fun _ link₁ hw => ?_
  have hs : Spoken link₁.written := (writeRecord_puts env _).written hw ▸ hch
  refine Proc.bind_ends (fun _ _ => hs.read (readRecord_onlyRead link₁))
    fun acknowledgement link₂ hr => ?_
  have hon := (readRecord_onlyRead link₁).written
  rw [hr] at hon
  have hs₂ : Spoken link₂.written := hon ▸ hs
  refine Proc.bind_ends (fun _ link₃ hf => ?_) fun _ link₃ hsa => ?_
  · rw [← show link₂ = link₃ from congrArg Prod.snd hf]
    exact hs₂.voiced
  · rw [(orRefuse_ok hsa).2]
    exact hs₂.voiced

theorem authenticateServer_ok {env : Env} {link link' : Link} {receipt : List Byte}
    (h : authenticateLifecycleBindingServer env t link = (.ok receipt, link')) :
    link'.written = link.written ++ lifecycleBindingRecord challengeMagic t ∧
      lifecycleBindingRecord acknowledgementMagic t <+: arriving link.script := by
  obtain ⟨⟨⟩, link₁, hw, h⟩ := Proc.bind_ok_iff.mp h
  obtain ⟨acknowledgement, link₂, hr, h⟩ := Proc.bind_ok_iff.mp h
  obtain ⟨⟨⟩, link₃, hco, h⟩ := Proc.bind_ok_iff.mp h
  cases h
  obtain ⟨hs, rfl⟩ := orRefuse_ok hco
  have hon := (readRecord_onlyRead link₁).written
  rw [hr] at hon
  have hfr := (readRecord_ok hr).2
  rw [(writeRecord_ok hw).2, beq_iff_eq.mp (require_ok.mp hs)] at hfr
  exact ⟨hon.trans (writeRecord_ok hw).1, hfr ▸ prefix_append ..⟩

/-- An attempt writes two `HELLO`s and a challenge, or the beginning of that. -/
theorem admitPeer_speaks (config : RendezvousConfig) (attempt : PeerAttempt)
    (heard : List Delivery) : Voiced attempt.env (attempt.run config heard).2 := by
  have hha : Voiced attempt.env (handshakeServerRendezvous attempt.env
      (authenticatePeer attempt.processId attempt.sessionId attempt.answers)
      attempt.answers.nonce (.fresh heard)).2 := handshakeServer_voiced rfl
  refine Proc.bind_ends (fun _ link₁ hf => ?_) fun r link₁ hno => ?_
  · rwa [← show _ = link₁ from congrArg Prod.snd hf]
  have hran : (handshakeServerRendezvous attempt.env _ _ (.fresh heard)).2 = link₁ :=
    congrArg Prod.snd (Proc.mapError_ok hno)
  rw [hran] at hha
  rcases attempt.answers.exitedAfter with _ | exited
  · exact hha
  cases exited with
  | true => exact hha
  | false =>
    have hw := (handshakeServer_ok (Proc.mapError_ok hno)).2.1
    refine Proc.bind_ends (fun _ link₂ hf => ?_) fun _ link₂ hrc => ?_
    · rw [← show _ = link₂ from congrArg Prod.snd hf]
      exact authenticateServer_voiced hw
    · rw [← show _ = link₂ from congrArg Prod.snd hrc]
      exact authenticateServer_voiced hw

/-- An acknowledged attempt has read the answer to what it wrote, from a peer that was
authenticated. -/
theorem admitPeer_acknowledged {config : RendezvousConfig} {attempt : PeerAttempt}
    {heard : List Delivery} {pin : PeerPin} {link : Link}
    (h : attempt.run config heard = (.ok (.acknowledged t pin), link)) :
    t.binding = config.binding ∧ t.clientPid = attempt.processId ∧ t.serverPid = config.processId ∧
      authenticatePeer attempt.processId attempt.sessionId attempt.answers = .ok pin ∧
      attempt.answers.exitedAfter = .ok false ∧
      link.written = (hello t.clientNonce).bytes ++ (hello t.serverNonce).bytes ++
        lifecycleBindingRecord challengeMagic t ∧
      (hello t.clientNonce).bytes ++ (hello t.serverNonce).bytes ++
        lifecycleBindingRecord acknowledgementMagic t <+: arriving heard := by
  obtain ⟨⟨clientNonce, serverNonce, found⟩, link₁, hno, h⟩ := Proc.bind_ok_iff.mp h
  obtain ⟨hpin, hw, hfr⟩ := handshakeServer_ok (Proc.mapError_ok hno)
  rcases hex : attempt.answers.exitedAfter with _ | exited
  · rw [hex] at h
    cases h
  rw [hex] at h
  cases exited with
  | true => cases h
  | false =>
    obtain ⟨receipt, link₂, hrc, h⟩ := Proc.bind_ok_iff.mp h
    cases h
    obtain ⟨hch, hac⟩ := authenticateServer_ok hrc
    refine ⟨rfl, rfl, rfl, hpin, rfl, ?_, ?_⟩
    · rw [hch, hw]
      rfl
    · rw [show arriving heard = _ from hfr]
      exact (prefix_append_right_inj _).mpr hac

end Keld.Ipc
