/-
# `Keld.Ipc.Agreement` — the handshake over a pipe

An honest client and an honest server exchange `HELLO`s over an ordered lossless
pipe.  Along every schedule that has run out, both have failed if their tokens
differ; if the tokens are equal, both have succeeded unless a read deadline was
reached on the way (`handshake_agreement`).  The deadline cannot be left out: a
server that is not scheduled for five seconds after the first byte of its peer's
`HELLO` fails although the tokens are equal (`slow_server_fails`).
-/
import Keld.Ipc.Handshake
import Keld.Ipc.Pipe

namespace Keld.Ipc

open List FrameHeader Proc

/-! ## The read half on an honest stream -/

/-- Bytes of every `HELLO` on the wire. -/
def helloLen : Nat := headerLen + sessionTokenLen

theorem hello_fits (token : SessionToken) : (hello token).Fits := by
  show token.bytes.length ≤ maxFrameLen
  rw [token.len]
  decide

theorem hello_length (token : SessionToken) : (hello token).bytes.length = helloLen := by
  rw [Frame.bytes, length_append, length_encode]
  show headerLen + token.bytes.length = helloLen
  rw [token.len, helloLen]

theorem hello_check (direction : Direction) (token : SessionToken) :
    (ReceivePolicy.hello direction).check (hello token).header = .ok () := by
  have hh : (hello token).header =
      ⟨.hello, 0, handshakeChannel, ⟨0⟩, UInt32.ofNat sessionTokenLen⟩ := by
    show mk .hello 0 handshakeChannel ⟨0⟩ (UInt32.ofNat token.bytes.length) = _
    rw [token.len]
  rw [hh]
  cases direction <;> decide

theorem hello_injective {token other : SessionToken}
    (h : (hello token).bytes = (hello other).bytes) : token = other := by
  have hpay : token.bytes = other.bytes := append_inj_right h (by
    rw [length_encode, length_encode])
  cases token
  cases other
  simp_all

/-- Some token: every `HELLO` header is the same. -/
def someToken : SessionToken := ⟨List.replicate sessionTokenLen 0, by simp⟩

section ReadHalf

variable {env : Env} {limit : Duration} {len : Nat} {stall : Option Instant} {link link' : Link}

theorem readExactStalledWith_waiting
    (h : readExactStalledWith env limit len stall link = (.error .waiting, link')) :
    (arriving link.script).length < len := by
  unfold readExactStalledWith at h
  split_ifs at h with hl
  · cases h
  · obtain ⟨fin, hr⟩ := readExactStalledLoop_reads env limit link.script link stall [] len
    rw [h] at hr
    have hou := hr.outcome
    cases fin with
    | waiting => exact (hr.reads.waiting_short (Nat.pos_of_ne_zero hl)).1
    | full bytes =>
      obtain ⟨a, ha, -⟩ := hou
      cases ha
    | refused err => cases hou
    | gaveUp =>
      rcases hou with ha | ⟨a, ha, -⟩
      · cases ha
      · cases ha

variable {err : IpcError}

theorem readExactStalledWith_failed
    (h : readExactStalledWith env limit len stall link = (.error (.failed err), link'))
    (hst : Steady false link.script) : Lapsed link' := by
  unfold readExactStalledWith at h
  split_ifs at h with hl
  · cases h
  · obtain ⟨fin, hr⟩ := readExactStalledLoop_reads env limit link.script link stall [] len
    rw [h] at hr
    have hou := hr.outcome
    cases fin with
    | waiting => cases hou
    | full bytes =>
      obtain ⟨a, ha, -⟩ := hou
      cases ha
    | refused err => exact absurd rfl ((hr.reads.steady hst).1 err)
    | gaveUp => exact hr.cause rfl

theorem readExactStalledWith_steady {r : List Byte × Option Instant}
    (h : readExactStalledWith env limit len stall link = (.ok r, link'))
    (hst : Steady false link.script) : Steady false link'.script := by
  unfold readExactStalledWith at h
  split_ifs at h with hl
  · cases h
    exact hst
  · obtain ⟨fin, hr⟩ := readExactStalledLoop_reads env limit link.script link stall [] len
    rw [h] at hr
    refine (hr.reads.steady hst).2 ?_
    rintro rfl
    rcases hr.outcome with ha | ⟨a, ha, hn⟩
    · cases ha
    · cases hn

variable {direction : Direction} {token : SessionToken}

theorem header_front {bytes : List Byte} {header : FrameHeader} {stall' : Option Instant}
    (hr : readExactStalledWith env limit headerLen stall link = (.ok (bytes, stall'), link'))
    (hde : decodeBounded bytes = .ok header) :
    arriving link.script = header.encode ++ arriving link'.script := by
  obtain ⟨hl, hfr⟩ := readExactStalledWith_ok hr
  rw [encode_decode hl (decodeBounded_ok.mp hde).1]
  exact hfr

theorem readHello_waiting
    (h : readValidatedFrame env (.hello direction) link = (.error .waiting, link')) :
    (arriving link.script).length < helloLen := by
  rcases bind_error_iff.mp h with hh | ⟨⟨bytes, stall⟩, link₁, hh, h₁⟩
  · have hsh := readExactStalledWith_waiting hh
    simp only [helloLen]
    omega
  rcases bind_error_iff.mp h₁ with hde | ⟨header, link₂, hde, h₂⟩
  · obtain ⟨err, hha, -⟩ := orFail_error hde
    cases hha
  obtain ⟨hdc, rfl⟩ := orFail_ok hde
  rcases bind_error_iff.mp h₂ with hv | ⟨v, link₃, hv, h₃⟩
  · obtain ⟨err, hha, -⟩ := orFail_error hv
    cases hha
  obtain ⟨hva, rfl⟩ := orFail_ok hv
  rcases bind_error_iff.mp h₃ with hb | ⟨body, link₄, hb, h₄⟩
  · have hsh := readExactStalledWith_waiting hb
    have hl : header.len.toNat = sessionTokenLen := by
      rw [hello_policy_header (validateReceivedHeader_ok.mp hva).1 someToken,
        (hello_fits someToken).len]
      exact someToken.len
    rw [header_front hh hdc, length_append, length_encode]
    simp only [helloLen]
    omega
  · cases h₄

/-- On the front of the right `HELLO` only a deadline makes the read fail. -/
theorem readHello_failed
    (h : readValidatedFrame env (.hello direction) link = (.error (.failed err), link'))
    (hst : Steady false link.script) (hfr : arriving link.script <+: (hello token).bytes) :
    Lapsed link' := by
  rcases bind_error_iff.mp h with hh | ⟨⟨bytes, stall⟩, link₁, hh, h₁⟩
  · exact readExactStalledWith_failed hh hst
  -- the header that was read is the one of every `HELLO`
  have hby : bytes = (hello token).header.encode := by
    obtain ⟨hl, hre⟩ := readExactStalledWith_ok hh
    rw [hre] at hfr
    have hpr : bytes <+: (hello token).bytes := (prefix_append _ _).trans hfr
    obtain ⟨rest, hr⟩ := hpr
    refine append_inj_left hr ?_
    rw [hl, length_encode]
  have hde : decodeBounded bytes = .ok (hello token).header := by
    rw [hby]
    exact decodeBounded_header (hello_fits token)
  have hv := validateReceivedHeader_ok.mpr
    ⟨hello_check direction token, show (⟨_, _, hello_check direction token⟩ :
      ValidatedFrameHeader).header = _ from rfl⟩
  rcases bind_error_iff.mp h₁ with hdecd | ⟨header, link₂, hdecd, h₂⟩
  · obtain ⟨e, -, he, -⟩ := orFail_error hdecd
    rw [hde] at he
    cases he
  obtain ⟨hh', rfl⟩ := orFail_ok hdecd
  rw [hde] at hh'
  cases hh'
  rcases bind_error_iff.mp h₂ with hin | ⟨v, link₃, hva, h₃⟩
  · obtain ⟨e, -, he, -⟩ := orFail_error hin
    rw [hv] at he
    cases he
  obtain ⟨-, rfl⟩ := orFail_ok hva
  rcases bind_error_iff.mp h₃ with hb | ⟨body, link₄, hb, h₄⟩
  · exact readExactStalledWith_failed hb (readExactStalledWith_steady hh hst)
  · cases h₄

/-! ## The exchange of one side -/

theorem readAndVerifyHello_readsOnly (env : Env) (token : SessionToken) (policy : ReceivePolicy) :
    ReadsOnly (readAndVerifyHello env token policy) :=
  (readValidatedFrame_readsOnly env _).bind fun _ => readsOnly_orFail _

theorem readAndVerifyHello_waiting
    (h : readAndVerifyHello env token (.hello direction) link = (.error .waiting, link')) :
    (arriving link.script).length < helloLen := by
  rcases bind_error_iff.mp h with hr | ⟨⟨v, payload⟩, link₁, hr, h⟩
  · exact readHello_waiting hr
  · obtain ⟨err, hha, -⟩ := orFail_error h
    cases hha

theorem readAndVerifyHello_ok
    (h : readAndVerifyHello env token (.hello direction) link = (.ok (), link')) :
    (hello token).bytes <+: arriving link.script := by
  obtain ⟨⟨v, payload⟩, link₁, hr, h⟩ := bind_ok_iff.mp h
  have hve := verifyHelloToken_ok.mp (orFail_ok h).1
  exact (readValidatedFrame_ok hr).beginsWith hve

theorem readAndVerifyHello_failed
    (h : readAndVerifyHello env token (.hello direction) link = (.error (.failed err), link'))
    (hst : Steady false link.script) (hfr : arriving link.script <+: (hello token).bytes) :
    Lapsed link' := by
  rcases bind_error_iff.mp h with hr | ⟨⟨v, payload⟩, link₁, hr, h⟩
  · exact readHello_failed hr hst hfr
  · exfalso
    -- a whole `HELLO` was read: it is the one the stream begins with
    have ht := readValidatedFrame_ok hr
    have hh := hello_policy_header ht.admitted token
    have hl : (v.header.encode ++ payload).length = (hello token).bytes.length := by
      rw [hello_length, length_append, length_encode, ht.payload_length token, helloLen]
    have hby := (ht.front.trans hfr).eq_of_length hl
    have hpay : payload = token.bytes := by
      rw [hh] at hby
      exact append_cancel_left hby
    obtain ⟨e, -, he, -⟩ := orFail_error h
    rw [verifyHelloToken_ok.mpr hpay] at he
    cases he

end ReadHalf

/-! ## The two parties -/

/-- No write on the pipe fails. -/
def Env.Lossless (env : Env) : Prop := ∀ n, env.writeFault n = none

theorem writeAll_lossless {env : Env} (h : env.Lossless) (bytes : List Byte) (link : Link) :
    writeAll env bytes link =
      (.ok (), { link with written := link.written ++ bytes, writes := link.writes + 1 }) := by
  simp only [writeAll, h link.writes]

theorem writeFrame_lossless {env : Env} (h : env.Lossless) {frame : Frame} (hf : frame.Fits)
    (link : Link) :
    ∃ n, writeFrame env frame link =
      (.ok (), { link with written := link.written ++ frame.bytes, writes := n }) := by
  have hl : orFail (ensurePayloadLen frame.payload.length) link = (.ok (), link) := by
    rw [ensurePayloadLen, require_ok.mpr (decide_eq_true (p := frame.payload.length ≤ maxFrameLen) hf)]
    rfl
  have hh := writeAll_lossless h frame.header.encode link
  rw [writeFrame, bind_run_ok hl, bind_run_ok hh, Frame.bytes]
  split_ifs with he
  · rw [he, append_nil]
    refine ⟨link.writes + 2, ?_⟩
    show flush env _ = _
    rw [flush, writeAll_lossless h, append_nil]
  · rw [bind_run_ok (writeAll_lossless h frame.payload _), flush, writeAll_lossless h,
      append_nil, append_assoc]
    exact ⟨link.writes + 3, rfl⟩

def clientParty (env : Env) (token : SessionToken) : Party :=
  fun script => handshakeClient env token (.fresh script)

def serverParty (env : Env) (token : SessionToken) : Party :=
  fun script => handshakeServer env token (.fresh script)

/-- A party's read deadline was reached. -/
def Party.Lapses (party : Party) (script : List Delivery) : Prop := Lapsed (party script).2

/-- What the two parties have in common once their writes succeed. -/
structure Exchanges (token : SessionToken) (party : Party) : Prop where
  waiting : ∀ {script}, party.Waiting script → (arriving script).length < helloLen
  succeeded : ∀ {script}, party.Succeeded script → (hello token).bytes <+: arriving script
  failed : ∀ {script}, party.Failed script → Steady false script →
    arriving script <+: (hello token).bytes → party.Lapses script

section Parties

variable {env : Env} {token : SessionToken} {script : List Delivery}

theorem clientParty_run (token : SessionToken) (h : env.Lossless) (script : List Delivery) :
    ∃ n, clientParty env token script =
      readAndVerifyHello env token .clientAwaitHello
        ⟨script, (hello token).bytes, 0, 0, n, false⟩ := by
  obtain ⟨n, hw⟩ := writeFrame_lossless h (hello_fits token) (.fresh script)
  refine ⟨n, ?_⟩
  show handshakeClient env token (.fresh script) = _
  rw [handshakeClient, writeHello, bind_run_ok hw]
  rfl

theorem clientParty_exchanges (h : env.Lossless) : Exchanges token (clientParty env token) where
  waiting := by
    intro script hwa
    obtain ⟨n, hr⟩ := clientParty_run token h script
    rw [Party.Waiting, hr] at hwa
    exact readAndVerifyHello_waiting (Prod.ext hwa rfl)
  succeeded := by
    intro script hok
    obtain ⟨n, hr⟩ := clientParty_run token h script
    rw [Party.Succeeded, hr] at hok
    exact readAndVerifyHello_ok (Prod.ext hok rfl)
  failed := by
    rintro script ⟨err, hf⟩ hst hfr
    obtain ⟨n, hr⟩ := clientParty_run token h script
    rw [hr] at hf
    rw [Party.Lapses, hr]
    exact readAndVerifyHello_failed (Prod.ext hf rfl) hst hfr

theorem clientParty_sent (h : env.Lossless) (script : List Delivery) :
    (clientParty env token).sent script = (hello token).bytes := by
  obtain ⟨n, hr⟩ := clientParty_run token h script
  rw [Party.sent, hr]
  exact (readAndVerifyHello_readsOnly env token _ _).written

/-- The server runs to its comparison, and writes its `HELLO` if that succeeds. -/
theorem serverParty_run (token : SessionToken) (h : env.Lossless) (script : List Delivery) :
    (∃ halt link', readAndVerifyHello env token .serverPreAuthHello (.fresh script) =
        (.error halt, link') ∧ serverParty env token script = (.error halt, link') ∧
        link'.written = []) ∨
      (∃ link' link'', readAndVerifyHello env token .serverPreAuthHello (.fresh script) =
        (.ok (), link') ∧ serverParty env token script = (.ok (), link'') ∧
        link''.written = (hello token).bytes) := by
  have hre := (readAndVerifyHello_readsOnly env token .serverPreAuthHello (.fresh script)).written
  rcases hr : readAndVerifyHello env token .serverPreAuthHello (.fresh script) with ⟨r, link'⟩
  rw [hr] at hre
  cases r with
  | error halt => exact .inl ⟨halt, link', rfl, bind_run_error hr, hre⟩
  | ok u =>
    obtain ⟨n, hw⟩ := writeFrame_lossless h (hello_fits token) link'
    refine .inr ⟨link', _, rfl, (bind_run_ok hr).trans hw, ?_⟩
    rw [hre]
    rfl

theorem serverParty_exchanges (h : env.Lossless) : Exchanges token (serverParty env token) where
  waiting := by
    intro script hwa
    rcases serverParty_run token h script with ⟨halt, link', hre, hr, -⟩ | ⟨_, _, -, hr, -⟩
    · rw [Party.Waiting, hr] at hwa
      cases hwa
      exact readAndVerifyHello_waiting hre
    · rw [Party.Waiting, hr] at hwa
      cases hwa
  succeeded := by
    intro script hok
    rcases serverParty_run token h script with ⟨halt, link', -, hr, -⟩ | ⟨_, _, hre, -, -⟩
    · rw [Party.Succeeded, hr] at hok
      cases hok
    · exact readAndVerifyHello_ok hre
  failed := by
    rintro script ⟨err, hf⟩ hst hfr
    rcases serverParty_run token h script with ⟨halt, link', hre, hr, -⟩ | ⟨_, _, -, hr, -⟩
    · rw [hr] at hf
      cases hf
      rw [Party.Lapses, hr]
      exact readAndVerifyHello_failed hre hst hfr
    · rw [hr] at hf
      cases hf

theorem serverParty_sent_of_not_succeeded (h : env.Lossless)
    (hnot : ¬ (serverParty env token).Succeeded script) :
    (serverParty env token).sent script = [] := by
  rcases serverParty_run token h script with ⟨halt, link', -, hr, hse⟩ | ⟨_, _, -, hr, -⟩
  · rw [Party.sent, hr]
    exact hse
  · exact absurd (by rw [Party.Succeeded, hr]) hnot

theorem serverParty_sent_of_succeeded (h : env.Lossless)
    (hok : (serverParty env token).Succeeded script) :
    (serverParty env token).sent script = (hello token).bytes := by
  rcases serverParty_run token h script with ⟨halt, link', -, hr, -⟩ | ⟨_, _, -, hr, hse⟩
  · rw [Party.Succeeded, hr] at hok
    cases hok
  · rw [Party.sent, hr]
    exact hse

theorem Party.cases (party : Party) (script : List Delivery) :
    party.Succeeded script ∨ party.Waiting script ∨ party.Failed script := by
  unfold Party.Succeeded Party.Waiting Party.Failed
  rcases (party script).1 with (err | _) | _
  · exact .inr (.inr ⟨err, rfl⟩)
  · exact .inr (.inl rfl)
  · exact .inl rfl

end Parties

/-! ## Agreement -/

section Agreement

variable {clientEnv serverEnv : Env} {token token' : SessionToken} {cs ss : List Delivery}

section

variable (hc : clientEnv.Lossless) (hs : serverEnv.Lossless)
include hc hs

theorem handshake_invariant
    (h : Scheduled (clientParty clientEnv token) (serverParty serverEnv token') cs ss) :
    PipeInvariant (clientParty clientEnv token) (serverParty serverEnv token') cs ss := by
  refine h.invariant ?_ ?_
  · intro script delivery _
    refine ⟨[], (append_nil _).trans ?_⟩
    exact (clientParty_sent hc script).trans (clientParty_sent hc _).symm
  · intro script delivery hwa
    rw [serverParty_sent_of_not_succeeded hs (fun hok => by
      rw [Party.Succeeded] at hok
      rw [Party.Waiting, hok] at hwa
      cases hwa)]
    exact nil_prefix

theorem server_settles
    (hinv : PipeInvariant (clientParty clientEnv token) (serverParty serverEnv token') cs ss)
    (hco : Complete (clientParty clientEnv token) (serverParty serverEnv token') cs ss) :
    ¬ (serverParty serverEnv token').Waiting ss := by
  intro hwa
  have hdrn := (hco.rightIdle.drained hinv.rightFed hwa).1
  have hsh := (serverParty_exchanges hs).waiting hwa
  rw [hdrn, clientParty_sent hc, hello_length] at hsh
  exact absurd hsh (Nat.lt_irrefl _)

theorem server_succeeded
    (hinv : PipeInvariant (clientParty clientEnv token) (serverParty serverEnv token') cs ss)
    (hok : (serverParty serverEnv token').Succeeded ss) : token = token' := by
  have hfr := (serverParty_exchanges hs).succeeded hok
  have hby := hinv.rightFed.bytes
  rw [clientParty_sent hc] at hby
  have he := (hfr.trans hby).eq_of_length (by rw [hello_length, hello_length])
  exact (hello_injective he).symm

theorem both_fail
    (hinv : PipeInvariant (clientParty clientEnv token) (serverParty serverEnv token') cs ss)
    (hco : Complete (clientParty clientEnv token) (serverParty serverEnv token') cs ss)
    (hne : token ≠ token') :
    (clientParty clientEnv token).Failed cs ∧ (serverParty serverEnv token').Failed ss := by
  have hnot : ¬ (serverParty serverEnv token').Succeeded ss :=
    fun hok => hne (server_succeeded hc hs hinv hok)
  have hsrv : (serverParty serverEnv token').Failed ss := by
    rcases (serverParty serverEnv token').cases ss with h | h | h
    · exact absurd h hnot
    · exact absurd h (server_settles hc hs hinv hco)
    · exact h
  refine ⟨?_, hsrv⟩
  rcases (clientParty clientEnv token).cases cs with h | h | h
  · -- a client that succeeded has read a `HELLO` the server never wrote
    have hfr := (clientParty_exchanges hc).succeeded h
    have hby := hinv.leftFed.bytes
    rw [serverParty_sent_of_not_succeeded hs hnot] at hby
    have hl := (hfr.trans hby).length_le
    rw [hello_length] at hl
    cases hl
  · exact absurd hsrv (hco.leftIdle.drained hinv.leftFed h).2
  · exact h

theorem both_succeed
    (hinv : PipeInvariant (clientParty clientEnv token) (serverParty serverEnv token) cs ss)
    (hco : Complete (clientParty clientEnv token) (serverParty serverEnv token) cs ss)
    (hcli : ¬ (clientParty clientEnv token).Lapses cs)
    (hsrv : ¬ (serverParty serverEnv token).Lapses ss) :
    (clientParty clientEnv token).Succeeded cs ∧ (serverParty serverEnv token).Succeeded ss := by
  have hss := hinv.rightFed.bytes
  rw [clientParty_sent hc] at hss
  have hcs : arriving cs <+: (hello token).bytes := by
    by_cases hok : (serverParty serverEnv token).Succeeded ss
    · rw [← serverParty_sent_of_succeeded hs hok]
      exact hinv.leftFed.bytes
    · have hby := hinv.leftFed.bytes
      rw [serverParty_sent_of_not_succeeded hs hok] at hby
      exact hby.trans nil_prefix
  -- neither can be the first to fail
  have hserverFailed : (serverParty serverEnv token).Failed ss → ¬ Steady false ss :=
    fun hf hst => hsrv ((serverParty_exchanges hs).failed hf hst hss)
  have hclientFailed : (clientParty clientEnv token).Failed cs → ¬ Steady false cs :=
    fun hf hst => hcli ((clientParty_exchanges hc).failed hf hst hcs)
  have hserverOk : (serverParty serverEnv token).Succeeded ss := by
    rcases (serverParty serverEnv token).cases ss with h | h | h
    · exact h
    · exact absurd h (server_settles hc hs hinv hco)
    · have he := hserverFailed h
      have he' := hclientFailed (hinv.rightFed.ended he)
      exact (hinv.oneEnd.elim he' he).elim
  refine ⟨?_, hserverOk⟩
  rcases (clientParty clientEnv token).cases cs with h | h | h
  · exact h
  · have hdrn := (hco.leftIdle.drained hinv.leftFed h).1
    have hsh := (clientParty_exchanges hc).waiting h
    rw [hdrn, serverParty_sent_of_succeeded hs hserverOk, hello_length] at hsh
    exact absurd hsh (Nat.lt_irrefl _)
  · obtain ⟨err, hfa⟩ := hinv.leftFed.ended (hclientFailed h)
    rw [Party.Succeeded, hfa] at hserverOk
    cases hserverOk

end

end Agreement

/-- The server discloses nothing before the peer has shown its token; and over a pipe on which
writes do not fail, a client and a server with different tokens both fail along every schedule
that has run out, while with equal tokens both succeed unless a read deadline was reached. -/
theorem handshake_agreement (clientEnv serverEnv : Env) (token token' : SessionToken)
    (cs ss : List Delivery) (hc : clientEnv.Lossless) (hs : serverEnv.Lossless)
    (hscheduled : Scheduled (clientParty clientEnv token) (serverParty serverEnv token') cs ss)
    (hcomplete : Complete (clientParty clientEnv token) (serverParty serverEnv token') cs ss) :
    (∀ env link, TokenSecrecy env link) ∧
      (token ≠ token' →
        (clientParty clientEnv token).Failed cs ∧ (serverParty serverEnv token').Failed ss) ∧
      (¬ (clientParty clientEnv token).Lapses cs → ¬ (serverParty serverEnv token').Lapses ss →
        ((clientParty clientEnv token).Succeeded cs ∧
          (serverParty serverEnv token').Succeeded ss ↔ token = token')) := by
  have hinv := handshake_invariant hc hs hscheduled
  refine ⟨handshake_keeps_token, both_fail hc hs hinv hcomplete, ?_⟩
  intro hcli hsrv
  constructor
  · intro hok
    exact server_succeeded hc hs hinv hok.2
  · rintro rfl
    exact both_succeed hc hs hinv hcomplete hcli hsrv

/-! ## Two schedules -/

theorem idle_of_not_waiting {party peer : Party} {script peerScript : List Delivery}
    (h : ¬ party.Waiting script) : Idle party peer script peerScript :=
  fun hwa => absurd hwa h

instance (party : Party) (script : List Delivery) : Decidable (party.Waiting script) :=
  inferInstanceAs (Decidable (_ = _))

/-- A whole `HELLO` in one run. -/
def helloScript (token : SessionToken) : List Delivery := unread (hello token).bytes []

theorem handshake_agreement_prompt :
    (clientParty calmEnv someToken).Succeeded (helloScript someToken) ∧
      (serverParty calmEnv someToken).Succeeded (helloScript someToken) := by
  have hlo : calmEnv.Lossless := fun _ => rfl
  have hcli : ¬ (clientParty calmEnv someToken).Waiting (helloScript someToken) := by
    decide +kernel
  have hsrv : ¬ (serverParty calmEnv someToken).Waiting (helloScript someToken) := by
    decide +kernel
  have hre : Scheduled (clientParty calmEnv someToken) (serverParty calmEnv someToken) []
      (helloScript someToken) :=
    .onRight .start (by decide +kernel) (.deliver ⟨[], by
      rw [clientParty_sent hlo]
      decide +kernel⟩)
  have hsc : Scheduled (clientParty calmEnv someToken) (serverParty calmEnv someToken)
      (helloScript someToken) (helloScript someToken) :=
    .onLeft hre (by decide +kernel) (.deliver ⟨[], by
      rw [serverParty_sent_of_succeeded hlo (by unfold Party.Succeeded; decide +kernel)]
      decide +kernel⟩)
  obtain ⟨-, -, hag⟩ := handshake_agreement calmEnv calmEnv someToken someToken
    (helloScript someToken) (helloScript someToken) hlo hlo hsc
    ⟨idle_of_not_waiting hcli, idle_of_not_waiting hsrv⟩
  exact (hag (by unfold Party.Lapses Lapsed; decide +kernel)
    (by unfold Party.Lapses Lapsed; decide +kernel)).mpr rfl

/-- A machine whose clock moves six seconds between any two readings. -/
def slowEnv : Env := { calmEnv with now := fun reading => reading * 6000000000 }

/-- With equal tokens a server that is late for the second byte fails, and so does its client. -/
theorem slow_server_fails :
    ∃ cs ss, slowEnv.Lossless ∧ calmEnv.Lossless ∧
      Scheduled (clientParty calmEnv someToken) (serverParty slowEnv someToken) cs ss ∧
      Complete (clientParty calmEnv someToken) (serverParty slowEnv someToken) cs ss ∧
      (clientParty calmEnv someToken).Failed cs ∧ (serverParty slowEnv someToken).Failed ss := by
  have hsl : slowEnv.Lossless := fun _ => rfl
  have hca : calmEnv.Lossless := fun _ => rfl
  have hsrv : (serverParty slowEnv someToken).Failed [.bytes 75 []] := by
    refine ⟨.timeout, ?_⟩
    decide +kernel
  have hcli : (clientParty calmEnv someToken).Failed [.eof] := by
    refine ⟨.io .unexpectedEof, ?_⟩
    decide +kernel
  have hr : Scheduled (clientParty calmEnv someToken) (serverParty slowEnv someToken) []
      [.bytes 75 []] :=
    .onRight .start (by decide +kernel) (.deliver ⟨(hello someToken).bytes.tail, by
      rw [clientParty_sent hca]
      decide +kernel⟩)
  have hcl : Scheduled (clientParty calmEnv someToken) (serverParty slowEnv someToken) [.eof]
      [.bytes 75 []] :=
    .onLeft hr (by decide +kernel) (.close hsrv (by
      rw [serverParty_sent_of_not_succeeded hsl (by unfold Party.Succeeded; decide +kernel)]
      rfl))
  exact ⟨[.eof], [.bytes 75 []], hsl, hca, hcl,
    ⟨idle_of_not_waiting (by decide +kernel), idle_of_not_waiting (by decide +kernel)⟩,
    hcli, hsrv⟩

end Keld.Ipc
