/-
# `Keld.Pack.Identity` — the expected-identity payload

The payload names the build an executable belongs to: a domain tag, three texts
behind one length byte each, and the update-signing key.  `payload_codec` says
that encoding and decoding are inverse between the identities `new` admits and
the byte strings `decode` accepts, so each of them has one payload.
-/
import Keld.Pack.Members
import Keld.Lib.Layout

namespace Keld.Pack

open List

def expectedAppIdentityDomain : List Byte := utf8 "keld.expected-app-identity/v1\x00"

def expectedAppIdentityKeyBytes : Nat := 32

def maxAppIdBytes : Nat := 255

def maxChannelBytes : Nat := 16

def maxTargetBytes : Nat := 64

def minPayloadBytes : Nat := expectedAppIdentityDomain.length + 3 + 3 + expectedAppIdentityKeyBytes

def maxPayloadBytes : Nat :=
  expectedAppIdentityDomain.length + 3 + maxAppIdBytes + maxChannelBytes + maxTargetBytes +
    expectedAppIdentityKeyBytes

def invalidIdentity {α : Type} (detail : String) : Except PackError α :=
  .error (.expectedIdentityInvalid detail)

/-! ## Fields -/

/-- A text whose length fits one byte. -/
structure Field where
  text : String
  len : UInt8
  len_eq : len.toNat = (utf8 text).length

theorem Field.ext_text {left right : Field} (h : left.text = right.text) : left = right := by
  obtain ⟨text, len, hl⟩ := left
  obtain ⟨text', len', hl'⟩ := right
  obtain rfl : text = text' := h
  obtain rfl : len = len' := UInt8.toNat_inj.mp (hl.trans hl'.symm)
  rfl

namespace Field

def new (text : String) (max : Nat) (name : String) : Except PackError Field :=
  if (utf8 text).isEmpty || (utf8 text).length > max then invalidIdentity name
  else if text.toList.any isControl then invalidIdentity name
  else if h : (utf8 text).length < 256 then
    .ok ⟨text, UInt8.ofNat (utf8 text).length, UInt8.toNat_ofNat_of_lt h⟩
  else invalidIdentity name

/-- The bytes `encode_into` appends. -/
def encode (field : Field) : List Byte := field.len :: utf8 field.text

/-- What a field of at most `max` bytes has passed. -/
structure Within (field : Field) (max : Nat) : Prop where
  nonempty : utf8 field.text ≠ []
  bounded : (utf8 field.text).length ≤ max
  plain : field.text.toList.any isControl = false

theorem new_ok {text : String} {max : Nat} {name : String} {field : Field} :
    Field.new text max name = .ok field ↔ field.text = text ∧ field.Within max := by
  constructor
  · intro h
    unfold Field.new at h
    split_ifs at h with hl hco hby
    · cases h
    · cases h
    · cases h
      rw [Bool.or_eq_true, not_or] at hl
      refine ⟨rfl, ⟨?_, ?_, ?_⟩⟩
      · simpa using hl.1
      · simpa using hl.2
      · exact eq_false_of_ne_true hco
    · cases h
  · rintro ⟨rfl, hwi⟩
    have hby : (utf8 field.text).length < 256 := by
      rw [← field.len_eq]
      exact field.len.toNat_lt
    have hl : ¬ ((utf8 field.text).isEmpty || decide ((utf8 field.text).length > max)) = true := by
      simpa using ⟨hwi.nonempty, hwi.bounded⟩
    unfold Field.new
    rw [if_neg hl, if_neg (Bool.eq_false_iff.mp hwi.plain), dif_pos hby]
    exact congrArg _ (Field.ext_text rfl)

theorem length_encode (field : Field) : field.encode.length = 1 + (utf8 field.text).length := by
  rw [encode, length_cons, Nat.add_comm]

end Field

/-! ## The payload -/

structure ExpectedAppIdentityPayload where
  appId : Field
  channel : Field
  target : Field
  updatePublicKey : Chunk expectedAppIdentityKeyBytes

/-- The field at the front and what is behind it. -/
def takeField (rest : List Byte) (name : String) : Except PackError (String × List Byte) :=
  match rest with
  | [] => invalidIdentity name
  | len :: tail =>
    if tail.length < len.toNat then invalidIdentity name
    else
      match fromUtf8 (tail.take len.toNat) with
      | some text => .ok (text, tail.drop len.toNat)
      | none => invalidIdentity name

/-- `<[u8; 32]>::try_from`. -/
def takeKey (rest : List Byte) : Except PackError (Chunk expectedAppIdentityKeyBytes) :=
  if h : rest.length = expectedAppIdentityKeyBytes then .ok ⟨rest, h⟩
  else invalidIdentity "public key length or trailing bytes"

namespace ExpectedAppIdentityPayload

def new (appId channel target : String) (key : Chunk expectedAppIdentityKeyBytes) :
    Except PackError ExpectedAppIdentityPayload := do
  let appId ← Field.new appId maxAppIdBytes "app id"
  let channel ← Field.new channel maxChannelBytes "channel"
  let target ← Field.new target maxTargetBytes "target"
  return ⟨appId, channel, target, key⟩

def encode (payload : ExpectedAppIdentityPayload) : List Byte :=
  expectedAppIdentityDomain ++ (payload.appId.encode ++ (payload.channel.encode ++
    (payload.target.encode ++ payload.updatePublicKey.bytes)))

def decode (bytes : List Byte) : Except PackError ExpectedAppIdentityPayload := do
  let rest ← orElseError (bytes.dropPrefix? expectedAppIdentityDomain)
    (.expectedIdentityInvalid "domain tag")
  let (appId, rest) ← takeField rest "app id"
  let (channel, rest) ← takeField rest "channel"
  let (target, rest) ← takeField rest "target"
  let key ← takeKey rest
  new appId channel target key

/-- What `new` has checked of an identity. -/
structure Valid (payload : ExpectedAppIdentityPayload) : Prop where
  appId : payload.appId.Within maxAppIdBytes
  channel : payload.channel.Within maxChannelBytes
  target : payload.target.Within maxTargetBytes

end ExpectedAppIdentityPayload

/-! ## The codec -/

theorem takeField_encode (field : Field) (rest : List Byte) (name : String) :
    takeField (field.encode ++ rest) name = .ok (field.text, rest) := by
  have hl := field.len_eq
  have heno : ¬ (utf8 field.text ++ rest).length < field.len.toNat := by
    rw [length_append]
    omega
  unfold takeField Field.encode
  rw [cons_append]
  dsimp only
  rw [if_neg heno, hl, take_left, drop_left, fromUtf8_utf8]

/-- A field that is taken stood at the front, under its length. -/
theorem takeField_ok {rest tail : List Byte} {name text : String}
    (h : takeField rest name = .ok (text, tail)) :
    ∃ len : UInt8, len.toNat = (utf8 text).length ∧ rest = (len :: utf8 text) ++ tail := by
  cases rest with
  | nil => cases h
  | cons len more =>
    unfold takeField at h
    dsimp only at h
    split_ifs at h with hsh
    · cases h
    · split at h
      next found hf =>
        cases h
        have ht := fromUtf8_eq_some.mp hf
        refine ⟨len, ?_, ?_⟩
        · rw [ht, length_take_of_le (Nat.not_lt.mp hsh)]
        · rw [ht, cons_append, take_append_drop]
      next => cases h

theorem takeKey_ok {rest : List Byte} {key : Chunk expectedAppIdentityKeyBytes} :
    takeKey rest = .ok key ↔ rest = key.bytes := by
  constructor
  · intro h
    unfold takeKey at h
    split_ifs at h
    · cases h
      rfl
    · cases h
  · rintro rfl
    exact dif_pos key.len

namespace ExpectedAppIdentityPayload

theorem new_ok {appId channel target : String} {key : Chunk expectedAppIdentityKeyBytes}
    {payload : ExpectedAppIdentityPayload} :
    new appId channel target key = .ok payload ↔
      (payload.appId.text = appId ∧ payload.channel.text = channel ∧
        payload.target.text = target ∧ payload.updatePublicKey = key) ∧ payload.Valid := by
  unfold new
  simp only [bind_ok, Field.new_ok]
  constructor
  · rintro ⟨_, ⟨rfl, happId⟩, _, ⟨rfl, hc⟩, _, ⟨rfl, htgt⟩, hpay⟩
    cases hpay
    exact ⟨⟨rfl, rfl, rfl, rfl⟩, ⟨happId, hc, htgt⟩⟩
  · rintro ⟨⟨rfl, rfl, rfl, rfl⟩, hv⟩
    exact ⟨_, ⟨rfl, hv.appId⟩, _, ⟨rfl, hv.channel⟩, _, ⟨rfl, hv.target⟩, rfl⟩

theorem decode_encode {payload : ExpectedAppIdentityPayload} (h : payload.Valid) :
    decode payload.encode = .ok payload := by
  have htag : payload.encode.dropPrefix? expectedAppIdentityDomain
      = some (payload.appId.encode ++ (payload.channel.encode ++
        (payload.target.encode ++ payload.updatePublicKey.bytes))) := by
    rw [dropPrefix?_eq_some_iff]
    exact ⟨_, rfl, beq_self_eq_true _⟩
  refine bind_ok.mpr ⟨_, orElseError_ok.mpr htag, ?_⟩
  refine bind_ok.mpr ⟨_, takeField_encode _ _ _, ?_⟩
  refine bind_ok.mpr ⟨_, takeField_encode _ _ _, ?_⟩
  refine bind_ok.mpr ⟨_, takeField_encode _ _ _, ?_⟩
  refine bind_ok.mpr ⟨_, takeKey_ok.mpr rfl, ?_⟩
  exact new_ok.mpr ⟨⟨rfl, rfl, rfl, rfl⟩, h⟩

/-- A byte string that decodes is the encoding of what it decodes to. -/
theorem decode_ok {bytes : List Byte} {payload : ExpectedAppIdentityPayload}
    (h : decode bytes = .ok payload) : payload.encode = bytes ∧ payload.Valid := by
  unfold decode at h
  simp only [bind_ok, orElseError_ok] at h
  obtain ⟨rest, htag, ⟨appId, rest₁⟩, happId, ⟨channel, rest₂⟩, hch, ⟨target, rest₃⟩, htgt,
    key, hk, hn⟩ := h
  obtain ⟨_, hby, hdo⟩ := dropPrefix?_eq_some_iff.mp htag
  rw [beq_iff_eq] at hdo
  obtain ⟨len₁, hl₁, rfl⟩ := takeField_ok happId
  obtain ⟨len₂, hl₂, rfl⟩ := takeField_ok hch
  obtain ⟨len₃, hl₃, rfl⟩ := takeField_ok htgt
  obtain rfl := takeKey_ok.mp hk
  obtain ⟨⟨happ, hc, hta, hkeyEq⟩, hv⟩ := new_ok.mp hn
  have hf : ∀ {field : Field} {len : UInt8} {text : String}, len.toNat = (utf8 text).length →
      field.text = text → field.encode = len :: utf8 text := by
    intro field len text hl ht
    rw [Field.encode, ht]
    refine congrArg (· :: _) (UInt8.toNat_inj.mp ?_)
    rw [field.len_eq, ht, hl]
  refine ⟨?_, hv⟩
  rw [encode, hf hl₁ happ, hf hl₂ hc, hf hl₃ hta, hkeyEq, hby, hdo]

theorem length_encode (payload : ExpectedAppIdentityPayload) :
    payload.encode.length = expectedAppIdentityDomain.length + 3 +
      (utf8 payload.appId.text).length + (utf8 payload.channel.text).length +
      (utf8 payload.target.text).length + expectedAppIdentityKeyBytes := by
  unfold encode
  simp only [length_append, Field.length_encode, payload.updatePublicKey.len]
  omega

theorem encode_bounded {payload : ExpectedAppIdentityPayload} (h : payload.Valid) :
    minPayloadBytes ≤ payload.encode.length ∧ payload.encode.length ≤ maxPayloadBytes := by
  have happId := length_pos_iff.mpr h.appId.nonempty
  have hc := length_pos_iff.mpr h.channel.nonempty
  have htgt := length_pos_iff.mpr h.target.nonempty
  have happId' := h.appId.bounded
  have hc' := h.channel.bounded
  have htgt' := h.target.bounded
  rw [length_encode]
  unfold minPayloadBytes maxPayloadBytes
  omega

end ExpectedAppIdentityPayload

open ExpectedAppIdentityPayload in
/-- The identities `new` admits and the byte strings `decode` accepts are in bijection. -/
structure PayloadCodec : Prop where
  roundTrip : ∀ {appId channel target key payload}, new appId channel target key = .ok payload →
    decode payload.encode = .ok payload
  bounded : ∀ {appId channel target key payload}, new appId channel target key = .ok payload →
    minPayloadBytes ≤ payload.encode.length ∧ payload.encode.length ≤ maxPayloadBytes
  canonical : ∀ {bytes payload}, decode bytes = .ok payload → payload.encode = bytes
  /-- what decodes is an identity that `new` admits -/
  admitted : ∀ {bytes payload}, decode bytes = .ok payload →
    new payload.appId.text payload.channel.text payload.target.text payload.updatePublicKey
      = .ok payload

theorem payload_codec : PayloadCodec where
  roundTrip := fun h => ExpectedAppIdentityPayload.decode_encode
    (ExpectedAppIdentityPayload.new_ok.mp h).2
  bounded := fun h => ExpectedAppIdentityPayload.encode_bounded
    (ExpectedAppIdentityPayload.new_ok.mp h).2
  canonical := fun h => (ExpectedAppIdentityPayload.decode_ok h).1
  admitted := fun h => ExpectedAppIdentityPayload.new_ok.mpr
    ⟨⟨rfl, rfl, rfl, rfl⟩, (ExpectedAppIdentityPayload.decode_ok h).2⟩

end Keld.Pack
