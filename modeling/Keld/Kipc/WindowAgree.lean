/-
# `Keld.Kipc.WindowAgree` — both sides of the window channel agree

For each of the three payload types the hand-written codec and the layout of
the host's type say the same: the encoder admits the counterparts of the host's
values and writes their postcard bytes, the decoder accepts exactly the
spellings of such a value and returns its counterpart.  Round trips in either
direction follow, and so does everything that a decoder turns away.
-/
import Keld.Kipc.WindowWrites
import Keld.Kipc.CallError

namespace Keld.Kipc

open List

/-! ## Counterparts determine each other -/

theorem WindowRef.ofWire_injective : Function.Injective WindowRef.ofWire := by
  rintro ⟨id, inc⟩ ⟨id', inc'⟩ h
  simp only [WindowRef.ofWire, WindowRef.mk.injEq, JsValue.integer.injEq, Nat.cast_inj,
    UInt32.toNat_inj, UInt64.toNat_inj] at h
  rw [h.1, h.2]

theorem Rect.ofWire_injective : Function.Injective Rect.ofWire := by
  rintro ⟨x, y, width, height⟩ ⟨x', y', width', height'⟩ h
  simp only [Rect.ofWire, Rect.mk.injEq, JsValue.integer.injEq, Nat.cast_inj,
    UInt32.toNat_inj, Int32.toInt_inj] at h
  rw [h.1, h.2.1, h.2.2.1, h.2.2.2]

theorem WindowState.ofWire_injective : Function.Injective WindowState.ofWire := by
  rintro ⟨bounds, focused, maximized, fullScreen⟩ ⟨bounds', focused', maximized', fullScreen'⟩ h
  simp only [WindowState.ofWire, WindowState.mk.injEq, Rect.ofWire_injective.eq_iff] at h
  rw [h.1, h.2.1, h.2.2.1, h.2.2.2]

theorem CloseVerdict.ofWire_injective : Function.Injective CloseVerdict.ofWire := by
  intro v v' h
  cases v <;> cases v' <;> first | rfl | cases h

theorem u64_injective : Function.Injective fun n : UInt64 => (n.toNat : ℤ) := by
  intro n n' h
  exact UInt64.toNat_inj.mp (Nat.cast_inj.mp h)

theorem i32_injective : Function.Injective fun n : Int32 => JsValue.integer n.toInt := by
  intro n n' h
  exact Int32.toInt_inj.mp (JsValue.integer.inj h)

theorem WindowEvent.ofWire_injective : Function.Injective WindowEvent.ofWire := by
  intro e e' h
  cases e <;> cases e' <;>
    simp only [WindowEvent.ofWire, reduceCtorEq, WindowEvent.created.injEq,
      WindowEvent.bounds.injEq, WindowEvent.focus.injEq, WindowEvent.maximized.injEq,
      WindowEvent.fullScreen.injEq, WindowEvent.closeRequested.injEq, WindowEvent.destroyed.injEq,
      WindowRef.ofWire_injective.eq_iff, Rect.ofWire_injective.eq_iff,
      WindowState.ofWire_injective.eq_iff, (Option.map_injective u64_injective).eq_iff,
      Nat.cast_inj, UInt64.toNat_inj] at h <;>
    simp only [h]

theorem WindowRequest.ofWire_injective : Function.Injective WindowRequest.ofWire := by
  intro e e' h
  cases e <;> cases e' <;>
    simp only [WindowRequest.ofWire, reduceCtorEq, WindowRequest.create.injEq,
      WindowRequest.setMaximized.injEq, WindowRequest.setFullScreen.injEq,
      WindowRequest.requestClose.injEq, WindowRequest.closeReply.injEq,
      WindowRequest.destroy.injEq, JsValue.integer.injEq, WindowRef.ofWire_injective.eq_iff,
      CloseVerdict.ofWire_injective.eq_iff, (Option.map_injective i32_injective).eq_iff,
      Nat.cast_inj, UInt32.toNat_inj, UInt64.toNat_inj] at h <;>
    simp only [h]

theorem WindowResponse.ofWire_injective : Function.Injective WindowResponse.ofWire := by
  intro e e' h
  cases e <;> cases e' <;>
    simp only [WindowResponse.ofWire, reduceCtorEq, WindowResponse.created.injEq,
      WindowResponse.closeRequested.injEq, WindowResponse.merged.injEq,
      WindowResponse.adopted.injEq, WindowRef.ofWire_injective.eq_iff, Nat.cast_inj,
      UInt64.toNat_inj] at h <;>
    simp only [h]

/-! ## One payload type -/

variable {n offset fin : ℕ} {R T : Type} {d : Decoder T} {atoms : R → List Atom} {bytes : List Byte}
  {detail : String} {width : Width}

theorem varint_unique {here here' rest rest' : List Byte} {m : ℕ} (h : Varint 15 5 here n)
    (h' : Varint 15 5 here' m) (hs : here ++ rest = here' ++ rest') :
    n = m ∧ here.length = here'.length := by
  have hr : decodeVarintAt (here ++ rest) 0 "" .w32 = .ok (n, 0 + here.length) :=
    (decodeVarintAt_ok (Nat.zero_le _)).mpr ⟨here, rest, rfl, h, rfl⟩
  have hr' : decodeVarintAt (here ++ rest) 0 "" .w32 = .ok (m, 0 + here'.length) :=
    (decodeVarintAt_ok (Nat.zero_le _)).mpr ⟨here', rest', hs, h', rfl⟩
  rw [hr] at hr'
  simp only [Except.ok.injEq, Prod.mk.injEq, Nat.zero_add] at hr'
  exact hr'

/-- The codec of a payload type and the layout of the host's type say the same.  `discriminants`
is how many variants there are. -/
structure WireAgrees {R T : Type} (encode : T → Except KipcError (List Byte))
    (decode : List Byte → Except KipcError T) (ofWire : R → T) (atoms : R → List Atom)
    (discriminants : ℕ) : Prop where
  /-- Values correspond one to one. -/
  injective : Function.Injective ofWire
  /-- What the encoder admits, and its bytes. -/
  writes : ∀ v bytes, encode v = .ok bytes ↔ ∃ r, v = ofWire r ∧ bytes = postcard (atoms r)
  /-- What the decoder accepts, and its value. -/
  reads : ∀ payload v, decode payload = .ok v ↔ ∃ r, v = ofWire r ∧ Spelled (atoms r) payload
  roundTrip : ∀ v bytes, encode v = .ok bytes → decode bytes = .ok v
  fromHost : ∀ r, decode (postcard (atoms r)) = .ok (ofWire r)
  /-- A host decoder that inverts the layout returns the corresponding value. -/
  toHost : ∀ hostDecode : List Byte → Option R, (∀ r, hostDecode (postcard (atoms r)) = some r) →
    ∀ v bytes, encode v = .ok bytes → ∃ r, v = ofWire r ∧ hostDecode bytes = some r
  noTrailing : ∀ payload extra v w, decode payload = .ok v → decode (payload ++ extra) = .ok w →
    extra = []
  /-- The leading varint of an accepted payload is a known discriminant. -/
  known : ∀ n here rest v, Varint 15 5 here n → decode (here ++ rest) = .ok v → n < discriminants

theorem wireAgrees {encode : T → Except KipcError (List Byte)} {ofWire : R → T} {discriminants : ℕ}
    (hinj : Function.Injective ofWire) (hw : Writes encode ofWire atoms)
    (hr : Reads d (Of ofWire atoms)) (hfit : ∀ r, Wire.AllFit (atoms r))
    (hk : ∀ r, ∃ n tail, atoms r = Wire.u32Atoms n ++ tail ∧ n.toNat < discriminants) :
    WireAgrees encode (fun payload => exact payload d) ofWire atoms discriminants where
  injective := hinj
  writes := hw
  reads payload v := exact_ok hr
  roundTrip := by
    intro v bytes hv
    obtain ⟨r, rfl, rfl⟩ := hw.admits hv
    exact (exact_ok hr).mpr ⟨r, rfl, spelled_postcard (hfit r)⟩
  fromHost r := (exact_ok hr).mpr ⟨r, rfl, spelled_postcard (hfit r)⟩
  toHost := by
    intro hostDecode hho v bytes hv
    obtain ⟨r, rfl, rfl⟩ := hw.admits hv
    exact ⟨r, rfl, hho r⟩
  noTrailing := by
    intro payload extra v w hv hext
    obtain ⟨r, rfl, hs⟩ := (exact_ok hr).mp hv
    -- the decoder stops at the end of the shorter payload
    have hst : d (payload ++ extra) 0 = .ok (ofWire r, 0 + payload.length) :=
      (hr _ 0 _ _ (Nat.zero_le _)).mpr ⟨_, payload, extra, ⟨r, rfl, rfl⟩, rfl, hs, rfl⟩
    unfold exact at hext
    rw [hst] at hext
    by_contra hne
    have hl := length_pos_of_ne_nil hne
    have hpa : 0 + payload.length ≠ (payload ++ extra).length := by
      rw [length_append]
      omega
    have he : (Except.error (invalid "trailing bytes after window payload") :
        Except KipcError T) = .ok w := by
      rw [← hext]
      exact (if_pos hpa).symm
    cases he
  known := by
    intro n here rest v hva hv
    obtain ⟨r, rfl, hs⟩ := (exact_ok hr).mp hv
    obtain ⟨m, tail, ham, hm⟩ := hk r
    rw [ham] at hs
    obtain ⟨here', rest', hsp, hva', -⟩ := spelled_append.mp hs
    rw [(varint_unique hva (spelled_singleton.mp hva') hsp).1]
    exact hm

/-! ## What a field turns away -/

/-- The readers of single fields, at any offset of any payload. -/
structure FieldLimits : Prop where
  u32 : ∀ bytes offset n fin, decodeVarint bytes offset = .ok (n, fin) →
    fin ≤ offset + 5 ∧ n < 2 ^ 32
  u64 : ∀ bytes offset n fin, decodeU64Varint bytes offset = .ok (n, fin) →
    fin ≤ offset + 10 ∧ n < 2 ^ 64
  flag : ∀ bytes offset b fin, decodeBool bytes offset = .ok (b, fin) →
    bytes[offset]? = some (if b then 1 else 0)
  tag : ∀ (T : Type) (d : Decoder T) bytes offset o fin,
    decodeOption d bytes offset = .ok (o, fin) →
      bytes[offset]? = some (if o.isSome then 1 else 0)
  /-- A string is as many bytes of UTF-8 as its length says. -/
  text : ∀ bytes offset text fin, Payload bytes → decodePostcardStringAt bytes offset =
    .ok (text, fin) → ∃ here rest, bytes.drop offset = here ++ rest ∧
      StringSpelled text here ∧ fin = offset + here.length
  /-- A refusal is two strings and nothing else. -/
  refusal : ∀ payload e, Payload payload → decodeCallError payload = .ok e →
    ∃ code message, payload = code ++ message ∧ StringSpelled e.code code ∧
      StringSpelled e.message message

theorem decodeVarintAt_offset (h : decodeVarintAt bytes offset detail width = .ok (n, fin)) :
    offset ≤ bytes.length := by
  by_contra hpa
  unfold decodeVarintAt at h
  rw [if_pos (not_le.mp hpa)] at h
  cases h

theorem decodeVarintAt_limits (h : decodeVarintAt bytes offset detail width = .ok (n, fin)) :
    fin ≤ offset + width.maximumBytes ∧
      n < 128 ^ (width.maximumBytes - 1) * (width.finalMaximum + 1) := by
  obtain ⟨here, rest, -, hv, rfl⟩ := (decodeVarintAt_ok (decodeVarintAt_offset h)).mp h
  exact ⟨Nat.add_le_add_left hv.length_le _, hv.lt⟩

theorem stringAt_spelled {text : String} (hs : Payload bytes)
    (h : decodePostcardStringAt bytes offset = .ok (text, fin)) :
    ∃ here rest, bytes.drop offset = here ++ rest ∧ StringSpelled text here ∧
      fin = offset + here.length := by
  obtain ⟨⟨n, mid⟩, hl, -⟩ := bind_ok.mp h
  exact (decodePostcardStringAt_ok hs (decodeVarintAt_offset hl)).mp h

theorem fieldLimits : FieldLimits where
  u32 bytes offset n fin h := decodeVarintAt_limits h
  u64 bytes offset n fin h := decodeVarintAt_limits h
  flag := by
    intro bytes offset b fin h
    unfold decodeBool at h
    dsimp only at h
    split_ifs at h with hbad
    cases h
    by_cases ho : bytes[offset]? = some 1
    · rw [if_pos (decide_eq_true ho), ho]
    · rw [if_neg (by rw [decide_eq_true_iff]; exact ho)]
      exact not_not.mp (fun hz => hbad ⟨hz, ho⟩)
  tag := by
    intro T d bytes offset o fin h
    unfold decodeOption at h
    dsimp only at h
    split_ifs at h with hn hso
    · cases h
      exact hn
    · obtain ⟨⟨value, fin'⟩, -, h⟩ := bind_ok.mp h
      cases h
      exact not_not.mp hso
  text bytes offset text fin hsi h := stringAt_spelled hsi h
  refusal := by
    intro payload e hsi h
    obtain ⟨⟨code, mid⟩, hco, h⟩ := bind_ok.mp h
    obtain ⟨⟨message, fin⟩, hme, h⟩ := bind_ok.mp h
    obtain ⟨he, h⟩ := bind_unit_ok.mp h
    obtain ⟨-, h⟩ := bind_unit_ok.mp h
    cases h
    obtain ⟨here, rest, hd, hs, rfl⟩ := stringAt_spelled hsi hco
    obtain ⟨here', rest', hd', hs', hfin⟩ := stringAt_spelled hsi hme
    rw [drop_zero] at hd
    have hr : rest = here' ++ rest' := by
      rw [← hd', Nat.zero_add, hd, drop_left]
    have hni : rest' = [] := by
      have hfu : fin = payload.length := beq_iff_eq.mp (require_ok.mp he)
      have hl := congrArg List.length hd
      rw [hr, length_append, length_append] at hl
      exact eq_nil_of_length_eq_zero (by omega)
    refine ⟨here, here', ?_, hs, hs'⟩
    rw [hd, hr, hni, append_nil]

/-! ## The contract -/

/-- The window channel's wire codec against the host's types. -/
structure WindowCodec : Prop where
  event : WireAgrees encodeWindowEvent decodeWindowEvent WindowEvent.ofWire Wire.WindowEvent.atoms 7
  request : WireAgrees encodeWindowRequest decodeWindowRequest WindowRequest.ofWire
    Wire.WindowRequest.atoms 6
  response : WireAgrees encodeWindowResponse decodeWindowResponse WindowResponse.ofWire
    Wire.WindowResponse.atoms 9
  fields : FieldLimits
  u32 : ∀ n : UInt32, ∃ bytes, encodeVarint (.integer n.toNat) = .ok bytes ∧
    decodeVarint bytes 0 = .ok (n.toNat, bytes.length)
  u64 : ∀ n : UInt64, ∃ bytes, encodeU64Varint n.toNat = .ok bytes ∧
    decodeU64Varint bytes 0 = .ok (n.toNat, bytes.length)
  i32 : ∀ n : Int32, ∃ bytes, encodeI32 (.integer n.toInt) = .ok bytes ∧
    decodeI32 bytes 0 = .ok (.integer n.toInt, bytes.length)

theorem field_roundTrip {S : Type} {encode : S → Except KipcError (List Byte)} {f : R → S}
    {g : R → T} (hw : Writes encode f atoms) (hr : Reads d (Of g atoms))
    (hfit : ∀ r, Wire.AllFit (atoms r)) (r : R) :
    ∃ bytes, encode (f r) = .ok bytes ∧ d bytes 0 = .ok (g r, bytes.length) := by
  refine ⟨postcard (atoms r), hw.ofWire r, ?_⟩
  refine (hr _ 0 _ _ (Nat.zero_le _)).mpr
    ⟨_, postcard (atoms r), [], ⟨r, rfl, rfl⟩, ?_, spelled_postcard (hfit r), ?_⟩
  · rw [drop_zero, append_nil]
  · rw [Nat.zero_add]

theorem window_codec : WindowCodec where
  event := wireAgrees WindowEvent.ofWire_injective writesWindowEvent reads_eventAt
    Wire.WindowEvent.allFit Wire.WindowEvent.known
  request := wireAgrees WindowRequest.ofWire_injective writesWindowRequest reads_requestAt
    Wire.WindowRequest.allFit Wire.WindowRequest.known
  response := wireAgrees WindowResponse.ofWire_injective writesWindowResponse reads_responseAt
    Wire.WindowResponse.allFit Wire.WindowResponse.known
  fields := fieldLimits
  u32 := field_roundTrip writesVarint readsVarint Wire.allFit_u32
  u64 := field_roundTrip writesU64Varint readsU64Varint Wire.allFit_u64
  i32 := field_roundTrip writesI32 reads_decodeI32 Wire.allFit_i32

end Keld.Kipc
