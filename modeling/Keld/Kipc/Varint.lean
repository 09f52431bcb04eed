/-
# `Keld.Kipc.Varint` — the transport's varints

`encodeVarint` and `decodeVarint` write and read a `u32` as a LEB128 varint in
the arithmetic of numbers, `encodeU64Varint` and `decodeU64Varint` a `u64` in
that of bigints.  Both readers are `decodeVarintAt`, which differs between the
widths in its limits and in how it accumulates.  Every number operation rounds
(`Keld.Ieee`), and for every value that passes the checks it rounds nothing
away: the writer's bytes are `leb128`, and the reader accepts exactly the
spellings of `Varint` and returns the number that they spell.

A number is `JsValue.integer n` when `Number.isInteger` holds of it, negative
zero being 0 here as it is for `===`.
-/
import Keld.Kipc.Receive
import Keld.Lib.Ieee
import Keld.Lib.Postcard

namespace Keld.Kipc

/-! ## Writing -/

variable {n acc place index value fin : ℕ} {bytes : List Byte} {detail : String}

theorem int_small (h : n < 2 ^ 53) : Ieee.int n = n :=
  Ieee.int_exact (by rw [abs_of_nonneg (Int.natCast_nonneg n)]; exact_mod_cast h)

/-- `Math.floor(v / 128)`. -/
def nextGroup (v : ℕ) : ℕ := (Ieee.floorDiv v 128).toNat

theorem nextGroup_eq {v : ℕ} (h : v < 2 ^ 53) : nextGroup v = v / 128 := by
  have hex := Ieee.floorDiv_exact (n := v)
    (by rw [abs_of_nonneg (Int.natCast_nonneg v)]; exact_mod_cast h) 7
  unfold nextGroup
  have h128 : ((2 ^ 7 : ℕ) : ℤ) = 128 := by norm_num
  rw [h128] at hex
  omega

/-- The `do … while (v !== 0)` of `encodeVarint`. -/
def varintBytes (v : ℕ) (safe : v < 2 ^ 53) : List Byte :=
  let byte := UInt8.ofNat (v % 128)
  if h : nextGroup v = 0 then [byte]
  else (byte ||| 0x80) :: varintBytes (nextGroup v)
    (by rw [nextGroup_eq safe]; omega)
termination_by v
decreasing_by
  rw [nextGroup_eq safe] at h ⊢
  omega

def encodeVarint (n : JsValue) : Except KipcError (List Byte) :=
  let refused : KipcError :=
    ⟨"KELD-IPC-003", "varint value must be an integer in [0, 4294967295], got " ++ n.toText⟩
  match n with
  | .other _ => .error refused
  | .integer n =>
    if h : 0 ≤ n ∧ n ≤ 0xffffffff then .ok (varintBytes n.toNat (by omega)) else .error refused

/-- The `do … while (value !== 0n)` of `encodeU64Varint`. -/
def wideVarintBytes (value : ℕ) : List Byte :=
  let byte := UInt8.ofNat (value &&& 0x7f)
  let rest := value >>> 7
  if rest = 0 then [byte] else (byte ||| 0x80) :: wideVarintBytes rest
termination_by value
decreasing_by
  rename_i h
  simp only [rest, Nat.shiftRight_eq_div_pow] at h ⊢
  omega

def encodeU64Varint (n : ℤ) : Except KipcError (List Byte) :=
  if 0 ≤ n ∧ n ≤ 0xffffffffffffffff then .ok (wideVarintBytes n.toNat)
  else .error
    ⟨"KELD-IPC-003", "u64 varint value must be a bigint in [0, 18446744073709551615]"⟩

theorem group_or_continue (h : n < 128) : UInt8.ofNat n ||| 0x80 = UInt8.ofNat (n + 128) := by
  interval_cases n <;> rfl

theorem varintBytes_eq (v : ℕ) (safe : v < 2 ^ 53) : varintBytes v safe = leb128 v := by
  induction v using Nat.strong_induction_on with
  | _ v ih =>
    rw [varintBytes, leb128]
    simp only [nextGroup_eq safe, dite_eq_ite]
    split_ifs with hz
    · rfl
    · rw [group_or_continue (Nat.mod_lt _ (by decide)), ih (v / 128) (by omega)]

theorem wideVarintBytes_eq (v : ℕ) : wideVarintBytes v = leb128 v := by
  induction v using Nat.strong_induction_on with
  | _ v ih =>
    have hg : v &&& 0x7f = v % 128 := Nat.and_two_pow_sub_one_eq_mod v 7
    have hr : v >>> 7 = v / 128 := Nat.shiftRight_eq_div_pow v 7
    rw [wideVarintBytes, leb128]
    simp only [hg, hr]
    split_ifs with hz
    · rfl
    · rw [group_or_continue (Nat.mod_lt _ (by decide)), ih (v / 128) (by omega)]

/-- `encodeVarint` admits the `u32`s, and writes their postcard bytes. -/
theorem encodeVarint_ok {n : JsValue} :
    encodeVarint n = .ok bytes ↔ ∃ r : UInt32, n = .integer r.toNat ∧ bytes = leb128 r.toNat := by
  constructor
  · intro h
    cases n with
    | other text => cases h
    | integer n =>
      simp only [encodeVarint] at h
      split_ifs at h with hra
      cases h
      have hr : (UInt32.ofNat n.toNat).toNat = n.toNat := by
        rw [UInt32.toNat_ofNat']
        exact Nat.mod_eq_of_lt (by omega)
      refine ⟨UInt32.ofNat n.toNat, ?_, ?_⟩
      · rw [hr, Int.toNat_of_nonneg hra.1]
      · rw [hr, varintBytes_eq]
  · rintro ⟨r, rfl, rfl⟩
    have hr := r.toNat_lt
    simp only [encodeVarint]
    rw [dif_pos (by omega), varintBytes_eq, Int.toNat_natCast]

/-- `encodeU64Varint` admits the `u64`s, and writes their postcard bytes. -/
theorem encodeU64Varint_ok {n : ℤ} :
    encodeU64Varint n = .ok bytes ↔ ∃ r : UInt64, n = r.toNat ∧ bytes = leb128 r.toNat := by
  constructor
  · intro h
    simp only [encodeU64Varint] at h
    split_ifs at h with hra
    cases h
    have hr : (UInt64.ofNat n.toNat).toNat = n.toNat := by
      rw [UInt64.toNat_ofNat']
      exact Nat.mod_eq_of_lt (by omega)
    refine ⟨UInt64.ofNat n.toNat, ?_, ?_⟩
    · rw [hr, Int.toNat_of_nonneg hra.1]
    · rw [hr, wideVarintBytes_eq]
  · rintro ⟨r, rfl, rfl⟩
    have hr := r.toNat_lt
    simp only [encodeU64Varint]
    rw [if_pos (by omega), wideVarintBytes_eq, Int.toNat_natCast]

/-! ## Reading -/

inductive Width where
  | w32
  | w64
deriving DecidableEq, Repr

def Width.maximumBytes : Width → ℕ
  | .w32 => 5
  | .w64 => 10

def Width.finalMaximum : Width → ℕ
  | .w32 => 0x0f
  | .w64 => 0x01

def Width.overflowDetail : Width → String
  | .w32 => "u32 varint exceeds five bytes or overflows its fifth byte"
  | .w64 => "u64 varint exceeds ten bytes or overflows its tenth byte"

def Width.tooLongDetail : Width → String
  | .w32 => "u32 varint exceeds five bytes"
  | .w64 => "u64 varint exceeds ten bytes"

/-- One group more: `result` in number arithmetic, `wideResult` in that of bigints. -/
def Width.accumulate (width : Width) (acc place index : ℕ) (byte : Byte) : ℕ :=
  let group := byte.toNat &&& 0x7f
  match width with
  | .w32 => (Ieee.int (acc + Ieee.int (group * place))).toNat
  | .w64 => acc ||| group <<< (index * 7)

/-- The loop of `decodeVarintAt` with `turns` turns left. -/
def varintLoop (width : Width) (bytes : List Byte) (truncatedDetail : String) :
    (turns index acc place pos : ℕ) → Except KipcError (ℕ × ℕ)
  | 0, _, _, _, _ => .error ⟨"KELD-IPC-003", width.tooLongDetail⟩
  | turns + 1, index, acc, place, pos =>
    match bytes[pos]? with
    | none => .error ⟨"KELD-IPC-003", truncatedDetail⟩
    | some byte =>
      if turns = 0 ∧ width.finalMaximum < byte.toNat then
        .error ⟨"KELD-IPC-003", width.overflowDetail⟩
      else
        let acc := width.accumulate acc place index byte
        if byte.toNat &&& 0x80 = 0 then .ok (acc, pos + 1)
        else
          varintLoop width bytes truncatedDetail turns (index + 1) acc
            (Ieee.int (place * 128)).toNat (pos + 1)

def decodeVarintAt (bytes : List Byte) (offset : ℕ) (truncatedDetail : String) (width : Width) :
    Except KipcError (ℕ × ℕ) :=
  if bytes.length < offset then
    .error ⟨"KELD-IPC-003", "varint offset must be an integer in [0, " ++
      toString bytes.length ++ "], got " ++ toString offset⟩
  else varintLoop width bytes truncatedDetail width.maximumBytes 0 0 1 offset

/-- A reader at an offset: the value, and the offset after it. -/
abbrev Decoder (T : Type) := List Byte → ℕ → Except KipcError (T × ℕ)

def decodeU64Varint : Decoder ℕ := fun bytes offset =>
  decodeVarintAt bytes offset "truncated u64 varint" .w64

def decodeVarint : Decoder ℕ := fun bytes offset =>
  decodeVarintAt bytes offset "truncated varint" .w32

/-! ## What the readers accept -/

theorem group_eq (byte : Byte) : byte.toNat &&& 0x7f = byte.toNat % 128 :=
  Nat.and_two_pow_sub_one_eq_mod byte.toNat 7

theorem continue_eq_zero (byte : Byte) : byte.toNat &&& 0x80 = 0 ↔ byte.toNat < 128 := by
  have hlt : byte.toNat < 256 := byte.toNat_lt
  generalize byte.toNat = n at hlt ⊢
  interval_cases n <;> decide

variable {width : Width}

/-- A group adds its digits at its place, exactly.  Only numbers have a `placeValue`. -/
theorem accumulate_eq (byte : Byte) (hacc : acc < 128 ^ index)
    (hpl : width = .w32 → place = 128 ^ index) (hin : index < width.maximumBytes) :
    width.accumulate acc place index byte = acc + 128 ^ index * (byte.toNat % 128) := by
  cases width with
  | w32 =>
    rw [hpl rfl]
    have hpow : 128 ^ index ≤ 128 ^ 4 := Nat.pow_le_pow_right (by decide) (Nat.le_of_lt_succ hin)
    have hmul : byte.toNat % 128 * 128 ^ index ≤ 127 * 128 ^ 4 := Nat.mul_le_mul (by omega) hpow
    have hte := int_small (n := byte.toNat % 128 * 128 ^ index) (by omega)
    have hsum := int_small (n := acc + byte.toNat % 128 * 128 ^ index) (by omega)
    simp only [Width.accumulate, group_eq]
    rw [← Nat.cast_mul, hte, ← Nat.cast_add, hsum, Int.toNat_natCast, Nat.mul_comm]
  | w64 =>
    have hsh : 128 ^ index = 2 ^ (index * 7) := by
      rw [Nat.mul_comm, Nat.pow_mul]
    simp only [Width.accumulate, group_eq]
    rw [hsh] at hacc ⊢
    rw [Nat.shiftLeft_eq, Nat.mul_comm _ (2 ^ (index * 7)), Nat.or_comm,
      ← Nat.two_pow_add_eq_or_of_lt hacc, Nat.add_comm]

theorem place_eq (h : index < 5) :
    (Ieee.int ((128 ^ index : ℕ) * 128)).toNat = 128 ^ (index + 1) := by
  have hpow : 128 ^ index ≤ 128 ^ 4 := Nat.pow_le_pow_right (by decide) (Nat.le_of_lt_succ h)
  have hi := int_small (n := 128 ^ index * 128) (by omega)
  rw [Nat.cast_mul, Nat.cast_ofNat] at hi
  rw [hi, Nat.pow_succ]
  omega

/-- The loop returns exactly what the spellings at its place spell. -/
theorem varintLoop_ok {turns pos : ℕ} (htu : index + turns = width.maximumBytes)
    (hacc : acc < 128 ^ index) (hpl : width = .w32 → place = 128 ^ index) :
    varintLoop width bytes detail turns index acc place pos = .ok (value, fin) ↔
      ∃ here rest n, bytes.drop pos = here ++ rest ∧ Varint width.finalMaximum turns here n ∧
        value = acc + 128 ^ index * n ∧ fin = pos + here.length := by
  induction turns generalizing index acc place pos with
  | zero =>
    constructor
    · intro h
      cases h
    · rintro ⟨here, rest, n, -, hv, -⟩
      cases hv
  | succ turns ih =>
    rw [varintLoop]
    cases hby : bytes[pos]? with
    | none =>
      have hni : bytes.drop pos = [] := List.drop_eq_nil_iff.mpr (List.getElem?_eq_none_iff.mp hby)
      constructor
      · intro h
        cases h
      · rintro ⟨here, rest, n, hd, hv, -⟩
        rw [hni] at hd
        cases hv <;> cases hd
    | some byte =>
      obtain ⟨hlt, hg⟩ := List.getElem?_eq_some_iff.mp hby
      have hd : bytes.drop pos = byte :: bytes.drop (pos + 1) := by
        rw [← hg]
        exact List.drop_eq_getElem_cons hlt
      have hsum := accumulate_eq byte hacc hpl (by omega)
      have hb : byte.toNat < 256 := byte.toNat_lt
      rw [hd, varint_cons (P := fun n len => value = acc + 128 ^ index * n ∧ fin = pos + len)]
      simp only [hsum, continue_eq_zero]
      split_ifs with hov hl
      · -- the last place holds too much, or asks for a byte more
        refine ⟨fun h => (nomatch h), ?_⟩
        rintro (⟨-, hf, -⟩ | ⟨-, here, rest, n, -, hv, -⟩)
        · exact absurd (hf hov.1) (Nat.not_le_of_lt hov.2)
        · exact absurd hov.1 (Nat.ne_of_gt hv.pos)
      · have hmod : byte.toNat % 128 = byte.toNat := Nat.mod_eq_of_lt hl
        rw [hmod]
        constructor
        · intro h
          cases h
          exact .inl ⟨hl, fun h0 => not_lt.mp (fun h => hov ⟨h0, h⟩), rfl, rfl⟩
        · rintro (⟨-, -, rfl, rfl⟩ | ⟨hhi, -⟩)
          · rfl
          · exact absurd hl (Nat.not_lt_of_le hhi)
      · have hhi : 128 ≤ byte.toNat := not_lt.mp hl
        have hmod : byte.toNat % 128 = byte.toNat - 128 := by omega
        have hn : acc + 128 ^ index * (byte.toNat - 128) < 128 ^ (index + 1) := by
          have hmul : 128 ^ index * (byte.toNat - 128) ≤ 128 ^ index * 127 :=
            Nat.mul_le_mul_left _ (by omega)
          omega
        have hpl' : width = .w32 → (Ieee.int (place * 128)).toNat = 128 ^ (index + 1) := by
          intro hw
          rw [hpl hw]
          refine place_eq ?_
          subst hw
          have hfi : index + (turns + 1) = 5 := htu
          omega
        rw [hmod, ih (by omega) hn hpl']
        constructor
        · rintro ⟨here, rest, n, hs, hv, rfl, rfl⟩
          refine .inr ⟨hhi, here, rest, n, hs, hv, ?_, by omega⟩
          ring
        · rintro (⟨hlow, -⟩ | ⟨-, here, rest, n, hs, hv, rfl, rfl⟩)
          · exact absurd hlow hl
          · refine ⟨here, rest, n, hs, hv, ?_, by omega⟩
            ring

theorem decodeVarintAt_ok {offset : ℕ} (hoff : offset ≤ bytes.length) :
    decodeVarintAt bytes offset detail width = .ok (value, fin) ↔
      ∃ here rest, bytes.drop offset = here ++ rest ∧
        Varint width.finalMaximum width.maximumBytes here value ∧ fin = offset + here.length := by
  have hpl : width = .w32 → 1 = 128 ^ 0 := fun _ => rfl
  unfold decodeVarintAt
  rw [if_neg (Nat.not_lt_of_le hoff), varintLoop_ok (Nat.zero_add _) Nat.one_pos hpl]
  constructor
  · rintro ⟨here, rest, n, hd, hv, rfl, rfl⟩
    rw [Nat.pow_zero, Nat.one_mul, Nat.zero_add]
    exact ⟨here, rest, hd, hv, rfl⟩
  · rintro ⟨here, rest, hd, hv, rfl⟩
    exact ⟨here, rest, value, hd, hv, by ring, rfl⟩

/-- What a reader accepts at an offset, over every payload: the value `v` for the atoms `as` and
nothing else, with its end right after their spelling. -/
def Reads {T : Type} (decode : Decoder T) (L : T → List Atom → Prop) : Prop :=
  ∀ (bytes : List Byte) (offset : ℕ) (v : T) (fin : ℕ), offset ≤ bytes.length →
    (decode bytes offset = .ok (v, fin) ↔
      ∃ as here rest, L v as ∧ bytes.drop offset = here ++ rest ∧ Spelled as here ∧
        fin = offset + here.length)

theorem reads_decodeVarint :
    Reads decodeVarint (fun v as => ∃ r : UInt32, v = r.toNat ∧ as = [.u32 r.toNat]) := by
  intro bytes offset v fin hoff
  unfold decodeVarint
  rw [decodeVarintAt_ok hoff]
  constructor
  · rintro ⟨here, rest, hd, hv, rfl⟩
    have hn : (UInt32.ofNat v).toNat = v := by
      rw [UInt32.toNat_ofNat']
      exact Nat.mod_eq_of_lt hv.lt
    refine ⟨[.u32 v], here, rest, ⟨UInt32.ofNat v, hn.symm, ?_⟩, hd, spelled_singleton.mpr hv, rfl⟩
    rw [hn]
  · rintro ⟨as, here, rest, ⟨r, rfl, rfl⟩, hd, hs, rfl⟩
    exact ⟨here, rest, hd, spelled_singleton.mp hs, rfl⟩

theorem reads_decodeU64Varint :
    Reads decodeU64Varint (fun v as => ∃ r : UInt64, v = r.toNat ∧ as = [.u64 r.toNat]) := by
  intro bytes offset v fin hoff
  unfold decodeU64Varint
  rw [decodeVarintAt_ok hoff]
  constructor
  · rintro ⟨here, rest, hd, hv, rfl⟩
    have hn : (UInt64.ofNat v).toNat = v := by
      rw [UInt64.toNat_ofNat']
      exact Nat.mod_eq_of_lt hv.lt
    refine ⟨[.u64 v], here, rest, ⟨UInt64.ofNat v, hn.symm, ?_⟩, hd, spelled_singleton.mpr hv, rfl⟩
    rw [hn]
  · rintro ⟨as, here, rest, ⟨r, rfl, rfl⟩, hd, hs, rfl⟩
    exact ⟨here, rest, hd, spelled_singleton.mp hs, rfl⟩

end Keld.Kipc
