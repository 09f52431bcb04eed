/-
# `Keld.Ipc.Frame` — the kipc frame header

Sixteen bytes, every number least significant byte first:

    magic:u16 | ver:u8 | kind:u8 | flags:u16 | channel:u16 | corr:u32 | len:u32

`FrameHeader.encode` writes them, `FrameHeader.decode` reads them back and
refuses a foreign magic, another protocol version and an unknown kind byte, in
this order.  The two are inverse to each other: `decode_encode`, and
`encode_decode` on every sixteen bytes that `decode` accepts.
-/
import Keld.Lib.Bytes
import Keld.Lib.Except

namespace Keld.Ipc

/-- `b"KI"`, little-endian. -/
def magic : UInt16 := u16Le [75, 73]

/-- The version `HELLO` negotiates; version 2 carries the session token. -/
def protocolVersion : Byte := 2

/-- Bytes of an encoded frame header. -/
def headerLen : Nat := 16

/-- Longest control-plane payload, 16 MiB. -/
def maxFrameLen : Nat := 16 * 1024 * 1024

/-- The frame header's `channel` field. -/
structure ChannelId where
  raw : UInt16
deriving DecidableEq, Repr

/-- Correlates a `reply` or an `err` with the `call` it answers. -/
structure CorrelationId where
  raw : UInt32
deriving DecidableEq, Repr

inductive FrameKind
  | hello
  | call
  | reply
  | err
  | event
  | streamOpen
  | streamChunk
  | streamClose
  | cancel
  | grant
  | ping
deriving DecidableEq, Repr

/-- `kind as u8`. -/
def FrameKind.toU8 : FrameKind → Byte
  | .hello => 0
  | .call => 1
  | .reply => 2
  | .err => 3
  | .event => 4
  | .streamOpen => 5
  | .streamChunk => 6
  | .streamClose => 7
  | .cancel => 8
  | .grant => 9
  | .ping => 10

def FrameKind.fromU8 (value : Byte) : Option FrameKind :=
  match value.toNat with
  | 0 => some .hello
  | 1 => some .call
  | 2 => some .reply
  | 3 => some .err
  | 4 => some .event
  | 5 => some .streamOpen
  | 6 => some .streamChunk
  | 7 => some .streamClose
  | 8 => some .cancel
  | 9 => some .grant
  | 10 => some .ping
  | _ => none

@[simp] theorem FrameKind.fromU8_toU8 (kind : FrameKind) : fromU8 kind.toU8 = some kind := by
  cases kind <;> rfl

theorem FrameKind.toU8_fromU8 {value : Byte} {kind : FrameKind}
    (h : fromU8 value = some kind) : kind.toU8 = value := by
  apply UInt8.toNat_inj.mp
  unfold fromU8 at h
  -- one arm per kind byte; the last arm accepts nothing
  split at h <;> cases h <;> simp only [toU8, *] <;> rfl

/-- Payload is raw bytes, not codec-encoded. -/
def flagRaw : UInt16 := 1

structure FrameHeader where
  kind : FrameKind
  flags : UInt16
  channel : ChannelId
  corr : CorrelationId
  /-- payload bytes that follow the header -/
  len : UInt32
deriving DecidableEq, Repr

inductive HeaderError
  | badMagic (found : UInt16)
  | badVersion (found : Byte)
  | badKind (found : Byte)
deriving DecidableEq, Repr

def FrameHeader.encode (h : FrameHeader) : List Byte :=
  leBytes 2 magic.toNat ++ ([protocolVersion] ++ ([h.kind.toU8] ++ (leBytes 2 h.flags.toNat ++
    (leBytes 2 h.channel.raw.toNat ++ (leBytes 4 h.corr.raw.toNat ++ leBytes 4 h.len.toNat)))))

/-- Reads a header from its wire form; the argument is the `[u8; HEADER_LEN]` buffer. -/
def FrameHeader.decode (bytes : List Byte) : Except HeaderError FrameHeader := do
  let found := u16Le (slice bytes 0 2)
  require (found == magic) (.badMagic found)
  let version := bytes.getD 2 0
  require (version == protocolVersion) (.badVersion version)
  let kind ← orElseError (FrameKind.fromU8 (bytes.getD 3 0)) (.badKind (bytes.getD 3 0))
  return {
    kind := kind
    flags := u16Le (slice bytes 4 2)
    channel := ⟨u16Le (slice bytes 6 2)⟩
    corr := ⟨u32Le (slice bytes 8 4)⟩
    len := u32Le (slice bytes 12 4) }

/-! ## The codec loses nothing -/

@[simp] theorem FrameHeader.length_encode (h : FrameHeader) : h.encode.length = headerLen := by
  simp only [encode, List.length_append, length_leBytes, List.length_singleton, headerLen]

theorem FrameHeader.decode_encode (h : FrameHeader) : decode h.encode = .ok h := by
  have hma : slice h.encode 0 2 = leBytes 2 magic.toNat := slice_append_here (length_leBytes _ _)
  have hfl : slice h.encode 4 2 = leBytes 2 h.flags.toNat := by
    simp [encode, slice_append_past, slice_cons_succ, slice_append_here]
  have hc : slice h.encode 6 2 = leBytes 2 h.channel.raw.toNat := by
    simp [encode, slice_append_past, slice_cons_succ, slice_append_here]
  have hco : slice h.encode 8 4 = leBytes 4 h.corr.raw.toNat := by
    simp [encode, slice_append_past, slice_cons_succ, slice_append_here]
  have hl : slice h.encode 12 4 = leBytes 4 h.len.toNat := by
    simp [encode, slice_append_past, slice_cons_succ, slice_all]
  have hver : h.encode.getD 2 0 = protocolVersion := rfl
  have hk : h.encode.getD 3 0 = h.kind.toU8 := rfl
  simp only [decode, hma, hfl, hc, hco, hl, hver, hk, u16Le_leBytes,
    u32Le_leBytes, beq_self_eq_true, FrameKind.fromU8_toU8]
  rfl

variable {bytes : List Byte} {h : FrameHeader}

theorem FrameHeader.decode_ok (hd : decode bytes = .ok h) :
    u16Le (slice bytes 0 2) = magic ∧ bytes.getD 2 0 = protocolVersion ∧
      FrameKind.fromU8 (bytes.getD 3 0) = some h.kind ∧ u16Le (slice bytes 4 2) = h.flags ∧
      u16Le (slice bytes 6 2) = h.channel.raw ∧ u32Le (slice bytes 8 4) = h.corr.raw ∧
      u32Le (slice bytes 12 4) = h.len := by
  unfold decode at hd
  simp only [bind_unit_ok, orElseError_bind_ok, require_ok, beq_iff_eq] at hd
  obtain ⟨hma, hver, kind, hk, hr⟩ := hd
  cases hr
  exact ⟨hma, hver, hk, rfl, rfl, rfl, rfl⟩

theorem FrameHeader.encode_decode (hl : bytes.length = headerLen) (hd : decode bytes = .ok h) :
    h.encode = bytes := by
  obtain ⟨hma, hver, hk, hfl, hc, hco, hpl⟩ := decode_ok hd
  have h16 : bytes.length = 16 := hl
  have hf : ∀ start len, start + len ≤ 16 → (slice bytes start len).length = len := by
    intro start len hle
    exact length_slice (by omega)
  rw [encode, ← hma, ← hver, FrameKind.toU8_fromU8 hk, ← hfl, ← hc, ← hco,
    ← hpl, leBytes_u16Le (hf _ _ (by decide)), leBytes_u16Le (hf _ _ (by decide)),
    leBytes_u16Le (hf _ _ (by decide)), leBytes_u32Le (hf _ _ (by decide)),
    leBytes_u32Le (hf _ _ (by decide)), ← slice_one (by omega), ← slice_one (by omega),
    slice_append_slice, slice_append_slice, slice_append_slice, slice_append_slice,
    slice_append_slice, slice_append_slice]
  exact slice_all (by omega)

end Keld.Ipc
