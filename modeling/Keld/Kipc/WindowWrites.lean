/-
# `Keld.Kipc.WindowWrites` — what the window encoders write

Each encoder admits exactly the counterparts of the host's values, and writes
the postcard bytes of the host's value.
-/
import Keld.Kipc.WindowReads

namespace Keld.Kipc

/-- The encoder admits the values `f r`, and writes the bytes of `r` for them. -/
def Writes {R T : Type} (encode : T → Except KipcError (List Byte)) (f : R → T)
    (atoms : R → List Atom) : Prop :=
  ∀ v bytes, encode v = .ok bytes ↔ ∃ r, v = f r ∧ bytes = postcard (atoms r)

section Rules

variable {R T : Type} {encode : T → Except KipcError (List Byte)} {f : R → T}
  {atoms : R → List Atom}

theorem Writes.ofWire (h : Writes encode f atoms) (r : R) :
    encode (f r) = .ok (postcard (atoms r)) :=
  (h _ _).mpr ⟨r, rfl, rfl⟩

theorem Writes.admits (h : Writes encode f atoms) {v : T} {bytes : List Byte}
    (hv : encode v = .ok bytes) : ∃ r, v = f r ∧ bytes = postcard (atoms r) :=
  (h _ _).mp hv

/-- An encoder in front of others. -/
theorem Writes.field (h : Writes encode f atoms) {v : T}
    {k : List Byte → Except KipcError (List Byte)} {bytes : List Byte}
    (hv : (encode v >>= k) = .ok bytes) : ∃ r, v = f r ∧ ∃ part, k part = .ok bytes := by
  obtain ⟨part, hp, hk⟩ := bind_ok.mp hv
  obtain ⟨r, hr, -⟩ := h.admits hp
  exact ⟨r, hr, part, hk⟩

/-- The two halves of `Writes`, apart. -/
theorem Writes.intro (hw : ∀ r, encode (f r) = .ok (postcard (atoms r)))
    (hfo : ∀ v bytes, encode v = .ok bytes → ∃ r, v = f r) : Writes encode f atoms := by
  intro v bytes
  constructor
  · intro hv
    obtain ⟨r, rfl⟩ := hfo v bytes hv
    rw [hw r] at hv
    cases hv
    exact ⟨r, rfl, rfl⟩
  · rintro ⟨r, rfl, rfl⟩
    exact hw r

end Rules

/-! ## Primitives -/

theorem writesVarint : Writes encodeVarint (fun n : UInt32 => .integer n.toNat) Wire.u32Atoms := by
  intro v bytes
  rw [encodeVarint_ok]
  simp only [Wire.u32Atoms, postcard_cons, postcard_nil, List.append_nil, Atom.bytes]

theorem writesU64Varint :
    Writes encodeU64Varint (fun n : UInt64 => (n.toNat : ℤ)) Wire.u64Atoms := by
  intro v bytes
  rw [encodeU64Varint_ok]
  simp only [Wire.u64Atoms, postcard_cons, postcard_nil, List.append_nil, Atom.bytes]

theorem encode_discriminant (n : UInt32) (k : ℤ) (h : n.toNat = k) :
    encodeVarint (.integer k) = .ok (postcard (Wire.u32Atoms n)) := by
  rw [← h]
  exact writesVarint.ofWire n

theorem encodeBool_eq (b : Bool) : encodeBool b = postcard (Wire.boolAtoms b) := by
  simp only [Wire.boolAtoms, postcard_cons, postcard_nil, List.append_nil, Atom.bytes, encodeBool]

theorem zigzag_eq {n : ℤ} (hlow : -2 ^ 31 ≤ n) (hhi : n < 2 ^ 31) :
    (if n < 0 then Ieee.int (Ieee.int (-n * 2) - 1) else Ieee.int (n * 2)) = zigzag n := by
  unfold zigzag
  split_ifs with hneg
  · rw [Ieee.int_exact (n := -n * 2) (abs_lt.mpr ⟨by omega, by omega⟩),
      Ieee.int_exact (abs_lt.mpr ⟨by omega, by omega⟩), Int.toNat_of_nonneg (by omega)]
  · rw [Ieee.int_exact (abs_lt.mpr ⟨by omega, by omega⟩), Int.toNat_of_nonneg (by omega)]

theorem writesI32 : Writes encodeI32 (fun n : Int32 => .integer n.toInt) Wire.i32Atoms := by
  refine Writes.intro (fun r => ?_) (fun v bytes hv => ?_)
  · have hlow := r.le_toInt
    have hhi := r.toInt_lt
    have hnat : (UInt32.ofNat (zigzag r.toInt)).toNat = zigzag r.toInt := by
      rw [UInt32.toNat_ofNat']
      exact Nat.mod_eq_of_lt (zigzag_lt hlow hhi)
    have hw := writesVarint.ofWire (UInt32.ofNat (zigzag r.toInt))
    dsimp only [Wire.u32Atoms] at hw
    rw [hnat] at hw
    simp only [encodeI32]
    rw [if_neg (by omega), zigzag_eq hlow hhi]
    exact hw
  · cases v with
    | other text => cases hv
    | integer n =>
      simp only [encodeI32] at hv
      rw [ite_eq_iff, or_iff_right (by rintro ⟨-, h⟩; cases h)] at hv
      obtain ⟨hra, -⟩ := hv
      refine ⟨Int32.ofInt n, ?_⟩
      rw [Int32.toInt_ofInt_of_le (by omega) (by omega)]

theorem writesOption {R T : Type} {encode : T → Except KipcError (List Byte)} {f : R → T}
    {atoms : R → List Atom} (h : Writes encode f atoms) :
    Writes (fun o => encodeOption o encode) (Option.map f) (Wire.optionAtoms atoms) := by
  refine Writes.intro (fun r => ?_) (fun v bytes hv => ?_)
  · cases r with
    | none => rfl
    | some r =>
      simp only [Option.map_some, encodeOption, h.ofWire r]
      exact congrArg Except.ok (by simp [join, Wire.optionAtoms, Atom.bytes])
  · cases v with
    | none => exact ⟨none, rfl⟩
    | some v =>
      obtain ⟨part, hp, -⟩ := bind_ok.mp hv
      obtain ⟨r, rfl, -⟩ := h.admits hp
      exact ⟨some r, rfl⟩

/-! ## References, bounds, states and verdicts -/

theorem writesWindowRef : Writes encodeWindowRef WindowRef.ofWire Wire.WindowRef.atoms := by
  refine Writes.intro (fun r => ?_) (fun v bytes hv => ?_)
  · simp only [encodeWindowRef, WindowRef.ofWire, writesVarint.ofWire r.id,
      writesU64Varint.ofWire r.incarnation]
    exact congrArg Except.ok (by simp [join, Wire.WindowRef.atoms])
  · obtain ⟨_, hid, hv⟩ := bind_ok.mp hv
    obtain ⟨_, hinc, -⟩ := bind_ok.mp hv
    obtain ⟨id, hid, -⟩ := writesVarint.admits hid
    obtain ⟨inc, hinc, -⟩ := writesU64Varint.admits hinc
    refine ⟨⟨id, inc⟩, ?_⟩
    unfold WindowRef.ofWire
    rw [← hid, ← hinc]

theorem writesRect : Writes encodeRect Rect.ofWire Wire.Rect.atoms := by
  refine Writes.intro (fun r => ?_) (fun v bytes hv => ?_)
  · simp only [encodeRect, Rect.ofWire, writesI32.ofWire, writesVarint.ofWire]
    exact congrArg Except.ok (by simp [join, Wire.Rect.atoms])
  · obtain ⟨_, hx, hv⟩ := bind_ok.mp hv
    obtain ⟨_, hy, hv⟩ := bind_ok.mp hv
    obtain ⟨_, hwi, hv⟩ := bind_ok.mp hv
    obtain ⟨_, hhe, -⟩ := bind_ok.mp hv
    obtain ⟨x, hx, -⟩ := writesI32.admits hx
    obtain ⟨y, hy, -⟩ := writesI32.admits hy
    obtain ⟨width, hwi, -⟩ := writesVarint.admits hwi
    obtain ⟨height, hhe, -⟩ := writesVarint.admits hhe
    refine ⟨⟨x, y, width, height⟩, ?_⟩
    unfold Rect.ofWire
    rw [← hx, ← hy, ← hwi, ← hhe]

theorem writesWindowState : Writes encodeWindowState WindowState.ofWire Wire.WindowState.atoms := by
  refine Writes.intro (fun s => ?_) (fun v bytes hv => ?_)
  · simp only [encodeWindowState, WindowState.ofWire, writesRect.ofWire, encodeBool_eq]
    exact congrArg Except.ok (by simp [join, Wire.WindowState.atoms])
  · obtain ⟨_, hbo, -⟩ := bind_ok.mp hv
    obtain ⟨bounds, hbo, -⟩ := writesRect.admits hbo
    refine ⟨⟨bounds, v.focused, v.maximized, v.fullScreen⟩, ?_⟩
    unfold WindowState.ofWire
    rw [← hbo]

theorem writesCloseVerdict :
    Writes encodeCloseVerdict CloseVerdict.ofWire Wire.CloseVerdict.atoms := by
  refine Writes.intro (fun r => ?_) (fun v bytes hv => ?_)
  · cases r with
    | allow => exact encode_discriminant 0 0 rfl
    | veto => exact encode_discriminant 1 1 rfl
  · cases v with
    | allow => exact ⟨.allow, rfl⟩
    | veto => exact ⟨.veto, rfl⟩

/-! ## Events, requests and responses -/

theorem writesWindowEvent : Writes encodeWindowEvent WindowEvent.ofWire Wire.WindowEvent.atoms := by
  refine Writes.intro (fun e => ?_) (fun v bytes hv => ?_)
  · cases e with
    | created w state pendingClose =>
      have hop := (writesOption writesU64Varint).ofWire pendingClose
      simp only [encodeWindowEvent, WindowEvent.ofWire, encode_discriminant 0 0 rfl,
        writesWindowRef.ofWire, writesWindowState.ofWire, hop]
      exact congrArg Except.ok (by simp [join, Wire.WindowEvent.atoms])
    | bounds w rect =>
      simp only [encodeWindowEvent, WindowEvent.ofWire, encode_discriminant 1 1 rfl,
        writesWindowRef.ofWire, writesRect.ofWire]
      exact congrArg Except.ok (by simp [join, Wire.WindowEvent.atoms])
    | focus w focused =>
      simp only [encodeWindowEvent, WindowEvent.ofWire, encode_discriminant 2 2 rfl,
        writesWindowRef.ofWire, encodeBool_eq]
      exact congrArg Except.ok (by simp [join, Wire.WindowEvent.atoms])
    | maximized w on =>
      simp only [encodeWindowEvent, WindowEvent.ofWire, encode_discriminant 3 3 rfl,
        writesWindowRef.ofWire, encodeBool_eq]
      exact congrArg Except.ok (by simp [join, Wire.WindowEvent.atoms])
    | fullScreen w on =>
      simp only [encodeWindowEvent, WindowEvent.ofWire, encode_discriminant 4 4 rfl,
        writesWindowRef.ofWire, encodeBool_eq]
      exact congrArg Except.ok (by simp [join, Wire.WindowEvent.atoms])
    | closeRequested w closeSeq =>
      simp only [encodeWindowEvent, WindowEvent.ofWire, encode_discriminant 5 5 rfl,
        writesWindowRef.ofWire, writesU64Varint.ofWire closeSeq]
      exact congrArg Except.ok (by simp [join, Wire.WindowEvent.atoms])
    | destroyed w =>
      simp only [encodeWindowEvent, WindowEvent.ofWire, encode_discriminant 6 6 rfl,
        writesWindowRef.ofWire]
      exact congrArg Except.ok (by simp [join, Wire.WindowEvent.atoms])
  · -- every event begins with its discriminant and its window
    cases v
    all_goals obtain ⟨tag, -, hr⟩ := bind_ok.mp hv
    case created window state pendingClose =>
      obtain ⟨w, rfl, _, hv⟩ := writesWindowRef.field hr
      obtain ⟨s, rfl, _, hv⟩ := writesWindowState.field hv
      obtain ⟨p, rfl, -⟩ := (writesOption writesU64Varint).field hv
      exact ⟨.created w s p, rfl⟩
    case bounds window rect =>
      obtain ⟨w, rfl, _, hv⟩ := writesWindowRef.field hr
      obtain ⟨r, rfl, -⟩ := writesRect.field hv
      exact ⟨.bounds w r, rfl⟩
    case focus window focused =>
      obtain ⟨w, rfl, -⟩ := writesWindowRef.field hr
      exact ⟨.focus w focused, rfl⟩
    case maximized window on =>
      obtain ⟨w, rfl, -⟩ := writesWindowRef.field hr
      exact ⟨.maximized w on, rfl⟩
    case fullScreen window on =>
      obtain ⟨w, rfl, -⟩ := writesWindowRef.field hr
      exact ⟨.fullScreen w on, rfl⟩
    case closeRequested window closeSeq =>
      obtain ⟨w, rfl, _, hv⟩ := writesWindowRef.field hr
      obtain ⟨n, rfl, -⟩ := writesU64Varint.field hv
      exact ⟨.closeRequested w n, rfl⟩
    case destroyed window =>
      obtain ⟨w, rfl, -⟩ := writesWindowRef.field hr
      exact ⟨.destroyed w, rfl⟩

theorem writesWindowRequest :
    Writes encodeWindowRequest WindowRequest.ofWire Wire.WindowRequest.atoms := by
  refine Writes.intro (fun r => ?_) (fun v bytes hv => ?_)
  · cases r with
    | create width height x y =>
      have hx := (writesOption writesI32).ofWire x
      have hy := (writesOption writesI32).ofWire y
      simp only [encodeWindowRequest, WindowRequest.ofWire, encode_discriminant 0 0 rfl,
        writesVarint.ofWire, hx, hy]
      exact congrArg Except.ok (by simp [join, Wire.WindowRequest.atoms])
    | setMaximized w on =>
      simp only [encodeWindowRequest, WindowRequest.ofWire, encode_discriminant 1 1 rfl,
        writesWindowRef.ofWire, encodeBool_eq]
      exact congrArg Except.ok (by simp [join, Wire.WindowRequest.atoms])
    | setFullScreen w on =>
      simp only [encodeWindowRequest, WindowRequest.ofWire, encode_discriminant 2 2 rfl,
        writesWindowRef.ofWire, encodeBool_eq]
      exact congrArg Except.ok (by simp [join, Wire.WindowRequest.atoms])
    | requestClose w =>
      simp only [encodeWindowRequest, WindowRequest.ofWire, encode_discriminant 3 3 rfl,
        writesWindowRef.ofWire]
      exact congrArg Except.ok (by simp [join, Wire.WindowRequest.atoms])
    | closeReply w closeSeq verdict =>
      simp only [encodeWindowRequest, WindowRequest.ofWire, encode_discriminant 4 4 rfl,
        writesWindowRef.ofWire, writesU64Varint.ofWire closeSeq, writesCloseVerdict.ofWire]
      exact congrArg Except.ok (by simp [join, Wire.WindowRequest.atoms])
    | destroy w =>
      simp only [encodeWindowRequest, WindowRequest.ofWire, encode_discriminant 5 5 rfl,
        writesWindowRef.ofWire]
      exact congrArg Except.ok (by simp [join, Wire.WindowRequest.atoms])
  · cases v
    all_goals obtain ⟨tag, -, hr⟩ := bind_ok.mp hv
    case create width height x y =>
      obtain ⟨width, rfl, _, hv⟩ := writesVarint.field hr
      obtain ⟨height, rfl, _, hv⟩ := writesVarint.field hv
      obtain ⟨x, rfl, _, hv⟩ := (writesOption writesI32).field hv
      obtain ⟨y, rfl, -⟩ := (writesOption writesI32).field hv
      exact ⟨.create width height x y, rfl⟩
    case setMaximized window on =>
      obtain ⟨w, rfl, -⟩ := writesWindowRef.field hr
      exact ⟨.setMaximized w on, rfl⟩
    case setFullScreen window on =>
      obtain ⟨w, rfl, -⟩ := writesWindowRef.field hr
      exact ⟨.setFullScreen w on, rfl⟩
    case requestClose window =>
      obtain ⟨w, rfl, -⟩ := writesWindowRef.field hr
      exact ⟨.requestClose w, rfl⟩
    case closeReply window closeSeq verdict =>
      obtain ⟨w, rfl, _, hv⟩ := writesWindowRef.field hr
      obtain ⟨n, rfl, _, hv⟩ := writesU64Varint.field hv
      obtain ⟨c, rfl, -⟩ := writesCloseVerdict.field hv
      exact ⟨.closeReply w n c, rfl⟩
    case destroy window =>
      obtain ⟨w, rfl, -⟩ := writesWindowRef.field hr
      exact ⟨.destroy w, rfl⟩

theorem writesWindowResponse :
    Writes encodeWindowResponse WindowResponse.ofWire Wire.WindowResponse.atoms := by
  refine Writes.intro (fun r => ?_) (fun v bytes hv => ?_)
  · cases r with
    | created w =>
      simp only [encodeWindowResponse, WindowResponse.ofWire, encode_discriminant 0 0 rfl,
        writesWindowRef.ofWire]
      exact congrArg Except.ok (by simp [join, Wire.WindowResponse.atoms])
    | accepted => exact encode_discriminant 1 1 rfl
    | closeRequested closeSeq =>
      simp only [encodeWindowResponse, WindowResponse.ofWire, encode_discriminant 2 2 rfl,
        writesU64Varint.ofWire closeSeq]
      exact congrArg Except.ok (by simp [join, Wire.WindowResponse.atoms])
    | merged closeSeq =>
      simp only [encodeWindowResponse, WindowResponse.ofWire, encode_discriminant 3 3 rfl,
        writesU64Varint.ofWire closeSeq]
      exact congrArg Except.ok (by simp [join, Wire.WindowResponse.atoms])
    | alreadyClosing => exact encode_discriminant 4 4 rfl
    | replyApplied => exact encode_discriminant 5 5 rfl
    | replyStale => exact encode_discriminant 6 6 rfl
    | destroyed => exact encode_discriminant 7 7 rfl
    | adopted w =>
      simp only [encodeWindowResponse, WindowResponse.ofWire, encode_discriminant 8 8 rfl,
        writesWindowRef.ofWire]
      exact congrArg Except.ok (by simp [join, Wire.WindowResponse.atoms])
  · cases v with
    | created window =>
      obtain ⟨_, -, hv⟩ := bind_ok.mp hv
      obtain ⟨w, rfl, -⟩ := writesWindowRef.field hv
      exact ⟨.created w, rfl⟩
    | accepted => exact ⟨.accepted, rfl⟩
    | closeRequested closeSeq =>
      obtain ⟨_, -, hv⟩ := bind_ok.mp hv
      obtain ⟨n, rfl, -⟩ := writesU64Varint.field hv
      exact ⟨.closeRequested n, rfl⟩
    | merged closeSeq =>
      obtain ⟨_, -, hv⟩ := bind_ok.mp hv
      obtain ⟨n, rfl, -⟩ := writesU64Varint.field hv
      exact ⟨.merged n, rfl⟩
    | alreadyClosing => exact ⟨.alreadyClosing, rfl⟩
    | replyApplied => exact ⟨.replyApplied, rfl⟩
    | replyStale => exact ⟨.replyStale, rfl⟩
    | destroyed => exact ⟨.destroyed, rfl⟩
    | adopted window =>
      obtain ⟨_, -, hv⟩ := bind_ok.mp hv
      obtain ⟨w, rfl, -⟩ := writesWindowRef.field hv
      exact ⟨.adopted w, rfl⟩

end Keld.Kipc
