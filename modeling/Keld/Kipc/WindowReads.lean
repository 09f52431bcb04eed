/-
# `Keld.Kipc.WindowReads` — what the window decoders accept

Each host payload has its counterpart here (`ofWire`), and each decoder reads
the counterparts: it accepts at an offset exactly the spellings of some host
value's atoms and returns that value's counterpart.  The proof follows the
decoder: `Reads.bind` reads one field and leaves the rest of the value's atoms
to the rest of the decoder, and `Reads.yield` is reached with none left.
-/
import Keld.Kipc.WindowCodec
import Keld.Kipc.WindowWire

namespace Keld.Kipc

open List Wire

/-! ## Rules -/

/-- The values `f r` with the atoms of `r`. -/
def Of {R T : Type} (f : R → T) (atoms : R → List Atom) (v : T) (as : List Atom) : Prop :=
  ∃ r, v = f r ∧ as = atoms r

/-- The atoms of some `r`, then what `K r` has. -/
def Then {R T : Type} (atoms : R → List Atom) (K : R → T → List Atom → Prop) (v : T)
    (as : List Atom) : Prop :=
  ∃ r as', as = atoms r ++ as' ∧ K r v as'

/-- The value `w` with no atoms. -/
def Yields {T : Type} (w v : T) (as : List Atom) : Prop := v = w ∧ as = []

section Rules

variable {R S T : Type}

variable {d : Decoder T} {L : T → List Atom → Prop} {atoms : R → List Atom}

theorem Reads.congr (L' : T → List Atom → Prop) (hd : Reads d L') (h : ∀ v as, L' v as ↔ L v as) :
    Reads d L := by
  intro bytes offset v fin hoff
  rw [hd bytes offset v fin hoff]
  simp only [h]

/-- One field, then the rest. -/
theorem Reads.bind {d : Decoder S} {k : List Byte → S × ℕ → Except KipcError (T × ℕ)} {f : R → S}
    {K : R → T → List Atom → Prop} (hd : Reads d (Of f atoms))
    (hk : ∀ r, Reads (fun bytes mid => k bytes (f r, mid)) (K r)) :
    Reads (fun bytes offset => d bytes offset >>= k bytes) (Then atoms K) := by
  intro bytes offset v fin hoff
  rw [bind_ok]
  constructor
  · rintro ⟨⟨a, mid⟩, ha, hv⟩
    obtain ⟨as, here, rest, ⟨r, rfl, rfl⟩, hdr, hs, rfl⟩ := (hd bytes offset a mid hoff).mp ha
    have hmid : offset + here.length ≤ bytes.length := by
      have hl := congrArg List.length hdr
      rw [length_drop, length_append] at hl
      omega
    obtain ⟨as', here', rest', hKv, hdr', hs', rfl⟩ := (hk r bytes _ v fin hmid).mp hv
    have hr : rest = here' ++ rest' := by
      rw [← hdr', ← drop_drop, hdr, drop_left]
    refine ⟨atoms r ++ as', here ++ here', rest', ⟨r, as', rfl, hKv⟩, ?_, ?_, ?_⟩
    · rw [hdr, hr, append_assoc]
    · exact spelled_append.mpr ⟨here, here', rfl, hs, hs'⟩
    · rw [length_append, Nat.add_assoc]
  · rintro ⟨as, here, rest, ⟨r, as', rfl, hKv⟩, hdr, hs, rfl⟩
    obtain ⟨front, back, rfl, hfr, hba⟩ := spelled_append.mp hs
    rw [append_assoc] at hdr
    have hmid : offset + front.length ≤ bytes.length := by
      have hl := congrArg List.length hdr
      rw [length_drop, length_append] at hl
      omega
    refine ⟨(f r, offset + front.length), ?_, ?_⟩
    · exact (hd bytes offset _ _ hoff).mpr
        ⟨atoms r, front, back ++ rest, ⟨r, rfl, rfl⟩, hdr, hfr, rfl⟩
    · refine (hk r bytes _ v _ hmid).mpr ⟨as', back, rest, hKv, ?_, hba, ?_⟩
      · rw [← drop_drop, hdr, drop_left]
      · rw [length_append, Nat.add_assoc]

theorem Reads.yield (w : T) : Reads (fun _ offset => .ok (w, offset)) (Yields w) := by
  intro bytes offset v fin hoff
  constructor
  · intro h
    cases h
    exact ⟨[], [], bytes.drop offset, ⟨rfl, rfl⟩, rfl, rfl, rfl⟩
  · rintro ⟨as, here, rest, ⟨rfl, rfl⟩, hd, hs, rfl⟩
    cases hs
    rfl

theorem Reads.refuse (err : KipcError) :
    Reads (fun _ _ => .error err) (fun (_ : T) _ => False) := by
  intro bytes offset v fin hoff
  constructor
  · intro h
    cases h
  · rintro ⟨as, here, rest, hLv, -⟩
    exact hLv.elim

theorem Reads.ite {p : Prop} [Decidable p] {e : Decoder T} (hd : p → Reads d L)
    (he : ¬ p → Reads e L) :
    Reads (fun bytes offset => if p then d bytes offset else e bytes offset) L := by
  by_cases hp : p
  · simp only [if_pos hp]
    exact hd hp
  · simp only [if_neg hp]
    exact he hp

theorem then_yields {f : R → T} {v : T} {as : List Atom} :
    Then atoms (fun r => Yields (f r)) v as ↔ Of f atoms v as := by
  constructor
  · rintro ⟨r, as', rfl, rfl, rfl⟩
    exact ⟨r, rfl, append_nil _⟩
  · rintro ⟨r, rfl, rfl⟩
    exact ⟨r, [], (append_nil _).symm, rfl, rfl⟩

end Rules

theorem readsVarint : Reads decodeVarint (Of UInt32.toNat u32Atoms) := reads_decodeVarint

theorem readsU64Varint : Reads decodeU64Varint (Of UInt64.toNat u64Atoms) := reads_decodeU64Varint

variable {bytes : List Byte} {offset n : ℕ} {b : Byte}

theorem drop_of_getElem? (h : bytes[offset]? = some b) :
    bytes.drop offset = b :: bytes.drop (offset + 1) := by
  obtain ⟨hlt, hg⟩ := List.getElem?_eq_some_iff.mp h
  rw [← hg]
  exact drop_eq_getElem_cons hlt

theorem getElem?_of_drop {rest : List Byte} (h : bytes.drop offset = b :: rest) :
    bytes[offset]? = some b := by
  rw [← Nat.add_zero offset, ← getElem?_drop, h]
  rfl

theorem reads_decodeBool : Reads decodeBool (Of id boolAtoms) := by
  intro bytes offset v fin hoff
  unfold decodeBool
  constructor
  · intro h
    dsimp only at h
    split_ifs at h with hbad
    cases h
    have hby : bytes[offset]? = some (if decide (bytes[offset]? = some 1) then 1 else 0) := by
      by_cases ho : bytes[offset]? = some 1
      · rw [if_pos (decide_eq_true ho), ho]
      · rw [if_neg (by rw [decide_eq_true_iff]; exact ho)]
        exact not_not.mp (fun hz => hbad ⟨hz, ho⟩)
    exact ⟨_, [_], bytes.drop (offset + 1), ⟨_, rfl, rfl⟩, drop_of_getElem? hby,
      spelled_singleton.mpr rfl, rfl⟩
  · rintro ⟨as, here, rest, ⟨b, rfl, rfl⟩, hd, hs, rfl⟩
    obtain rfl : here = [if v then 1 else 0] := spelled_singleton.mp hs
    have hby := getElem?_of_drop hd
    rw [hby]
    cases v <;> exact rfl

/-- Reading a zigzag number back is exact. -/
theorem unzigzag_eq (h : n < 2 ^ 32) :
    (if n % 2 = 0 then Ieee.floorDiv n 2 else Ieee.floorDiv (-Ieee.int (n + 1)) 2) =
      unzigzag n := by
  have htwo : ((2 ^ 1 : ℕ) : ℤ) = 2 := by norm_num
  unfold unzigzag
  split_ifs with hev
  · have hdiv := Ieee.floorDiv_exact (n := n) (abs_lt.mpr ⟨by omega, by omega⟩) 1
    rw [htwo] at hdiv
    rw [hdiv]
    norm_num
  · have hi : Ieee.int (n + 1) = n + 1 := Ieee.int_exact (abs_lt.mpr ⟨by omega, by omega⟩)
    have hdiv := Ieee.floorDiv_exact (n := -((n : ℤ) + 1)) (abs_lt.mpr ⟨by omega, by omega⟩) 1
    rw [htwo] at hdiv
    rw [hi, hdiv]
    norm_num

theorem reads_decodeI32 : Reads decodeI32 (Of (fun n : Int32 => .integer n.toInt) i32Atoms) := by
  refine Reads.congr (Then u32Atoms fun r => Yields (.integer (unzigzag r.toNat))) ?_ ?_
  · refine Reads.bind readsVarint fun r => ?_
    rw [← unzigzag_eq r.toNat_lt]
    exact Reads.yield _
  · intro v as
    rw [then_yields (f := fun r : UInt32 => JsValue.integer (unzigzag r.toNat))]
    constructor
    · rintro ⟨r, rfl, rfl⟩
      have hra := unzigzag_range r.toNat_lt
      have hi : (Int32.ofInt (unzigzag r.toNat)).toInt = unzigzag r.toNat :=
        Int32.toInt_ofInt_of_le hra.1 hra.2
      refine ⟨Int32.ofInt (unzigzag r.toNat), ?_, ?_⟩
      · dsimp only
        rw [hi]
      · unfold u32Atoms i32Atoms
        rw [hi, zigzag_unzigzag]
    · rintro ⟨n, rfl, rfl⟩
      have hnat : (UInt32.ofNat (zigzag n.toInt)).toNat = zigzag n.toInt := by
        rw [UInt32.toNat_ofNat']
        exact Nat.mod_eq_of_lt (zigzag_lt n.le_toInt n.toInt_lt)
      refine ⟨UInt32.ofNat (zigzag n.toInt), ?_, ?_⟩
      · dsimp only
        rw [hnat, unzigzag_zigzag]
      · unfold u32Atoms i32Atoms
        rw [hnat]

theorem reads_decodeOption {R T : Type} {d : Decoder T} {f : R → T} {atoms : R → List Atom}
    (hd : Reads d (Of f atoms)) :
    Reads (decodeOption d) (Of (Option.map f) (optionAtoms atoms)) := by
  intro bytes offset v fin hoff
  unfold decodeOption
  dsimp only
  constructor
  · intro h
    split_ifs at h with hno hso
    · cases h
      exact ⟨_, [0], _, ⟨none, rfl, rfl⟩, drop_of_getElem? hno, spelled_singleton.mpr rfl, rfl⟩
    · obtain ⟨⟨value, fin'⟩, hva, h⟩ := bind_ok.mp h
      cases h
      have hdr := drop_of_getElem? (not_not.mp hso)
      have hn : offset + 1 ≤ bytes.length := by
        have hl := congrArg List.length hdr
        rw [length_drop, length_cons, length_drop] at hl
        omega
      obtain ⟨as, here, rest, ⟨r, rfl, rfl⟩, hsp, hs, rfl⟩ :=
        (hd bytes (offset + 1) value fin' hn).mp hva
      refine ⟨_, 1 :: here, rest, ⟨some r, rfl, rfl⟩, ?_, ?_, ?_⟩
      · rw [hdr, hsp, cons_append]
      · exact ⟨[1], here, rfl, rfl, hs⟩
      · rw [length_cons, Nat.add_assoc, Nat.add_comm 1]
  · rintro ⟨as, here, rest, ⟨o, rfl, rfl⟩, hdr, hs, rfl⟩
    cases o with
    | none =>
      obtain rfl : here = [0] := spelled_singleton.mp hs
      rw [if_pos (getElem?_of_drop hdr)]
      rfl
    | some r =>
      obtain ⟨tag, here', rfl, rfl, hs'⟩ := hs
      have hby : bytes[offset]? = some 1 := getElem?_of_drop hdr
      rw [hby, if_neg (by decide), if_neg (by decide)]
      have hr := (drop_of_getElem? hby).symm.trans hdr
      rw [append_assoc, cons_append, List.cons.injEq] at hr
      have hn : offset + 1 ≤ bytes.length := (List.getElem?_eq_some_iff.mp hby).1
      have hva := (hd bytes (offset + 1) (f r) _ hn).mpr
        ⟨_, here', rest, ⟨r, rfl, rfl⟩, hr.2, hs', rfl⟩
      refine bind_ok.mpr ⟨_, hva, ?_⟩
      rw [length_append, ← Nat.add_assoc]
      rfl

/-! ## Counterparts -/

def WindowRef.ofWire (r : Wire.WindowRef) : WindowRef :=
  ⟨.integer r.id.toNat, r.incarnation.toNat⟩

theorem reads_windowRefAt : Reads windowRefAt (Of WindowRef.ofWire Wire.WindowRef.atoms) := by
  refine Reads.congr (Then u32Atoms fun id => Then u64Atoms fun inc =>
    Yields (WindowRef.ofWire ⟨id, inc⟩)) ?_ ?_
  · refine Reads.bind readsVarint fun id => ?_
    refine Reads.bind readsU64Varint fun inc => ?_
    exact Reads.yield _
  · intro v as
    constructor
    · rintro ⟨id, as', rfl, h⟩
      obtain ⟨inc, rfl, rfl⟩ := then_yields.mp h
      exact ⟨⟨id, inc⟩, rfl, rfl⟩
    · rintro ⟨r, rfl, rfl⟩
      exact ⟨r.id, _, rfl, then_yields.mpr ⟨r.incarnation, rfl, rfl⟩⟩

def Rect.ofWire (r : Wire.Rect) : Rect :=
  ⟨.integer r.x.toInt, .integer r.y.toInt, .integer r.width.toNat, .integer r.height.toNat⟩

theorem reads_rectAt : Reads rectAt (Of Rect.ofWire Wire.Rect.atoms) := by
  refine Reads.congr (Then i32Atoms fun x => Then i32Atoms fun y =>
    Then u32Atoms fun width => Then u32Atoms fun height =>
      Yields (Rect.ofWire ⟨x, y, width, height⟩)) ?_ ?_
  · refine Reads.bind reads_decodeI32 fun x => ?_
    refine Reads.bind reads_decodeI32 fun y => ?_
    refine Reads.bind readsVarint fun width => ?_
    refine Reads.bind readsVarint fun height => ?_
    exact Reads.yield _
  · intro v as
    constructor
    · rintro ⟨x, _, rfl, y, _, rfl, width, _, rfl, h⟩
      obtain ⟨height, rfl, rfl⟩ := then_yields.mp h
      exact ⟨⟨x, y, width, height⟩, rfl, rfl⟩
    · rintro ⟨r, rfl, rfl⟩
      exact ⟨r.x, _, rfl, r.y, _, rfl, r.width, _, rfl, then_yields.mpr ⟨r.height, rfl, rfl⟩⟩

def WindowState.ofWire (s : Wire.WindowState) : WindowState :=
  ⟨.ofWire s.bounds, s.focused, s.maximized, s.fullScreen⟩

theorem reads_stateAt : Reads stateAt (Of WindowState.ofWire Wire.WindowState.atoms) := by
  refine Reads.congr (Then Wire.Rect.atoms fun bounds => Then boolAtoms fun focused =>
    Then boolAtoms fun maximized => Then boolAtoms fun fullScreen =>
      Yields (WindowState.ofWire ⟨bounds, focused, maximized, fullScreen⟩)) ?_ ?_
  · refine Reads.bind reads_rectAt fun bounds => ?_
    refine Reads.bind reads_decodeBool fun focused => ?_
    refine Reads.bind reads_decodeBool fun maximized => ?_
    refine Reads.bind reads_decodeBool fun fullScreen => ?_
    exact Reads.yield _
  · intro v as
    constructor
    · rintro ⟨bounds, _, rfl, focused, _, rfl, maximized, _, rfl, h⟩
      obtain ⟨fullScreen, rfl, rfl⟩ := then_yields.mp h
      exact ⟨⟨bounds, focused, maximized, fullScreen⟩, rfl, rfl⟩
    · rintro ⟨s, rfl, rfl⟩
      exact ⟨s.bounds, _, rfl, s.focused, _, rfl, s.maximized, _, rfl,
        then_yields.mpr ⟨s.fullScreen, rfl, rfl⟩⟩

def CloseVerdict.ofWire : Wire.CloseVerdict → CloseVerdict
  | .allow => .allow
  | .veto => .veto

theorem discriminant_eq {r : UInt32} (h : r.toNat = n) : u32Atoms r = [.u32 n] := by
  rw [← h]
  rfl

theorem reads_verdictAt : Reads verdictAt (Of CloseVerdict.ofWire Wire.CloseVerdict.atoms) := by
  refine Reads.congr (Then u32Atoms fun r v as =>
    if r.toNat = 0 then Yields .allow v as
    else if r.toNat = 1 then Yields .veto v as else False) ?_ ?_
  · refine Reads.bind readsVarint fun r => ?_
    rcases hn : r.toNat with _ | _ | n
    · exact Reads.yield _
    · exact Reads.yield _
    · exact Reads.refuse _
  · intro v as
    constructor
    · rintro ⟨r, _, rfl, h⟩
      rcases hn : r.toNat with _ | _ | n
      · rw [hn] at h
        obtain ⟨rfl, rfl⟩ := h
        exact ⟨.allow, rfl, by rw [discriminant_eq hn]; exact rfl⟩
      · rw [hn] at h
        obtain ⟨rfl, rfl⟩ := h
        exact ⟨.veto, rfl, by rw [discriminant_eq hn]; exact rfl⟩
      · rw [hn] at h
        exact h.elim
    · rintro ⟨r, rfl, rfl⟩
      cases r with
      | allow => exact ⟨0, [], rfl, rfl, rfl⟩
      | veto => exact ⟨1, [], rfl, rfl, rfl⟩

/-! ## Events -/

def WindowEvent.ofWire : Wire.WindowEvent → WindowEvent
  | .created window state pendingClose =>
    .created (.ofWire window) (.ofWire state) (pendingClose.map fun n => (n.toNat : ℤ))
  | .bounds window rect => .bounds (.ofWire window) (.ofWire rect)
  | .focus window focused => .focus (.ofWire window) focused
  | .maximized window on => .maximized (.ofWire window) on
  | .fullScreen window on => .fullScreen (.ofWire window) on
  | .closeRequested window closeSeq => .closeRequested (.ofWire window) closeSeq.toNat
  | .destroyed window => .destroyed (.ofWire window)

/-- What follows the window of an event of this discriminant. -/
def eventRest (n : ℕ) (w : Wire.WindowRef) : WindowEvent → List Atom → Prop :=
  match n with
  | 0 => Then Wire.WindowState.atoms fun state =>
    Then (optionAtoms u64Atoms) fun pendingClose =>
      Yields (.ofWire (.created w state pendingClose))
  | 1 => Then Wire.Rect.atoms fun rect => Yields (.ofWire (.bounds w rect))
  | 2 => Then boolAtoms fun focused => Yields (.ofWire (.focus w focused))
  | 3 => Then boolAtoms fun on => Yields (.ofWire (.maximized w on))
  | 4 => Then boolAtoms fun on => Yields (.ofWire (.fullScreen w on))
  | 5 => Then u64Atoms fun closeSeq => Yields (.ofWire (.closeRequested w closeSeq))
  | 6 => Yields (.ofWire (.destroyed w))
  | _ => fun _ _ => False

theorem reads_eventAt : Reads eventAt (Of WindowEvent.ofWire Wire.WindowEvent.atoms) := by
  refine Reads.congr (Then u32Atoms fun r => Then Wire.WindowRef.atoms fun w =>
    eventRest r.toNat w) ?_ ?_
  · refine Reads.bind readsVarint fun r => ?_
    refine Reads.ite (fun hun => ?_) (fun _ => ?_)
    · refine Reads.congr (fun _ _ => False) (Reads.refuse _) (fun v as => ⟨False.elim, ?_⟩)
      rintro ⟨w, _, -, h⟩
      obtain ⟨n, hn⟩ : ∃ n, r.toNat = n + 7 := ⟨r.toNat - 7, by omega⟩
      rw [hn] at h
      exact h
    · refine Reads.bind reads_windowRefAt fun w => ?_
      rcases r.toNat with _ | _ | _ | _ | _ | _ | _ | n
      · refine Reads.bind reads_stateAt fun state => ?_
        refine Reads.bind (reads_decodeOption readsU64Varint) fun pendingClose => ?_
        dsimp only
        rw [Option.map_map]
        exact Reads.yield _
      · exact Reads.bind reads_rectAt fun rect => Reads.yield _
      · exact Reads.bind reads_decodeBool fun focused => Reads.yield _
      · exact Reads.bind reads_decodeBool fun on => Reads.yield _
      · exact Reads.bind reads_decodeBool fun on => Reads.yield _
      · exact Reads.bind readsU64Varint fun closeSeq => Reads.yield _
      · exact Reads.yield _
      · exact Reads.refuse _
  · intro v as
    constructor
    · rintro ⟨r, _, rfl, w, _, rfl, h⟩
      rcases hn : r.toNat with _ | _ | _ | _ | _ | _ | _ | n
      all_goals
        rw [hn] at h
        rw [discriminant_eq hn]
      · obtain ⟨state, _, rfl, h⟩ := h
        obtain ⟨pendingClose, rfl, rfl⟩ := then_yields.mp h
        exact ⟨.created w state pendingClose, rfl, rfl⟩
      · obtain ⟨rect, rfl, rfl⟩ := then_yields.mp h
        exact ⟨.bounds w rect, rfl, rfl⟩
      · obtain ⟨focused, rfl, rfl⟩ := then_yields.mp h
        exact ⟨.focus w focused, rfl, rfl⟩
      · obtain ⟨on, rfl, rfl⟩ := then_yields.mp h
        exact ⟨.maximized w on, rfl, rfl⟩
      · obtain ⟨on, rfl, rfl⟩ := then_yields.mp h
        exact ⟨.fullScreen w on, rfl, rfl⟩
      · obtain ⟨closeSeq, rfl, rfl⟩ := then_yields.mp h
        exact ⟨.closeRequested w closeSeq, rfl, rfl⟩
      · obtain ⟨rfl, rfl⟩ := h
        exact ⟨.destroyed w, rfl, by rw [append_nil]; exact rfl⟩
      · exact h.elim
    · rintro ⟨e, rfl, rfl⟩
      cases e with
      | created w state pendingClose =>
        exact ⟨0, _, rfl, w, _, rfl, state, _, rfl, then_yields.mpr ⟨pendingClose, rfl, rfl⟩⟩
      | bounds w rect => exact ⟨1, _, rfl, w, _, rfl, then_yields.mpr ⟨rect, rfl, rfl⟩⟩
      | focus w focused => exact ⟨2, _, rfl, w, _, rfl, then_yields.mpr ⟨focused, rfl, rfl⟩⟩
      | maximized w on => exact ⟨3, _, rfl, w, _, rfl, then_yields.mpr ⟨on, rfl, rfl⟩⟩
      | fullScreen w on => exact ⟨4, _, rfl, w, _, rfl, then_yields.mpr ⟨on, rfl, rfl⟩⟩
      | closeRequested w closeSeq =>
        exact ⟨5, _, rfl, w, _, rfl, then_yields.mpr ⟨closeSeq, rfl, rfl⟩⟩
      | destroyed w => exact ⟨6, _, rfl, w, _, (append_nil _).symm, rfl, rfl⟩

/-! ## Requests -/

def WindowRequest.ofWire : Wire.WindowRequest → WindowRequest
  | .create width height x y =>
    .create (.integer width.toNat) (.integer height.toNat)
      (x.map fun n => .integer n.toInt) (y.map fun n => .integer n.toInt)
  | .setMaximized window maximized => .setMaximized (.ofWire window) maximized
  | .setFullScreen window fullScreen => .setFullScreen (.ofWire window) fullScreen
  | .requestClose window => .requestClose (.ofWire window)
  | .closeReply window closeSeq verdict =>
    .closeReply (.ofWire window) closeSeq.toNat (.ofWire verdict)
  | .destroy window => .destroy (.ofWire window)

/-- What follows the window of a request of this discriminant. -/
def requestRest (n : ℕ) (w : Wire.WindowRef) : WindowRequest → List Atom → Prop :=
  match n with
  | 1 => Then boolAtoms fun on => Yields (.ofWire (.setMaximized w on))
  | 2 => Then boolAtoms fun on => Yields (.ofWire (.setFullScreen w on))
  | 3 => Yields (.ofWire (.requestClose w))
  | 4 => Then u64Atoms fun closeSeq => Then Wire.CloseVerdict.atoms fun verdict =>
    Yields (.ofWire (.closeReply w closeSeq verdict))
  | 5 => Yields (.ofWire (.destroy w))
  | _ => fun _ _ => False

/-- What follows the discriminant of a request. -/
def requestBody (n : ℕ) : WindowRequest → List Atom → Prop :=
  if n = 0 then
    Then u32Atoms fun width => Then u32Atoms fun height =>
      Then (optionAtoms i32Atoms) fun x => Then (optionAtoms i32Atoms) fun y =>
        Yields (.ofWire (.create width height x y))
  else Then Wire.WindowRef.atoms fun w => requestRest n w

theorem reads_requestAt : Reads requestAt (Of WindowRequest.ofWire Wire.WindowRequest.atoms) := by
  refine Reads.congr (Then u32Atoms fun r => requestBody r.toNat) ?_ ?_
  · refine Reads.bind readsVarint fun r => ?_
    unfold requestBody
    refine Reads.ite (fun hz => ?_) (fun hpos => Reads.ite (fun hun => ?_) (fun _ => ?_))
    · rw [if_pos hz]
      refine Reads.bind readsVarint fun width => ?_
      refine Reads.bind readsVarint fun height => ?_
      refine Reads.bind (reads_decodeOption reads_decodeI32) fun x => ?_
      refine Reads.bind (reads_decodeOption reads_decodeI32) fun y => ?_
      exact Reads.yield _
    · rw [if_neg hpos]
      refine Reads.congr (fun _ _ => False) (Reads.refuse _) (fun v as => ⟨False.elim, ?_⟩)
      rintro ⟨w, _, -, h⟩
      obtain ⟨n, hn⟩ : ∃ n, r.toNat = n + 6 := ⟨r.toNat - 6, by omega⟩
      rw [hn] at h
      exact h
    · rw [if_neg hpos]
      refine Reads.bind reads_windowRefAt fun w => ?_
      rcases r.toNat with _ | _ | _ | _ | _ | _ | n
      · exact Reads.refuse _
      · exact Reads.bind reads_decodeBool fun on => Reads.yield _
      · exact Reads.bind reads_decodeBool fun on => Reads.yield _
      · exact Reads.yield _
      · refine Reads.bind readsU64Varint fun closeSeq => ?_
        exact Reads.bind reads_verdictAt fun verdict => Reads.yield _
      · exact Reads.yield _
      · exact Reads.refuse _
  · intro v as
    constructor
    · rintro ⟨r, _, rfl, h⟩
      unfold requestBody at h
      rcases hn : r.toNat with _ | _ | _ | _ | _ | _ | n
      all_goals
        rw [hn] at h
        rw [discriminant_eq hn]
      · rw [if_pos rfl] at h
        obtain ⟨width, _, rfl, height, _, rfl, x, _, rfl, h⟩ := h
        obtain ⟨y, rfl, rfl⟩ := then_yields.mp h
        exact ⟨.create width height x y, rfl, rfl⟩
      all_goals
        rw [if_neg (Nat.succ_ne_zero _)] at h
        obtain ⟨w, _, rfl, h⟩ := h
      · obtain ⟨on, rfl, rfl⟩ := then_yields.mp h
        exact ⟨.setMaximized w on, rfl, rfl⟩
      · obtain ⟨on, rfl, rfl⟩ := then_yields.mp h
        exact ⟨.setFullScreen w on, rfl, rfl⟩
      · obtain ⟨rfl, rfl⟩ := h
        exact ⟨.requestClose w, rfl, by rw [append_nil]; exact rfl⟩
      · obtain ⟨closeSeq, _, rfl, h⟩ := h
        obtain ⟨verdict, rfl, rfl⟩ := then_yields.mp h
        exact ⟨.closeReply w closeSeq verdict, rfl, rfl⟩
      · obtain ⟨rfl, rfl⟩ := h
        exact ⟨.destroy w, rfl, by rw [append_nil]; exact rfl⟩
      · exact h.elim
    · rintro ⟨r, rfl, rfl⟩
      cases r with
      | create width height x y =>
        exact ⟨0, _, rfl, width, _, rfl, height, _, rfl, x, _, rfl,
          then_yields.mpr ⟨y, rfl, rfl⟩⟩
      | setMaximized w on => exact ⟨1, _, rfl, w, _, rfl, then_yields.mpr ⟨on, rfl, rfl⟩⟩
      | setFullScreen w on => exact ⟨2, _, rfl, w, _, rfl, then_yields.mpr ⟨on, rfl, rfl⟩⟩
      | requestClose w => exact ⟨3, _, rfl, w, _, (append_nil _).symm, rfl, rfl⟩
      | closeReply w closeSeq verdict =>
        exact ⟨4, _, rfl, w, _, rfl, closeSeq, _, rfl, then_yields.mpr ⟨verdict, rfl, rfl⟩⟩
      | destroy w => exact ⟨5, _, rfl, w, _, (append_nil _).symm, rfl, rfl⟩

/-! ## Responses -/

def WindowResponse.ofWire : Wire.WindowResponse → WindowResponse
  | .created window => .created (.ofWire window)
  | .accepted => .accepted
  | .closeRequested closeSeq => .closeRequested closeSeq.toNat
  | .merged closeSeq => .merged closeSeq.toNat
  | .alreadyClosing => .alreadyClosing
  | .replyApplied => .replyApplied
  | .replyStale => .replyStale
  | .destroyed => .destroyed
  | .adopted window => .adopted (.ofWire window)

/-- What follows the discriminant of a response. -/
def responseBody (n : ℕ) : WindowResponse → List Atom → Prop :=
  match n with
  | 0 => Then Wire.WindowRef.atoms fun w => Yields (.ofWire (.created w))
  | 1 => Yields .accepted
  | 2 => Then u64Atoms fun closeSeq => Yields (.ofWire (.closeRequested closeSeq))
  | 3 => Then u64Atoms fun closeSeq => Yields (.ofWire (.merged closeSeq))
  | 4 => Yields .alreadyClosing
  | 5 => Yields .replyApplied
  | 6 => Yields .replyStale
  | 7 => Yields .destroyed
  | 8 => Then Wire.WindowRef.atoms fun w => Yields (.ofWire (.adopted w))
  | _ => fun _ _ => False

theorem reads_responseAt :
    Reads responseAt (Of WindowResponse.ofWire Wire.WindowResponse.atoms) := by
  refine Reads.congr (Then u32Atoms fun r => responseBody r.toNat) ?_ ?_
  · refine Reads.bind readsVarint fun r => ?_
    rcases r.toNat with _ | _ | _ | _ | _ | _ | _ | _ | _ | n
    · exact Reads.bind reads_windowRefAt fun w => Reads.yield _
    · exact Reads.yield _
    · exact Reads.bind readsU64Varint fun closeSeq => Reads.yield _
    · exact Reads.bind readsU64Varint fun closeSeq => Reads.yield _
    · exact Reads.yield _
    · exact Reads.yield _
    · exact Reads.yield _
    · exact Reads.yield _
    · exact Reads.bind reads_windowRefAt fun w => Reads.yield _
    · exact Reads.refuse _
  · intro v as
    constructor
    · rintro ⟨r, _, rfl, h⟩
      rcases hn : r.toNat with _ | _ | _ | _ | _ | _ | _ | _ | _ | n
      all_goals
        rw [hn] at h
        rw [discriminant_eq hn]
      · obtain ⟨w, rfl, rfl⟩ := then_yields.mp h
        exact ⟨.created w, rfl, rfl⟩
      · obtain ⟨rfl, rfl⟩ := h
        exact ⟨.accepted, rfl, rfl⟩
      · obtain ⟨closeSeq, rfl, rfl⟩ := then_yields.mp h
        exact ⟨.closeRequested closeSeq, rfl, rfl⟩
      · obtain ⟨closeSeq, rfl, rfl⟩ := then_yields.mp h
        exact ⟨.merged closeSeq, rfl, rfl⟩
      · obtain ⟨rfl, rfl⟩ := h
        exact ⟨.alreadyClosing, rfl, rfl⟩
      · obtain ⟨rfl, rfl⟩ := h
        exact ⟨.replyApplied, rfl, rfl⟩
      · obtain ⟨rfl, rfl⟩ := h
        exact ⟨.replyStale, rfl, rfl⟩
      · obtain ⟨rfl, rfl⟩ := h
        exact ⟨.destroyed, rfl, rfl⟩
      · obtain ⟨w, rfl, rfl⟩ := then_yields.mp h
        exact ⟨.adopted w, rfl, rfl⟩
      · exact h.elim
    · rintro ⟨r, rfl, rfl⟩
      cases r with
      | created w => exact ⟨0, _, rfl, then_yields.mpr ⟨w, rfl, rfl⟩⟩
      | accepted => exact ⟨1, _, rfl, rfl, rfl⟩
      | closeRequested closeSeq => exact ⟨2, _, rfl, then_yields.mpr ⟨closeSeq, rfl, rfl⟩⟩
      | merged closeSeq => exact ⟨3, _, rfl, then_yields.mpr ⟨closeSeq, rfl, rfl⟩⟩
      | alreadyClosing => exact ⟨4, _, rfl, rfl, rfl⟩
      | replyApplied => exact ⟨5, _, rfl, rfl, rfl⟩
      | replyStale => exact ⟨6, _, rfl, rfl, rfl⟩
      | destroyed => exact ⟨7, _, rfl, rfl, rfl⟩
      | adopted w => exact ⟨8, _, rfl, then_yields.mpr ⟨w, rfl, rfl⟩⟩

/-! ## Whole payloads -/

/-- A decoder of whole payloads accepts exactly the spellings of a host value's atoms. -/
theorem exact_ok {R T : Type} {d : Decoder T} {f : R → T} {atoms : R → List Atom}
    (hd : Reads d (Of f atoms)) {payload : List Byte} {v : T} :
    exact payload d = .ok v ↔ ∃ r, v = f r ∧ Spelled (atoms r) payload := by
  unfold exact
  rw [bind_ok]
  constructor
  · rintro ⟨⟨w, fin⟩, hw, h⟩
    dsimp only at h
    split_ifs at h with he
    cases h
    obtain ⟨as, here, rest, ⟨r, rfl, rfl⟩, hdr, hs, hfin⟩ :=
      (hd payload 0 v fin (Nat.zero_le _)).mp hw
    rw [drop_zero] at hdr
    have hr : rest = [] := by
      have hl := congrArg List.length hdr
      rw [length_append] at hl
      exact eq_nil_of_length_eq_zero (by omega)
    rw [hdr, hr, append_nil]
    exact ⟨r, rfl, hs⟩
  · rintro ⟨r, rfl, hs⟩
    refine ⟨(f r, payload.length), ?_, ?_⟩
    · refine (hd payload 0 _ _ (Nat.zero_le _)).mpr ⟨_, payload, [], ⟨r, rfl, rfl⟩, ?_, hs, ?_⟩
      · rw [drop_zero, append_nil]
      · rw [Nat.zero_add]
    · dsimp only
      rw [if_neg (not_not.mpr rfl)]

end Keld.Kipc
