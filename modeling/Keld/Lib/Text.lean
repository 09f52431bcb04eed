/-
# `Keld.Lib.Text` — a text and its bytes

A text is the list of its UTF-8 bytes that happens to be valid.  `fromUtf8` is
the partial inverse of `utf8`: it returns a text on exactly the bytes of that
text, so nothing else is ever needed about the encoding itself.
-/
import Keld.Lib.Bytes

namespace Keld

open List

/-- `str::as_bytes`. -/
def utf8 (text : String) : List Byte := text.toByteArray.data.toList

def fromUtf8 (bytes : List Byte) : Option String := String.fromUTF8? ⟨bytes.toArray⟩

theorem utf8_inj {left right : String} (h : utf8 left = utf8 right) : left = right := by
  refine String.toByteArray_inj.mp (ByteArray.ext (Array.ext' ?_))
  exact h

theorem fromUtf8_utf8 (text : String) : fromUtf8 (utf8 text) = some text := by
  unfold fromUtf8 String.fromUTF8? utf8
  rw [Array.toArray_toList]
  exact dif_pos text.isValidUTF8

variable {text : String}

theorem fromUtf8_eq_some {bytes : List Byte} : fromUtf8 bytes = some text ↔ utf8 text = bytes := by
  constructor
  · intro h
    unfold fromUtf8 String.fromUTF8? at h
    split_ifs at h with hv
    cases h
    exact toList_toArray
  · rintro rfl
    exact fromUtf8_utf8 text

@[simp] theorem utf8_empty : utf8 "" = [] := rfl

theorem utf8_eq_nil : utf8 text = [] ↔ text = "" :=
  ⟨fun h => utf8_inj (h.trans utf8_empty.symm), fun h => h ▸ utf8_empty⟩

theorem utf8_eq_flatMap (text : String) : utf8 text = text.toList.flatMap String.utf8EncodeChar := by
  unfold utf8
  rw [← String.utf8Encode_toList, List.utf8Encode, toList_data_toByteArray]

/-- Only the character NUL is encoded with a zero byte. -/
theorem zero_mem_utf8EncodeChar {c : Char} (h : 0 ∈ String.utf8EncodeChar c) : c = '\x00' := by
  have hby : ∀ {n : Nat}, n < 256 → (0 : UInt8) = UInt8.ofNat n → n = 0 := by
    intro n hn hz
    have htoNat := congrArg UInt8.toNat hz
    rw [UInt8.toNat_ofNat', Nat.mod_eq_of_lt hn] at htoNat
    exact htoNat.symm
  have hhi : ∀ {n : Nat}, n < 256 → 0 < n → (0 : UInt8) ≠ UInt8.ofNat n :=
    fun hn hpos hz => absurd (hby hn hz) (Nat.ne_of_gt hpos)
  unfold String.utf8EncodeChar at h
  dsimp only at h
  split_ifs at h with ho htwo hth
  · have hv := hby (by omega) (mem_singleton.mp h)
    exact Char.ext (UInt32.toNat_inj.mp hv)
  all_goals
    -- every byte of a longer sequence has its high bit set
    refine absurd h ?_
    simp only [mem_cons, not_mem_nil, or_false, not_or]
  · exact ⟨hhi (by omega) (by omega), hhi (by omega) (by omega)⟩
  · exact ⟨hhi (by omega) (by omega), hhi (by omega) (by omega), hhi (by omega) (by omega)⟩
  · exact ⟨hhi (by omega) (by omega), hhi (by omega) (by omega), hhi (by omega) (by omega),
      hhi (by omega) (by omega)⟩

theorem zero_mem_utf8 (h : 0 ∈ utf8 text) : '\x00' ∈ text.toList := by
  rw [utf8_eq_flatMap] at h
  obtain ⟨c, hc, hz⟩ := mem_flatMap.mp h
  rw [← zero_mem_utf8EncodeChar hz]
  exact hc

end Keld
