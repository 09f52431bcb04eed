/-
# `Keld.Ipc.RendezvousSafety` — what a party can be told

While it is not confirmed, a party has been told the frames of one attempt, or
something behind which no confirmation can come (`Hindered`): a pipe is kept
when a call fails outside, and the next attempt starts over with a `HELLO` where
a client waits for a challenge.  So a client that completes has been told its
confirmation, which is the one acknowledgement the one-shot was spent on.
-/
import Keld.Ipc.RendezvousPrograms

namespace Keld.Ipc

open List

/-! ## Frames in a row -/

/-- No confirmation is at the front of this, whatever comes behind it. -/
def Foiled (told : List Byte) : Prop :=
  ∀ (t : Transcript) (more : List Byte), ¬ t.confirmation <+: told ++ more

/-- What is told between two attempts. -/
def Between (told : List Byte) : Prop := Spoken told ∨ Foiled told

/-- The beginning of what can be told before a confirmation. -/
def Hindered (told : List Byte) : Prop := ∃ whole, Between whole ∧ told <+: whole

/-- What an attempt has written when it waits for the acknowledgement. -/
def Transcript.challenged (t : Transcript) : List Byte :=
  (hello t.clientNonce).bytes ++ (hello t.serverNonce).bytes ++
    lifecycleBindingRecord challengeMagic t

theorem Transcript.confirmation_eq (t : Transcript) :
    t.confirmation = t.challenged ++ lifecycleBindingRecord receiptMagic t := rfl

theorem prefix_of_append {left left' right right' : List Byte}
    (h : left ++ right <+: left' ++ right') (hle : left.length = left'.length) :
    left = left' ∧ right <+: right' := by
  obtain ⟨rest, hr⟩ := h
  rw [append_assoc] at hr
  obtain ⟨hl, hri⟩ := append_inj hr hle
  exact ⟨hl, rest, hri⟩

theorem length_challenged (t : Transcript) :
    t.challenged.length = helloLen + helloLen + lifecycleBindingRecordLen := by
  rw [Transcript.challenged, length_append, length_append, hello_length, hello_length,
    length_record t rfl]

theorem length_confirmation (t : Transcript) : t.confirmation.length =
    helloLen + helloLen + lifecycleBindingRecordLen + lifecycleBindingRecordLen := by
  rw [t.confirmation_eq, length_append, length_challenged, length_record t rfl]

/-- A record does not begin as a `HELLO` does. -/
theorem record_ne_hello {magic more rest : List Byte} {t : Transcript} {token : SessionToken}
    (hma : magic.take 2 = [75, 69])
    (h : lifecycleBindingRecord magic t ++ rest <+: (hello token).bytes ++ more) : False := by
  obtain ⟨behind, hbeh⟩ := h
  have hta := congrArg (List.take 2) hbeh
  obtain ⟨first, second, tail, rfl⟩ : ∃ first second tail, magic = first :: second :: tail := by
    cases magic with
    | nil => cases hma
    | cons first tail =>
      cases tail with
      | nil => cases hma
      | cons second tail => exact ⟨first, second, tail, rfl⟩
  cases hma
  cases hta

variable {told frames : List Byte}

theorem foiled_append (h : Foiled told) (more : List Byte) : Foiled (told ++ more) := by
  intro t behind hfr
  rw [append_assoc] at hfr
  exact h t _ hfr

theorem foiled_nonces (clientNonce serverNonce token : SessionToken) :
    Foiled ((hello clientNonce).bytes ++ (hello serverNonce).bytes ++ (hello token).bytes) := by
  intro t more h
  rw [t.confirmation_eq, Transcript.challenged] at h
  simp only [append_assoc] at h
  obtain ⟨-, h⟩ := prefix_of_append h (by rw [hello_length, hello_length])
  obtain ⟨-, h⟩ := prefix_of_append h (by rw [hello_length, hello_length])
  exact record_ne_hello rfl h

theorem foiled_challenge (clientNonce serverNonce token : SessionToken) {record : List Byte}
    (hl : record.length = lifecycleBindingRecordLen) :
    Foiled ((hello clientNonce).bytes ++ (hello serverNonce).bytes ++ record ++
      (hello token).bytes) := by
  intro t more h
  rw [t.confirmation_eq, Transcript.challenged] at h
  simp only [append_assoc] at h
  obtain ⟨-, h⟩ := prefix_of_append h (by rw [hello_length, hello_length])
  obtain ⟨-, h⟩ := prefix_of_append h (by rw [hello_length, hello_length])
  obtain ⟨-, h⟩ := prefix_of_append h (by rw [length_record t rfl, hl])
  rw [← append_nil (lifecycleBindingRecord receiptMagic t)] at h
  exact record_ne_hello rfl h

theorem Spoken.cases_hello (h : Spoken frames) :
    frames = [] ∨ ∃ token rest, frames = (hello token).bytes ++ rest := by
  cases h with
  | nothing => exact .inl rfl
  | echo clientNonce => exact .inr ⟨clientNonce, [], (append_nil _).symm⟩
  | nonces clientNonce serverNonce => exact .inr ⟨clientNonce, _, rfl⟩
  | challenge clientNonce serverNonce len => exact .inr ⟨clientNonce, _, append_assoc ..⟩

theorem Between.append (h : Between told) (hfrs : Spoken frames) : Between (told ++ frames) := by
  rcases h with hsp | hfo
  · rcases hfrs.cases_hello with rfl | ⟨token, rest, hr⟩
    · rw [append_nil]
      exact .inl hsp
    cases hsp with
    | nothing => exact .inl hfrs
    | echo clientNonce =>
      cases hfrs with
      | nothing => exact .inl (by rw [append_nil]; exact .echo clientNonce)
      | echo other => exact .inl (.nonces clientNonce other)
      | nonces other another =>
        rw [← append_assoc]
        exact .inr (foiled_nonces _ _ _)
      | challenge other another len =>
        rw [← append_assoc, ← append_assoc]
        exact .inr (foiled_append (foiled_nonces _ _ _) _)
    | nonces clientNonce serverNonce =>
      rw [hr, ← append_assoc]
      exact .inr (foiled_append (foiled_nonces _ _ _) _)
    | challenge clientNonce serverNonce len =>
      rw [hr, ← append_assoc]
      exact .inr (foiled_append (foiled_challenge clientNonce serverNonce token len) _)
  · exact .inr (foiled_append hfo _)

/-- Behind anything but a fresh start a challenge does not matter. -/
theorem Between.challenged (h : Between told) (t : Transcript) :
    told ++ t.challenged = t.challenged ∨ Foiled (told ++ t.challenged) := by
  rcases h with hsp | hfo
  · have hs : t.challenged = (hello t.clientNonce).bytes ++ ((hello t.serverNonce).bytes ++
        lifecycleBindingRecord challengeMagic t) := append_assoc ..
    cases hsp with
    | nothing => exact .inl rfl
    | echo clientNonce =>
      rw [Transcript.challenged, ← append_assoc, ← append_assoc]
      exact .inr (foiled_append (foiled_nonces _ _ _) _)
    | nonces clientNonce serverNonce =>
      rw [hs, ← append_assoc]
      exact .inr (foiled_append (foiled_nonces _ _ _) _)
    | challenge clientNonce serverNonce len =>
      rw [hs, ← append_assoc]
      exact .inr (foiled_append (foiled_challenge clientNonce serverNonce _ len) _)
  · exact .inr (foiled_append hfo _)

theorem Between.hindered (h : Between told) : Hindered told := ⟨told, h, prefix_refl _⟩

theorem Hindered.shorter {whole : List Byte} (h : Hindered whole) (hfr : told <+: whole) :
    Hindered told := by
  obtain ⟨more, hmo, hwh⟩ := h
  exact ⟨more, hmo, hfr.trans hwh⟩

/-- Who is hindered has not been confirmed. -/
theorem Hindered.unconfirmed (h : Hindered told) (t : Transcript) : ¬ t.confirmation <+: told := by
  intro hco
  obtain ⟨whole, hbe, hwh⟩ := h
  have hfr := hco.trans hwh
  rcases hbe with hsp | hfo
  · have hl := hfr.length_le
    rw [length_confirmation] at hl
    have hr : lifecycleBindingRecordLen = 177 := rfl
    cases hsp with
    | nothing =>
      rw [length_nil] at hl
      omega
    | echo clientNonce =>
      rw [hello_length] at hl
      omega
    | nonces clientNonce serverNonce =>
      rw [length_append, hello_length, hello_length] at hl
      omega
    | challenge clientNonce serverNonce len =>
      rw [length_append, length_append, hello_length, hello_length, len] at hl
      omega
  · rw [← append_nil whole] at hfr
    exact hfo t [] hfr

theorem confirmation_injective {left right : Transcript}
    (h : left.confirmation <+: right.confirmation) : left = right := by
  have hs := h.eq_of_length (by rw [length_confirmation, length_confirmation])
  rw [left.confirmation_eq, right.confirmation_eq] at hs
  obtain ⟨-, hrc⟩ := append_inj hs (by rw [length_challenged, length_challenged])
  exact lifecycleBindingRecord_injective rfl hrc

end Keld.Ipc
