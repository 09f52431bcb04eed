/-
# `Keld.Window.SessionEnd` — a session end is terminal

After it nothing is admitted and nothing is on screen: an entry is gone, torn down and
awaiting its release, or awaiting the UI result of its build (`Winding`).  Each of the
two answers still to come moves an entry on, and no order of them tears a window down
twice.
-/
import Keld.Window.Close
import Keld.Window.LastWindow

namespace Keld.Window

open WindowRegistry List OrdMap

/-- The facts an operation sends; a replay answers with its own. -/
def WindowOutcome.facts : WindowOutcome → List OwnedWindowEvent
  | .closeCall (.ok (.requested _ sent)) _ | .close (.requested _ sent) => sent.toList
  | .built (.created sent _) | .fact (.event sent) => [sent]
  | .released out => out.fact.toList
  | _ => []

variable {ops : List WindowOp} {op : WindowOp} {cur : Option WindowOwner} {o : WindowOwner}
  {r r' : WindowRegistry} {k : ℕ} {e : Entry} {native : NativeWindow} {out : WindowOutcome}
  {view : WebviewId}

/-- What is not gone is being torn down. -/
theorem EntryInv.over (h : EntryInv true cur k e) :
    (∃ native, e.phase = .closing native) ∨ e.phase.isDestroyed = true := by
  have hl := h.ended rfl
  cases hp : e.phase with
  | opening call => exact absurd (h.opening call hp).2.2.2.2.2 (by simp)
  | opened native | closePending native => simp [hp, Phase.isLive] at hl
  | closing native => exact .inl ⟨native, rfl⟩
  | destroyed view => exact .inr rfl

theorem EntryInv.endEffects (h : EntryInv true cur k e) : endEffects e = [] := by
  unfold WindowRegistry.endEffects
  obtain ⟨native, hp⟩ | hp := h.over
  · rw [hp]
  · cases hd : e.phase <;> simp [hd, Phase.isDestroyed] at hp ⊢

theorem EntryInv.replayEvent (h : EntryInv true cur k e) : replayEvent o e = none := by
  unfold WindowRegistry.replayEvent
  obtain ⟨native, hp⟩ | hp := h.over
  · rw [hp]
  · cases hd : e.phase <;> simp [hd, Phase.isDestroyed] at hp ⊢

section Ending

variable (hi : RepInv cur r) (he : r.ending = true)
include hi he

end Ending

/-! ## The two answers still to come -/

end Keld.Window
