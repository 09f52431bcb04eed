/-
# `Keld.Ipc.BootstrapLaw` — admission is one-shot, and one with the cancels

Whatever the peers do and however the cancels come between, both loops keep to
`AdmitPermitted` (`admission_law`): on Windows in every run, on Unix in the runs
whose cancels spare a stream that is being handed over.  Between its last look
at the stop flag and the drop of its guard the Unix loop leaves the stream in
the slot, where a cancel takes it and shuts it down; the call still returns it
as authenticated (`handed_over_shut`).  The Windows loop takes the one-shot of
its pipe first.
-/
import Keld.Ipc.BootstrapUnix
import Keld.Ipc.BootstrapWindows

namespace Keld.Ipc

open List

theorem UnixListener.step_config (s : UnixListener) (event : UnixEvent) :
    (s.step event).config = s.config := by
  cases event with
  | advance =>
    show s.advance.config = s.config
    unfold UnixListener.advance
    grind [UnixListener.goto, UnixListener.note, UnixListener.finish, UnixListener.reject]
  | tryAccept result =>
    cases result <;>
      grind [UnixListener.step, UnixListener.goto, UnixListener.note]
  | _ => grind [UnixListener.step, UnixListener.goto, UnixListener.note, UnixListener.reject]

theorem WindowsListener.step_config (s : WindowsListener) (event : WindowsEvent) :
    (s.step event).config = s.config := by
  cases event with
  | advance =>
    show s.advance.config = s.config
    unfold WindowsListener.advance
    grind [WindowsListener.goto, WindowsListener.note, WindowsListener.finish,
      WindowsListener.reject]
  | _ =>
    grind [WindowsListener.step, WindowsListener.goto, WindowsListener.note, WindowsListener.reject]

theorem UnixListener.run_config (config : AdmitConfig) (events : List UnixEvent) :
    (UnixListener.run config events).config = config := by
  induction events using reverseRecOn with
  | nil => rfl
  | append_singleton events event ih => rw [UnixListener.run_snoc, step_config, ih]

theorem WindowsListener.run_config (config : AdmitConfig) (events : List WindowsEvent) :
    (WindowsListener.run config events).config = config := by
  induction events using reverseRecOn with
  | nil => rfl
  | append_singleton events event ih =>
    rw [show WindowsListener.run config (events ++ [event]) =
      (WindowsListener.run config events).step event from foldl_append .., step_config, ih]

theorem admission_law (config : AdmitConfig) :
    (∀ events, Sparing config events →
      Always (AdmitPermitted config) (UnixListener.run config events).log) ∧
    ∀ events, Always (AdmitPermitted config) (WindowsListener.run config events).log := by
  constructor
  · intro events hsp
    have hp := (run_unixInv hsp).permitted
    rwa [UnixListener.run_config] at hp
  · intro events
    have hp := (run_windowsInv config events).permitted
    rwa [WindowsListener.run_config] at hp

/-! ## Runs of the Unix loop -/

def someConfig : AdmitConfig where
  token := someToken
  limit := 5
  horizon := 2 ^ 64
  limit_pos := by decide

/-- One peer connects and completes its handshake. -/
def onePeer : List UnixEvent :=
  [.call none, .advance, .advance, .tryAccept .stream, .advance, .advance, .setOptions true,
    .tryClone true, .advance, .handshake calmEnv (.fresh (helloScript someToken))]

/-- A cancel that comes only once the peer's connection was returned. -/
def lateCancel : List UnixEvent :=
  onePeer ++ [.advance, .advance, .closeEndpoint true, .advance, .cancelStop]

def AdmitFact.isAuthenticated : AdmitFact → Bool
  | .returned (some (.authenticated _)) _ => true
  | _ => false

theorem admission_law_late :
    Always (AdmitPermitted someConfig) (UnixListener.run someConfig lateCancel).log ∧
      (UnixListener.run someConfig lateCancel).log.any AdmitFact.isAuthenticated = true := by
  refine ⟨(admission_law someConfig).1 lateCancel fun before event after he => ?_,
    by decide +kernel⟩
  have hm : event ∈ lateCancel := he ▸ mem_append_right _ (mem_cons_self ..)
  cases event with
  | cancelTake =>
    have hn : ∀ other ∈ lateCancel, other ≠ .cancelTake := by
      simp [lateCancel, onePeer]
    exact absurd rfl (hn _ hm)
  | _ => trivial

/-- The cancel finds the stream in the slot after the loop has looked for a stop. -/
def racedCancel : List UnixEvent :=
  onePeer ++ [.advance, .cancelStop, .cancelTake, .advance, .closeEndpoint true]

def AdmitFact.isShut : AdmitFact → Bool
  | .shut 0 => true
  | _ => false

/-- The connection that the cancel shut down is returned as authenticated. -/
theorem handed_over_shut :
    ¬ Always (AdmitPermitted someConfig)
      (UnixListener.run someConfig (racedCancel ++ [.advance])).log := by
  intro h
  have hl : (UnixListener.run someConfig racedCancel).loop =
      .leaving (some (.authenticated 0)) := by decide +kernel
  have hsh : (UnixListener.run someConfig racedCancel).log.any AdmitFact.isShut = true := by
    decide +kernel
  rw [UnixListener.run_snoc] at h
  generalize UnixListener.run someConfig racedCancel = s at h hl hsh
  have hlo : (s.step .advance).log =
      s.log ++ [.returned (some (.authenticated 0)) s.now] := by
    show s.advance.log = _
    unfold UnixListener.advance
    rw [hl]
    rfl
  rw [hlo] at h
  obtain ⟨-, -, -, -, hsp, -⟩ := (always_snoc.mp h).2
  obtain ⟨fact, hm, hf⟩ := any_eq_true.mp hsh
  cases fact with
  | shut conn =>
    cases conn with
    | zero => exact hsp hm
    | succ _ => exact nomatch hf
  | _ => exact nomatch hf

end Keld.Ipc
