import ColdSigner.Proofs.Session.Steps

/-! Histories of a session.

A session is opened once and then accepts actions; in between, other sessions and
the host use the device that they share. Nothing is asked of `others`, which says
how they may change it. -/
namespace ColdSigner

/-- An accepted action, and the device as it was then. -/
structure Moment where
  device : Device
  action : Action

/-- The sessions and devices that a session can come to, with the actions it accepted. -/
inductive History (others : Device → Device → Prop) (settings : SessionSettings) :
    List Moment → Session → Device → Prop where
  | opened (d : Device) : History others settings [] { settings } d
  | acted {log : List Moment} {s s' : Session} {d d' : Device} {random : FixedBytes 32} {a : Action}
      (before : History others settings log s d) (done : s.update d random a = .ok (s', d')) :
      History others settings (log ++ [⟨d, a⟩]) s' d'
  | shared {log : List Moment} {s : Session} {d d' : Device} (before : History others settings log s d)
      (change : others d d') : History others settings log s d'

namespace History

variable {others : Device → Device → Prop} {settings : SessionSettings} {log : List Moment}
  {s : Session} {d : Device}

theorem settings_eq (h : History others settings log s d) : s.settings = settings := by
  induction h with
  | opened => rfl
  | acted _ done ih =>
    obtain ⟨t, step, rfl⟩ := Session.update_eq_ok done
    exact step.settings_eq.trans ih
  | shared _ _ ih => exact ih

/-- What holds of a new session, and is kept by every step, holds in every history. -/
theorem invariant {P : List Moment → Session → Prop} (h : History others settings log s d)
    (opened : P [] { settings })
    (acted : ∀ log s t (d d' : Device) random a, s.settings = settings → P log s →
      Session.Step s.cleared d random a t d' →
        P (log ++ [⟨d, a⟩]) { t with digest := s.digest.fold a.hash }) : P log s := by
  induction h with
  | opened => exact opened
  | @acted log s s' d d' random a before done ih =>
    obtain ⟨t, step, rfl⟩ := Session.update_eq_ok done
    exact acted log s t d d' random a before.settings_eq ih step
  | shared _ _ ih => exact ih

/-- An accepted action makes a history longer. -/
theorem advance (h : History others settings log s d) {random : FixedBytes 32} {a : Action}
    {t : Session} {d' : Device} (accepted : s.tag.accepts a.kind = true)
    (step : Session.Step s.cleared d random a t d') :
    ∃ s', History others settings (log ++ [⟨d, a⟩]) s' d' ∧ s'.phase = t.phase ∧
      s'.collector = t.collector := by
  exact ⟨_, .acted h (step.update_eq accepted), rfl, rfl⟩

end History

end ColdSigner
