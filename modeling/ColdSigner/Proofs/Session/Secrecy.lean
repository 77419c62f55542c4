import ColdSigner.Proofs.Session.Authentication
import ColdSigner.Proofs.Session.Runs

/-! Where a phrase is shown.

A session shows a phrase in two places: the new one that is to be confirmed, and the
one that was exported last. Both are accounted for by the log of the session, and both
are gone with the next action. What was typed to recover a seed is shown nowhere. -/
namespace ColdSigner

namespace Vault

variable {v : Vault} {proof : Bytes}

theorem exportEntropy_of_not_verifies (h : v.authenticator.verifies proof = false)
    (seed : SeedHandle) : v.exportEntropy seed proof = .error .authRequired := by
  have hproof : v.authenticate proof = .error .authRequired := by simp [authenticate, h]
  rw [exportEntropy, hproof]
  rfl

theorem exportPhrase_of_not_verifies (h : v.authenticator.verifies proof = false)
    (seed : SeedHandle) : v.exportPhrase seed proof = .error .authRequired := by
  rw [exportPhrase, exportEntropy_of_not_verifies h]
  rfl

end Vault

/-! ### How the logs of shown phrases end -/

variable {log : List Turn} {t : Turn}

theorem Drafts.exists_name {phrase : Option String} {name : String}
    (h : Drafts (log ++ [t]) .generated ⟨some name, phrase⟩) :
    ∃ typed, t.action = .setSeedName typed := by
  generalize hlog : log ++ [t] = whole at h
  cases h with
  | named _ action =>
    obtain rfl := List.append_singleton_inj.1 hlog |>.2
    exact ⟨_, action⟩

theorem Exports.exists_proof {phrase : String} (h : Exports (log ++ [t]) phrase) :
    ∃ proof password, t.action = .authenticate proof password := by
  generalize hlog : log ++ [t] = whole at h
  cases h with
  | authenticated _ action =>
    obtain rfl := List.append_singleton_inj.1 hlog |>.2
    exact ⟨_, _, action⟩

namespace Session

variable {settings : SessionSettings} {s s' : Session} {d d' : Device} {random : FixedBytes 32}
  {a : Action} {p : String}

theorem accepts_of_update (h : s.update d random a = .ok (s', d')) :
    s.tag.accepts a.kind = true := by
  unfold update at h
  split at h
  · next accepted => exact accepted
  · cases h

/-- A phrase is shown before it is confirmed, if it is new, or after it was exported. -/
theorem Accounted.secret (h : s.Accounted log d.vault) (shown : (s.view d).secret = some p) :
    (∃ name, s.phase = .confirmingSeed .generated name p ∧
      Drafts log .generated ⟨some name, some p⟩) ∨ s.phase = .idle ∧ Exports log p := by
  have hshown : s.secret? = some p := shown
  unfold secret? at hshown
  split at hshown
  · next name phrase hphase =>
    obtain rfl := Option.some.inj hshown
    have hknown := h.known
    rw [hphase] at hknown
    exact .inl ⟨name, hphase, hknown⟩
  · exact .inr (h.exported p hshown)

/-- Neither place is reached from itself in one step. -/
theorem Run.secret_cleared (h : Run settings log s d) (shown : (s.view d).secret = some p)
    (done : s.update d random a = .ok (s', d')) : (s'.view d').secret = none := by
  have haccepted := accepts_of_update done
  have hnext {k : ActionKind} (hk : a.kind = k) (hidle : StateTag.idle.accepts k = false)
      (hconfirming : StateTag.reviewingSeedFlow.accepts k = false) : False := by
    rw [hk, tag] at haccepted
    rcases h.accounted.secret shown with ⟨name, hphase, -⟩ | ⟨hphase, -⟩
    · rw [hphase] at haccepted
      exact Bool.false_ne_true (hconfirming.symm.trans haccepted)
    · rw [hphase] at haccepted
      exact Bool.false_ne_true (hidle.symm.trans haccepted)
  cases hsecret : (s'.view d').secret with
  | none => rfl
  | some q =>
    rcases (h.acted done).accounted.secret hsecret with ⟨name, -, drafts⟩ | ⟨-, exports⟩
    · obtain ⟨typed, rfl⟩ := drafts.exists_name
      exact (hnext rfl rfl rfl).elim
    · obtain ⟨proof, password, rfl⟩ := exports.exists_proof
      exact (hnext rfl rfl rfl).elim

end Session

/-- Whatever becomes of a session and of the device it shares, it shows a phrase only if
this is the one drawn in the flow that is to be confirmed, or if its last action was an
authentication with a proof that was verified, and this is the phrase of the seed that
was to be exported. The next action hides it, and the phrases of a recovery are not
shown at all. A proof that is not verified is told the same by every vault. -/
theorem secrets_shown_where_allowed (settings : SessionSettings) (log : List Turn) (s : Session)
    (d : Device) (run : Session.Run settings log s d) :
    (∀ p, (s.view d).secret = some p →
      (∃ name, s.phase = .confirmingSeed .generated name p ∧
        Drafts log .generated ⟨some name, some p⟩) ∨ s.phase = .idle ∧ Exports log p) ∧
      (∀ p random a s' d', (s.view d).secret = some p → s.update d random a = .ok (s', d') →
        (s'.view d').secret = none) ∧
      (∀ name phrase,
        s.phase = .enteringPhrase name ∨ s.phase = .confirmingSeed .recovered name phrase →
          (s.view d).secret = none) ∧
      ∀ (v : Vault) (proof : Bytes), v.authenticator.verifies proof = false →
        (∀ key password message, v.sign key password proof message = .error .authRequired) ∧
          ∀ h, v.exportEntropy h proof = .error .authRequired ∧
            v.exportPhrase h proof = .error .authRequired := by
  refine ⟨fun p => run.accounted.secret, fun p random a s' d' => run.secret_cleared,
    fun name phrase recovering => ?_, fun v proof unverified =>
      ⟨fun key password message => ?_, fun h => ?_⟩⟩
  · cases hsecret : (s.view d).secret with
    | none => rfl
    | some p =>
      rcases run.accounted.secret hsecret with ⟨_, hphase, -⟩ | ⟨hphase, -⟩ <;>
        rw [hphase] at recovering <;> rcases recovering with h | h <;> cases h
  · exact Vault.sign_of_not_verifies unverified
  · exact ⟨Vault.exportEntropy_of_not_verifies unverified h,
      Vault.exportPhrase_of_not_verifies unverified h⟩

/-- The sample seed is exported. Its phrase is shown until the next action. -/
theorem sample_export_shown_once : ∃ (log : List Turn) (s s' : Session) (d : Device),
    Session.Run {} log s d ∧ (s.view d).secret = some (Phrase.render (List.replicate 16 0)) ∧
      Exports log (Phrase.render (List.replicate 16 0)) ∧
        s.update d (.fit 32 []) .startScan = .ok (s', d) ∧ (s'.view d).secret = none := by
  have opened := @Session.Run.opened {} _ sampleSeeds_reached.reached
  obtain ⟨s₁, h₁, hp₁, -⟩ := opened.advance rfl
    (@Session.Step.startExport _ ⟨sampleSeeds, Review.sampleRegistry⟩ (.fit 32 []) "sample" rfl)
  obtain ⟨s₂, h₂, hp₂, he₂⟩ := h₁.advance (by rw [Session.tag, hp₁]; rfl)
    (@Session.Step.exportSeed s₁.cleared ⟨sampleSeeds, Review.sampleRegistry⟩ (.fit 32 []) ⟨0⟩ [1]
      none hp₁)
  have shown : (s₂.view ⟨sampleSeeds, Review.sampleRegistry⟩).secret =
      some (Phrase.render (List.replicate 16 0)) := by
    show s₂.secret? = _
    unfold Session.secret?
    rw [hp₂]
    exact he₂
  obtain ⟨hallowed, hcleared, -⟩ := secrets_shown_where_allowed _ _ _ _ h₂
  have hnext := Session.Step.update_eq
    (@Session.Step.startScan s₂.cleared ⟨sampleSeeds, Review.sampleRegistry⟩ (.fit 32 []) hp₂)
    (by rw [Session.tag, hp₂]; rfl)
  rcases hallowed _ shown with ⟨name, hphase, -⟩ | ⟨-, exports⟩
  · rw [hp₂] at hphase
    cases hphase
  · exact ⟨_, s₂, _, _, h₂, shown, exports, hnext, hcleared _ _ _ _ _ shown hnext⟩

end ColdSigner
