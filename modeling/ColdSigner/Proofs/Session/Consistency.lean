import ColdSigner.Proofs.Review.Transaction
import ColdSigner.Proofs.Session.Engine

/-! An engine has what its state calls for.

Whatever actions a new engine is given, and whatever else happens to the device in
between, it stays the engine of a session. So what a phase holds by its form is
there in the fields, no action is ever given up for want of a field, and an action
is refused only where the state does not accept it. -/
namespace ColdSigner

/-- The engines that a new one comes to, with the devices at that time, as long as no action
stops the program. Nothing is asked of `others`, which says how the rest of the program may
change a device. -/
inductive Engine.Reached (others : Device → Device → Prop) (settings : SessionSettings) :
    Engine → Device → Prop where
  | new (d : Device) : Reached others settings { settings } d
  | acted {e : Engine} {d : Device} (before : Reached others settings e d) (random : FixedBytes 32)
      (a : Action) (running : (e.update d random a).1 ≠ .error .overflow) :
      Reached others settings (e.update d random a).2.1 (e.update d random a).2.2
  | shared {e : Engine} {d d' : Device} (before : Reached others settings e d) (change : others d d') :
      Reached others settings e d'

variable {others : Device → Device → Prop} {settings : SessionSettings} {log : List Moment}
  {s t : Session} {d d' : Device} {random : FixedBytes 32} {a : Action}

/-! ### Idle sessions -/

/-- Nothing is collected or counted while a session is idle. -/
def Session.Settled (s : Session) : Prop := s.phase = .idle → s.collector = {} ∧ s.attempts = 0

theorem Session.Change.settled (h : Session.Change s a t) (before : s.Settled) : t.Settled := by
  cases h with
  | reset => exact fun _ => ⟨rfl, rfl⟩
  | started active => exact fun idle => absurd idle active
  | failed => exact nofun
  | noticed _ counted => exact fun idle => ⟨(before idle).1, (counted idle).trans (before idle).2⟩
  | moved _ active => exact fun idle => absurd idle active

theorem History.settled (h : History others settings log s d) : s.Settled :=
  h.invariant (P := fun _ s => s.Settled) (fun _ => ⟨rfl, rfl⟩)
    fun _ _ _ _ _ _ _ _ before step => step.change.settled before

/-! ### Engines of sessions -/

/-- An engine that is reached is the engine of a session with a history of its own. -/
theorem Engine.Reached.exists_session {e : Engine} (h : Reached others settings e d) :
    ∃ log s left, History others settings log s d ∧ e = s.engine left := by
  induction h with
  | new d => exact ⟨[], { settings }, {}, .opened d, rfl⟩
  | @acted e d before random a running ih =>
    obtain ⟨log, s, left, history, rfl⟩ := ih
    cases haccepted : s.tag.accepts a.kind with
    | true =>
      rcases s.update_engine left d random haccepted with
        ⟨s', d', left', hupdate, -, h⟩ | ⟨-, -, h⟩
      · rw [h]
        exact ⟨_, s', left', .acted history hupdate, rfl⟩
      · rw [h] at running
        exact absurd rfl running
    | false =>
      rw [(s.refused_engine left d random haccepted).2]
      exact ⟨log, s, left, history, rfl⟩
  | shared _ change ih =>
    obtain ⟨log, s, left, history, rfl⟩ := ih
    exact ⟨log, s, left, .shared history change, rfl⟩

/-- The fields have what the state calls for, and a signature and its frames only
where it calls for them. -/
structure Engine.Consistent (e : Engine) : Prop where
  payload : e.state = .decoding → e.payload.isSome
  review : e.state = .reviewing → e.review.isSome
  approved : e.state = .authenticating ∨ e.state = .signed → ∃ cards r, e.review = some ⟨cards, .sign r⟩
  signature : e.signature.isSome ↔ e.state = .signed
  frames : e.frames ≠ [] → e.state = .signed
  generated : e.state = .namingSeed .generated → e.draft.phrase.isSome
  named : e.state = .enteringPhrase → e.draft.name.isSome
  drafted : ∀ origin, e.state = .confirmingSeed origin → e.draft.name.isSome ∧ e.draft.phrase.isSome
  seed : e.state = .exporting → e.seed.isSome

/-- Nothing is under way. -/
structure Engine.Empty (e : Engine) : Prop where
  collector : e.collector = {}
  payload : e.payload = none
  review : e.review = none
  signature : e.signature = none
  frames : e.frames = []
  draft : e.draft = {}
  seed : e.seed = none
  attempts : e.attempts = 0

namespace Session

theorem consistent_engine (s : Session) (left : Leftover) : (s.engine left).Consistent := by
  obtain ⟨settings, phase, digest, collector, notice, exported, attempts⟩ := s
  constructor
  case signature => cases phase <;> simp [engine, Phase.state, signature?, Phase.signature?]
  case approved =>
    intro h
    cases phase with
    | authenticating | signed => exact ⟨_, _, rfl⟩
    | _ => rcases h with h | h <;> cases h
  case frames =>
    intro h
    cases phase with
    | signed => rfl
    | _ => exact absurd rfl h
  case generated =>
    intro h
    cases phase with
    | namingSeed phrase => cases phrase <;> first | rfl | cases h
    | _ => cases h
  case drafted =>
    intro origin h
    cases phase with
    | confirmingSeed => exact ⟨rfl, rfl⟩
    | _ => cases h
  all_goals
    intro h
    cases phase <;> first | rfl | cases h

theorem Settled.empty_engine (h : s.Settled) (left : Leftover) (idle : (s.engine left).state = .idle) :
    (s.engine left).Empty := by
  obtain ⟨settings, phase, digest, collector, notice, exported, attempts⟩ := s
  cases phase with
  | idle =>
    obtain ⟨hcollector, hattempts⟩ := h rfl
    exact ⟨hcollector, rfl, rfl, rfl, rfl, rfl, rfl, hattempts⟩
  | _ => cases idle

theorem error_engine (left : Leftover) (failed : (s.engine left).state = .failed) :
    ((s.engine left).view d).error.isSome = true := by
  rw [view_engine]
  obtain ⟨settings, phase, digest, collector, notice, exported, attempts⟩ := s
  cases phase with
  | failed => rfl
  | _ => cases failed

end Session

/-- An engine refuses what its state does not accept, and stays as it is; all else it
does, and folds it into the digest, unless it stops the program, for which it takes a capacity
near the largest word or as many seeds as there are handles. It has the data of its state, nothing where it is
idle, and a fault to show until a reset where it failed. -/
theorem engine_consistent (others : Device → Device → Prop) (settings : SessionSettings) (e : Engine)
    (d : Device) (reached : Engine.Reached others settings e d) :
    (∀ random a refusal e' d', e.update d random a = (.error (.refused refusal), e', d') ↔
      e.state.tag.accepts a.kind = false ∧ refusal = .illegalAction e.state.tag a.kind ∧ e' = e ∧
        d' = d) ∧
      (∀ random a, (e.update d random a).1 = .error .overflow →
        e.state = .authenticating ∧ Wire.Frame.wordSize < e.settings.frameCapacity + 65 ∨
          ∃ origin, e.state = .confirmingSeed origin ∧ UInt32.size ≤ d.vault.next.toNat + 1) ∧
      (∀ random a state e' d', e.update d random a = (.ok state, e', d') →
        state = e'.state ∧ e'.digest = Sha512.hash256 (e.digest.bytes ++ a.hash.bytes)) ∧
      e.Consistent ∧ (e.state = .idle → e.Empty) ∧
      (e.state = .failed → (e.view d).error.isSome = true ∧
        ∀ a : Action, e.state.tag.accepts a.kind = true → a = .reset) ∧
      ∃ log s left, History others settings log s d ∧ e = s.engine left ∧ e.Follows s := by
  obtain ⟨log, s, left, history, rfl⟩ := reached.exists_session
  refine ⟨fun random a refusal e' d' => ?_, fun random a stopped => ?_,
    fun random a state e' d' h => ?_, s.consistent_engine left,
    history.settled.empty_engine left, fun failed => ⟨s.error_engine left failed, ?_⟩,
    log, s, left, history, rfl, s.follows_engine left⟩
  · rw [s.tag_engine left]
    cases haccepted : s.tag.accepts a.kind with
    | true =>
      rcases s.update_engine left d random haccepted with
        ⟨_, _, _, -, -, hupdate⟩ | ⟨-, -, hupdate⟩ <;>
      · rw [hupdate]
        simp
    | false =>
      rw [(s.refused_engine left d random haccepted).2]
      simp [eq_comm]
  · cases haccepted : s.tag.accepts a.kind with
    | true =>
      rcases s.update_engine left d random haccepted with
        ⟨_, _, _, -, -, hupdate⟩ | ⟨past, -, -⟩
      · rw [hupdate] at stopped
        cases stopped
      · rcases past with ⟨cards, r, phase, -, hpast⟩ | ⟨origin, name, phrase, phase, hsize⟩
        · exact .inl ⟨congrArg Phase.state phase, hpast⟩
        · exact .inr ⟨origin, congrArg Phase.state phase, hsize⟩
    | false =>
      rw [(s.refused_engine left d random haccepted).2] at stopped
      cases stopped
  · cases haccepted : s.tag.accepts a.kind with
    | true =>
      rcases s.update_engine left d random haccepted with
        ⟨s', _, left', -, hdigest, hupdate⟩ | ⟨-, -, hupdate⟩
      · obtain ⟨hstate, rfl, -⟩ : _ ∧ s'.engine left' = e' ∧ _ := by
          simpa using hupdate.symm.trans h
        exact ⟨hstate.symm, hdigest⟩
      · cases hupdate.symm.trans h
    | false =>
      rw [(s.refused_engine left d random haccepted).2] at h
      cases h
  · rw [failed]
    exact fun a => Session.eq_reset_of_accepts

/-- A scan fails with a frame that is none, while metadata are loaded elsewhere. The
engine shows the fault, and refuses to scan again. -/
theorem failed_scan_consistent : ∃ (e : Engine) (d : Device),
    Engine.Reached (fun _ _ => True) {} e d ∧ d.registry = Review.sampleRegistry ∧
      (e.view d).error.isSome = true ∧
      e.update d (.fit 32 []) .startScan =
        (.error (.refused (.illegalAction .error .startScan)), e, d) := by
  let d : Device := { vault := { authenticator := ⟨fun _ => false⟩ } }
  have scanning : Engine.Reached (fun _ _ => True) {} _ d :=
    (Engine.Reached.new d).acted (.fit 32 []) .startScan nofun
  have loaded : Engine.Reached (fun _ _ => True) {} _ { d with registry := Review.sampleRegistry } :=
    scanning.shared trivial
  have failed := loaded.acted (.fit 32 []) (.scanFrame []) nofun
  refine ⟨_, _, failed, ?_, ?_, ?_⟩
  · rfl
  · exact ((engine_consistent _ _ _ _ failed).2.2.2.2.2.1 rfl).1
  · exact ((engine_consistent _ _ _ _ failed).1 _ _ _ _ _).2 ⟨rfl, rfl, rfl, rfl⟩

end ColdSigner
