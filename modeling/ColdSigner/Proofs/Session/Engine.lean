import ColdSigner.Proofs.Session.History
import ColdSigner.Session.View

/-! A session with its data apart from its state.

A phase holds what it needs, so that a session which lacks it cannot be written
down. An `Engine` is the same session as a front end keeps it: a state, and beside
it fields that may be there or not. It gives up where a field is missing that its
state calls for, and it drops no field when it fails. The vault and the registry
always answer: that a lock of theirs is poisoned is left out.

`Session.engine` writes a session as an engine, and `apply_engine` says that an
accepted action then does to the engine what it does to the session. So an engine
that starts out empty always has what its state calls for. -/
namespace ColdSigner

/-! ### Engines -/

inductive Engine.State where
  | idle
  | awaitingScan
  | decoding
  | reviewing
  | authenticating
  | signed
  | failed
  | namingSeed (origin : SeedOrigin)
  | enteringPhrase
  | confirmingSeed (origin : SeedOrigin)
  | exporting
  deriving DecidableEq, Repr

def Engine.State.tag : Engine.State → StateTag
  | .idle => .idle
  | .awaitingScan => .awaitingScan
  | .decoding => .decoding
  | .reviewing => .reviewingTransaction
  | .authenticating => .awaitingAuthentication
  | .signed => .signed
  | .failed => .error
  | .namingSeed _ => .seedNaming
  | .enteringPhrase => .seedPhraseEntry
  | .confirmingSeed _ => .reviewingSeedFlow
  | .exporting => .awaitingExportAuth

/-- What is known of a seed that is to be kept. -/
structure SeedDraft where
  name : Option String := none
  phrase : Option String := none

structure Engine where
  settings : SessionSettings
  state : Engine.State := .idle
  digest : SessionDigest := .empty
  collector : Wire.Collector := {}
  payload : Option Bytes := none
  review : Option Review := none
  signature : Option Signature := none
  frames : List Bytes := []
  draft : SeedDraft := {}
  /-- The seed to export. -/
  seed : Option SeedHandle := none
  error : Option SessionFault := none
  secret : Option String := none
  attempts : Nat := 0

namespace Engine

/-- What became of an action, and the engine and the device after it, also where it
is refused. -/
abbrev Outcome (α : Type) := Except Stop α × Engine × Device

def Outcome.done (e : Engine) (d : Device) : Outcome Unit := (.ok (), e, d)

def Outcome.stuck (e : Engine) (d : Device) : Outcome Unit := (.error (.refused .invalidState), e, d)

/-- A sum was no word. -/
def Outcome.overflow (e : Engine) (d : Device) : Outcome Unit := (.error .overflow, e, d)

def reset (e : Engine) : Engine :=
  { e with
    state := .idle, collector := {}, payload := none, review := none, signature := none
    frames := [], draft := {}, seed := none, attempts := 0 }

def fail (e : Engine) (fault : SessionFault) : Engine :=
  { e with error := some fault, state := .failed }

def retry (e : Engine) (fault : VaultError) : Engine :=
  { e with
    attempts := min (e.attempts + 1) Session.maxAttempts
    error := some (.vault fault) }

def refuse (e : Engine) (fault : VaultError) : Engine := { e with error := some (.vault fault) }

def scanFrame (e : Engine) (frame : Bytes) : Engine :=
  match e.collector.push frame with
  | .error fault => e.fail (.transport fault)
  | .ok collector =>
    let e := { e with collector }
    if collector.isComplete then
      match collector.finish with
      | .ok payload => { e with payload := some payload, state := .decoding }
      | .error fault => e.fail (.transport fault)
    else e

def decode (e : Engine) (d : Device) : Outcome Unit :=
  match e.payload with
  | none => .stuck e d
  | some payload =>
    match Review.decodeRequest payload d.registry.source e.settings.limits with
    | .error fault => .done (e.fail (.decode fault)) d
    | .ok review =>
      match review.request with
      | .sign r =>
        if (d.vault.lookupOn r.signer r.network).isSome then
          .done { e with review := some review, state := .reviewing } d
        else .done (e.fail (.decode ⟨.unknownSigner, Session.signerOffset, none⟩)) d
      | .loadMetadata _ => .done { e with review := some review, state := .reviewing } d

def approve (e : Engine) (d : Device) : Outcome Unit :=
  match e.review with
  | none => .stuck e d
  | some review =>
    match review.request with
    | .sign _ => .done { e with state := .authenticating } d
    | .loadMetadata entry =>
      match d.registry.insert entry with
      | .ok (_, registry) => .done e.reset { d with registry }
      | .error fault => .done (e.fail (.registry fault)) d

def sign (e : Engine) (d : Device) (proof : Bytes) (password : Option String) : Outcome Unit :=
  match e.review.map Review.request with
  | some (.sign r) =>
    match d.vault.lookupOn r.signer r.network with
    | none => .done (e.fail (.vault .unknownAddress)) d
    | some details =>
      match d.vault.sign (details.derivedKey r.signer) password proof r.payload with
      | .error fault => .done (if fault.isRetryable then e.retry fault else e.fail (.vault fault)) d
      | .ok signature =>
        match Wire.Frame.encode (Wire.Response.encode ⟨signature.scheme, signature.bytes⟩)
            e.settings.frameCapacity with
        | .ok frames => .done { e with frames, signature := some signature, state := .signed } d
        | .error .overflow => .overflow e d
        | .error fault => .done (e.fail (.transport fault)) d
  | _ => .stuck e d

def newSeed (e : Engine) (random : FixedBytes 32) (words : Nat) : Engine :=
  match Vault.newPhrase random words with
  | .ok phrase =>
    { e.reset with draft := { e.reset.draft with phrase := some phrase }, state := .namingSeed .generated }
  | .error fault => e.refuse fault

def nameSeed (e : Engine) (d : Device) (origin : SeedOrigin) (name : String) : Engine :=
  let name := Text.trim name
  if name.isEmpty then e.refuse .invalidName
  else if (d.vault.seedByName name).toBool then e.refuse (.duplicateName name)
  else
    { e with
      draft := { e.draft with name := some name }
      state :=
        match origin with
        | .generated => .confirmingSeed .generated
        | .recovered => .enteringPhrase }

def enterPhrase (e : Engine) (phrase : String) : Engine :=
  match Phrase.parseExact (Text.trimChars phrase.toList) with
  | .ok _ =>
    { e with draft := { e.draft with phrase := some phrase }, state := .confirmingSeed .recovered }
  | .error _ => e.refuse .invalidPhrase

def confirmSeed (e : Engine) (d : Device) : Outcome Unit :=
  match e.draft.name, e.draft.phrase with
  | some name, some phrase =>
    match d.vault.importPhrase name phrase with
    | .error .overflow => .overflow e d
    | .error fault => .done (e.fail (.vault fault)) d
    | .ok (seed, vault) =>
      match vault.populateDefaults seed d.registry.networks e.settings.defaultDerivations with
      | (vault, .ok _) => .done e.reset { d with vault }
      | (vault, .error fault) =>
        .done (e.fail (.vault fault)) { d with vault := (vault.delete seed).toOption.getD vault }
  | _, _ => .stuck e d

def startExport (e : Engine) (d : Device) (name : String) : Engine :=
  match d.vault.seedByName name with
  | .ok seed => { e.reset with seed := some seed, state := .exporting }
  | .error fault => e.refuse fault

def exportSeed (e : Engine) (d : Device) (proof : Bytes) : Outcome Unit :=
  match e.seed with
  | none => .stuck e d
  | some seed =>
    match d.vault.exportPhrase seed proof with
    | .ok phrase => .done { e.reset with secret := some phrase } d
    | .error fault => .done (if fault.isRetryable then e.retry fault else e.fail (.vault fault)) d

def deleteSeed (e : Engine) (d : Device) (name : String) (proof : Bytes) : Outcome Unit :=
  let deleted := do
    d.vault.authenticate proof
    d.vault.delete (← d.vault.seedByName name)
  match deleted with
  | .ok vault => .done e.reset { d with vault }
  | .error fault => .done (e.refuse fault) d

def apply (e : Engine) (d : Device) (random : FixedBytes 32) (a : Action) : Outcome Unit :=
  match e.state, a with
  | .idle, .startScan => .done { e.reset with state := .awaitingScan } d
  | .awaitingScan, .scanFrame frame => .done (e.scanFrame frame) d
  | .decoding, .decode => e.decode d
  | .reviewing, .approve => e.approve d
  | .authenticating, .authenticate proof password => e.sign d proof password
  | .exporting, .authenticate proof _ => e.exportSeed d proof
  | .idle, .newSeed words => .done (e.newSeed random words) d
  | .idle, .recoverSeed => .done { e.reset with state := .namingSeed .recovered } d
  | .namingSeed origin, .setSeedName name => .done (e.nameSeed d origin name) d
  | .enteringPhrase, .setSeedPhrase phrase => .done (e.enterPhrase phrase) d
  | .confirmingSeed _, .confirmSeed => e.confirmSeed d
  | .idle, .exportSeed name => .done (e.startExport d name) d
  | .idle, .deleteSeed name proof => e.deleteSeed d name proof
  | .reviewing, .reject | .signed, .reset | .failed, .reset | _, .cancel => .done e.reset d
  | _, _ => (.error (.refused (.illegalAction e.state.tag a.kind)), e, d)

/-- The same engine without what the last action left to be shown. -/
def cleared (e : Engine) : Engine := { e with error := none, secret := none }

/-- One action. What the last one left to be shown is put back where this one is
given up; nothing is put back where the program stops. -/
def update (e : Engine) (d : Device) (random : FixedBytes 32) (a : Action) : Outcome State :=
  if e.state.tag.accepts a.kind then
    match e.cleared.apply d random a with
    | (.ok _, next, d) =>
      let next := { next with digest := next.digest.fold a.hash }
      (.ok next.state, next, d)
    | (.error (.refused refusal), next, d) =>
      (.error (.refused refusal), { next with error := e.error, secret := e.secret }, d)
    | (.error .overflow, next, d) => (.error .overflow, next, d)
  else (.error (.refused (.illegalAction e.state.tag a.kind)), e, d)

/-- Whether the reviewed key was derived with a password. -/
def needsPassword (e : Engine) (d : Device) : Bool :=
  match e.review.map Review.request with
  | some (.sign r) => Session.needsPassword d r
  | _ => false

def awaiting (e : Engine) (d : Device) : Option InputKind :=
  match e.state with
  | .awaitingScan => some .frames
  | .reviewing => some .approval
  | .authenticating => some (if e.needsPassword d then .password else .authentication)
  | .exporting => some .authentication
  | .namingSeed _ => some .seedName
  | .enteringPhrase => some .seedPhrase
  | .confirmingSeed _ => some .confirmation
  | _ => none

def view (e : Engine) (d : Device) : SessionView where
  state := e.state.tag
  digest := e.digest
  cards := e.review.map (·.cards)
  error := e.error
  awaiting := e.awaiting d
  progress := e.collector.progress
  frames := e.frames
  secret :=
    match e.state, e.draft.phrase with
    | .confirmingSeed .generated, some phrase => some phrase
    | _, _ => e.secret
  attempts := e.attempts

end Engine

/-! ### Sessions as engines -/

/-- What an engine keeps that its state no longer calls for. -/
structure Leftover where
  payload : Option Bytes := none
  draft : SeedDraft := {}
  seed : Option SeedHandle := none

namespace Phase

/-- A seed that is named without a phrase is to be recovered. -/
def origin : Option String → SeedOrigin
  | none => .recovered
  | some _ => .generated

def state : Phase → Engine.State
  | .idle => .idle
  | .awaitingScan => .awaitingScan
  | .decoding _ => .decoding
  | .reviewing _ => .reviewing
  | .authenticating .. => .authenticating
  | .signed .. => .signed
  | .namingSeed phrase => .namingSeed (origin phrase)
  | .enteringPhrase _ => .enteringPhrase
  | .confirmingSeed origin .. => .confirmingSeed origin
  | .exporting _ => .exporting
  | .failed .. => .failed

theorem tag_state (p : Phase) : p.state.tag = p.tag := by
  cases p <;> rfl

/-- The payload stays when it is decoded. -/
def payload (left : Leftover) : Phase → Option Bytes
  | .decoding payload => some payload
  | .reviewing _ | .authenticating .. | .signed .. | .failed .. => left.payload
  | _ => none

def draft (left : Leftover) : Phase → SeedDraft
  | .namingSeed phrase => { phrase }
  | .enteringPhrase name => { name := some name }
  | .confirmingSeed _ name phrase => ⟨some name, some phrase⟩
  | .failed .. => left.draft
  | _ => {}

def seed (left : Leftover) : Phase → Option SeedHandle
  | .exporting seed => some seed
  | .failed .. => left.seed
  | _ => none

end Phase

namespace Session

/-- The engine of a session. -/
def engine (s : Session) (left : Leftover) : Engine where
  settings := s.settings
  state := s.phase.state
  digest := s.digest
  collector := s.collector
  payload := s.phase.payload left
  review := s.review?
  signature := s.signature?
  frames := s.phase.frames
  draft := s.phase.draft left
  seed := s.phase.seed left
  error := s.fault?
  secret := s.exported
  attempts := s.attempts

end Session

/-- The engine refuses what the session refuses, without a change, stops the program where
the session does, and becomes the engine of what the session becomes. -/
def Engine.Follows (e : Engine) (s : Session) : Prop :=
  ∀ (d : Device) (random : FixedBytes 32) (a : Action),
    match s.update d random a with
    | .error (.refused refusal) => e.update d random a = (.error (.refused refusal), e, d)
    | .error .overflow => e.update d random a = (.error .overflow, e.cleared, d)
    | .ok (s', d') => ∃ left, e.update d random a = (.ok s'.phase.state, s'.engine left, d')

namespace Session

variable {s t : Session} {d d' : Device} {random : FixedBytes 32} {a : Action}

/-- An engine shows what its session shows. -/
theorem view_engine (s : Session) (left : Leftover) (d : Device) :
    (s.engine left).view d = s.view d := by
  obtain ⟨settings, phase, digest, collector, notice, exported, attempts⟩ := s
  cases phase with
  | namingSeed phrase => cases phrase <;> rfl
  | confirmingSeed origin name phrase => cases origin <;> rfl
  | _ => rfl

/-- Nothing is left over of what is reset. -/
theorem reset_engine {e : Engine} (settings : e.settings = s.settings) (digest : e.digest = s.digest)
    (error : e.error = none) (secret : e.secret = none) : e.reset = s.toIdle.engine {} := by
  unfold Engine.reset
  rw [settings, digest, error, secret]
  rfl

/-! An accepted action does to an engine what it does to the session. What is left
over depends on the phase that is left. -/

theorem scanFrame_engine (left : Leftover) (scanning : s.phase = .awaitingScan) (frame : Bytes) :
    ∃ left', (s.engine left).scanFrame frame = (s.scanFrame frame).engine left' := by
  obtain ⟨settings, phase, digest, collector, notice, exported, attempts⟩ := s
  obtain rfl := scanning
  refine ⟨{}, ?_⟩
  unfold Engine.scanFrame Session.scanFrame
  conv => lhs; dsimp only [engine]
  cases collector.push frame with
  | error fault => rfl
  | ok collector =>
    dsimp only
    cases collector.isComplete with
    | false => rfl
    | true => cases collector.finish <;> rfl

theorem decode_engine (left : Leftover) {payload : Bytes} (decoding : s.phase = .decoding payload) :
    ∃ left', (s.engine left).decode d = .done ((s.decode d payload).engine left') d := by
  obtain ⟨settings, phase, digest, collector, notice, exported, attempts⟩ := s
  obtain rfl := decoding
  refine ⟨{ payload := some payload }, ?_⟩
  unfold Engine.decode Session.decode
  conv => lhs; dsimp only [engine, Phase.payload]
  cases Review.decodeRequest payload d.registry.source settings.limits with
  | error fault => rfl
  | ok review =>
    obtain ⟨cards, request⟩ := review
    cases request with
    | sign r =>
      dsimp only
      cases d.vault.lookupOn r.signer r.network <;> rfl
    | loadMetadata entry => rfl

theorem approve_engine (left : Leftover) {review : Review} (reviewing : s.phase = .reviewing review) :
    ∃ left', (s.cleared.engine left).approve d =
      .done ((s.cleared.approve d review).1.engine left') (s.cleared.approve d review).2 := by
  obtain ⟨settings, phase, digest, collector, notice, exported, attempts⟩ := s
  obtain rfl := reviewing
  obtain ⟨cards, request⟩ := review
  refine ⟨{ payload := left.payload }, ?_⟩
  unfold Engine.approve Session.approve
  conv => lhs; dsimp only [engine, cleared, review?, Phase.review?]
  cases request with
  | sign r => rfl
  | loadMetadata entry =>
    dsimp only
    cases d.registry.insert entry with
    | error fault => rfl
    | ok stored => rfl

theorem sign_engine (left : Leftover) {cards : List Card} {r : Review.SigningRequest}
    (authenticating : s.phase = .authenticating cards r) (proof : Bytes) (password : Option String) :
    ∃ left', (s.engine left).sign d proof password =
      match s.sign d cards r proof password with
      | some t => .done (t.engine left') d
      | none => .overflow (s.engine left) d := by
  obtain ⟨settings, phase, digest, collector, notice, exported, attempts⟩ := s
  obtain rfl := authenticating
  refine ⟨{ payload := left.payload }, ?_⟩
  unfold Engine.sign Session.sign answerFrames
  conv => lhs; dsimp only [engine, review?, Phase.review?, Option.map]
  cases d.vault.lookupOn r.signer r.network with
  | none => rfl
  | some details =>
    dsimp only
    cases d.vault.sign (details.derivedKey r.signer) password proof r.payload with
    | error fault =>
      dsimp only
      cases fault.isRetryable <;> rfl
    | ok signature =>
      dsimp only
      cases Wire.Frame.encode (Wire.Response.encode ⟨signature.scheme, signature.bytes⟩)
        settings.frameCapacity with
      | ok frames => rfl
      | error fault => cases fault <;> rfl

theorem newSeed_engine (left : Leftover) (idle : s.phase = .idle) (random : FixedBytes 32)
    (words : Nat) :
    ∃ left', (s.cleared.engine left).newSeed random words =
      (s.cleared.newSeed random words).engine left' := by
  obtain ⟨settings, phase, digest, collector, notice, exported, attempts⟩ := s
  obtain rfl := idle
  refine ⟨{}, ?_⟩
  unfold Engine.newSeed Session.newSeed
  cases Vault.newPhrase random words <;> rfl

theorem nameSeed_engine (left : Leftover) {phrase : Option String} (naming : s.phase = .namingSeed phrase)
    (name : String) : ∃ left', (s.engine left).nameSeed d (Phase.origin phrase) name =
      (s.nameSeed d phrase name).engine left' := by
  obtain ⟨settings, phase, digest, collector, notice, exported, attempts⟩ := s
  obtain rfl := naming
  refine ⟨{}, ?_⟩
  unfold Engine.nameSeed Session.nameSeed
  dsimp only
  cases (Text.trim name).isEmpty with
  | true => rfl
  | false =>
    cases (d.vault.seedByName (Text.trim name)).toBool with
    | true => rfl
    | false => cases phrase <;> rfl

theorem enterPhrase_engine (left : Leftover) {name : String} (entering : s.phase = .enteringPhrase name)
    (phrase : String) :
    ∃ left', (s.engine left).enterPhrase phrase = (s.enterPhrase name phrase).engine left' := by
  obtain ⟨settings, phase, digest, collector, notice, exported, attempts⟩ := s
  obtain rfl := entering
  refine ⟨{}, ?_⟩
  unfold Engine.enterPhrase Session.enterPhrase
  cases Phrase.parseExact (Text.trimChars phrase.toList) <;> rfl

theorem confirmSeed_engine (left : Leftover) {origin : SeedOrigin} {name phrase : String}
    (confirming : s.phase = .confirmingSeed origin name phrase) :
    ∃ left', (s.cleared.engine left).confirmSeed d =
      match s.cleared.confirmSeed d name phrase with
      | some (t, d') => .done (t.engine left') d'
      | none => .overflow (s.cleared.engine left) d := by
  obtain ⟨settings, phase, digest, collector, notice, exported, attempts⟩ := s
  obtain rfl := confirming
  refine ⟨{ draft := ⟨some name, some phrase⟩ }, ?_⟩
  unfold Engine.confirmSeed Session.confirmSeed
  dsimp only [cleared]
  conv => lhs; dsimp only [engine, Phase.draft]
  cases d.vault.importPhrase name phrase with
  | error fault => cases fault <;> rfl
  | ok kept =>
    obtain ⟨seed, vault⟩ := kept
    dsimp only
    cases vault.populateDefaults seed d.registry.networks settings.defaultDerivations with
    | mk vault result => cases result <;> rfl

theorem startExport_engine (left : Leftover) (idle : s.phase = .idle) (name : String) :
    ∃ left', (s.cleared.engine left).startExport d name =
      (s.cleared.startExport d name).engine left' := by
  obtain ⟨settings, phase, digest, collector, notice, exported, attempts⟩ := s
  obtain rfl := idle
  refine ⟨{}, ?_⟩
  unfold Engine.startExport Session.startExport
  cases d.vault.seedByName name <;> rfl

theorem exportSeed_engine (left : Leftover) {seed : SeedHandle} (exporting : s.phase = .exporting seed)
    (proof : Bytes) :
    ∃ left', (s.cleared.engine left).exportSeed d proof =
      .done ((s.cleared.exportSeed d seed proof).engine left') d := by
  obtain ⟨settings, phase, digest, collector, notice, exported, attempts⟩ := s
  obtain rfl := exporting
  refine ⟨{ seed := some seed }, ?_⟩
  unfold Engine.exportSeed Session.exportSeed
  conv => lhs; dsimp only [engine, cleared, Phase.seed]
  cases d.vault.exportPhrase seed proof with
  | error fault =>
    dsimp only
    cases fault.isRetryable <;> rfl
  | ok phrase => rfl

theorem deleteSeed_engine (left : Leftover) (idle : s.phase = .idle) (name : String) (proof : Bytes) :
    ∃ left', (s.cleared.engine left).deleteSeed d name proof =
      .done ((s.cleared.deleteSeed d name proof).1.engine left')
        (s.cleared.deleteSeed d name proof).2 := by
  obtain ⟨settings, phase, digest, collector, notice, exported, attempts⟩ := s
  obtain rfl := idle
  refine ⟨{}, ?_⟩
  unfold Engine.deleteSeed Session.deleteSeed
  dsimp only
  generalize (do
    d.vault.authenticate proof
    d.vault.delete (← d.vault.seedByName name) : Except VaultError Vault) = deleted
  cases deleted <;> rfl

/-- The way out of a phase leaves nothing behind. -/
theorem leave_engine (left : Leftover) (accepted : s.tag.accepts a.kind = true)
    (leaving : a = .reject ∨ a = .reset ∨ a = .cancel) :
    (s.engine left).cleared.apply d random a =
      .done (s.cleared.toIdle.engine {}) d := by
  obtain ⟨settings, phase, digest, collector, notice, exported, attempts⟩ := s
  rcases leaving with rfl | rfl | rfl
  · cases phase <;> first | rfl | cases accepted
  · cases phase <;> first | rfl | cases accepted
  · cases phase <;> rfl

/-- A fault stays in view only where the session failed. -/
theorem cleared_engine (left : Leftover) (alive : s.tag ≠ .error) :
    (s.engine left).cleared = s.cleared.engine left := by
  obtain ⟨settings, phase, digest, collector, notice, exported, attempts⟩ := s
  cases phase with
  | failed => exact absurd rfl alive
  | _ => rfl

theorem apply_reset (s : Session) (d : Device) (random : FixedBytes 32) :
    s.apply d random .reset = some (s.toIdle, d) := by
  obtain ⟨settings, phase, digest, collector, notice, exported, attempts⟩ := s
  cases phase <;> rfl

/-- A failed session goes on only after a reset. -/
theorem eq_reset_of_accepts (accepted : StateTag.error.accepts a.kind = true) : a = .reset := by
  cases a with
  | reset => rfl
  | _ => cases accepted

/-- An accepted action does to an engine what it does to the session. -/
theorem apply_engine (left : Leftover) (accepted : s.tag.accepts a.kind = true)
    (step : Step s.cleared d random a t d') :
    ∃ left', (s.engine left).cleared.apply d random a =
      .done (t.engine left') d' := by
  by_cases alive : s.tag = .error
  · rw [alive] at accepted
    obtain rfl := eq_reset_of_accepts accepted
    have hleave : some (s.cleared.toIdle, d) = some (t, d') :=
      (apply_reset ..).symm.trans step.apply_eq
    obtain ⟨rfl, rfl⟩ := Prod.mk.inj (Option.some.inj hleave)
    exact ⟨{}, leave_engine left (by rw [alive]; exact accepted) (.inr (.inl rfl))⟩
  rw [cleared_engine left alive]
  cases step with
  | startScan idle =>
    have hstate : (s.cleared.engine left).state = .idle := congrArg Phase.state idle
    have hreset : (s.cleared.engine left).reset = s.cleared.toIdle.engine {} := by
      rw [← cleared_engine left alive]
      exact reset_engine rfl rfl rfl rfl
    exact ⟨{}, by simp only [Engine.apply, hstate, hreset]; rfl⟩
  | @scanFrame frame scanning =>
    have hstate : (s.cleared.engine left).state = .awaitingScan := congrArg Phase.state scanning
    obtain ⟨left', h⟩ := scanFrame_engine left scanning frame
    exact ⟨left', by simp only [Engine.apply, hstate, h]⟩
  | decode decoding =>
    have hstate : (s.cleared.engine left).state = .decoding := congrArg Phase.state decoding
    obtain ⟨left', h⟩ := decode_engine (d := d) left decoding
    exact ⟨left', by simp only [Engine.apply, hstate, h]⟩
  | approve reviewing =>
    have hstate : (s.cleared.engine left).state = .reviewing := congrArg Phase.state reviewing
    obtain ⟨left', h⟩ := approve_engine (s := s) (d := d) left reviewing
    exact ⟨left', by simp only [Engine.apply, hstate, h]⟩
  | @sign cards r proof password _ authenticating ended =>
    have hstate : (s.cleared.engine left).state = .authenticating := congrArg Phase.state authenticating
    obtain ⟨left', h⟩ := sign_engine (d := d) left authenticating proof password
    rw [ended] at h
    exact ⟨left', by simp only [Engine.apply, hstate, h]⟩
  | @newSeed words idle =>
    have hstate : (s.cleared.engine left).state = .idle := congrArg Phase.state idle
    obtain ⟨left', h⟩ := newSeed_engine (s := s) left idle random words
    exact ⟨left', by simp only [Engine.apply, hstate, h]⟩
  | recoverSeed idle =>
    have hstate : (s.cleared.engine left).state = .idle := congrArg Phase.state idle
    have hreset : (s.cleared.engine left).reset = s.cleared.toIdle.engine {} := by
      rw [← cleared_engine left alive]
      exact reset_engine rfl rfl rfl rfl
    exact ⟨{}, by simp only [Engine.apply, hstate, hreset]; rfl⟩
  | @nameSeed phrase name naming =>
    have hstate : (s.cleared.engine left).state = .namingSeed (Phase.origin phrase) := congrArg Phase.state naming
    obtain ⟨left', h⟩ := nameSeed_engine (d := d) left naming name
    exact ⟨left', by simp only [Engine.apply, hstate, h]⟩
  | @enterPhrase name phrase entering =>
    have hstate : (s.cleared.engine left).state = .enteringPhrase := congrArg Phase.state entering
    obtain ⟨left', h⟩ := enterPhrase_engine left entering phrase
    exact ⟨left', by simp only [Engine.apply, hstate, h]⟩
  | confirmSeed confirming ended =>
    have hstate : (s.cleared.engine left).state = .confirmingSeed _ := congrArg Phase.state confirming
    obtain ⟨left', h⟩ := confirmSeed_engine (s := s) (d := d) left confirming
    rw [ended] at h
    exact ⟨left', by simp only [Engine.apply, hstate, h]⟩
  | @startExport name idle =>
    have hstate : (s.cleared.engine left).state = .idle := congrArg Phase.state idle
    obtain ⟨left', h⟩ := startExport_engine (s := s) (d := d) left idle name
    exact ⟨left', by simp only [Engine.apply, hstate, h]⟩
  | @exportSeed seed proof _ exporting =>
    have hstate : (s.cleared.engine left).state = .exporting := congrArg Phase.state exporting
    obtain ⟨left', h⟩ := exportSeed_engine (s := s) (d := d) left exporting proof
    exact ⟨left', by simp only [Engine.apply, hstate, h]⟩
  | @deleteSeed name proof idle =>
    have hstate : (s.cleared.engine left).state = .idle := congrArg Phase.state idle
    obtain ⟨left', h⟩ := deleteSeed_engine (s := s) (d := d) left idle name proof
    exact ⟨left', by simp only [Engine.apply, hstate, h]⟩
  | leave leaving =>
    rw [← cleared_engine left alive]
    exact ⟨{}, leave_engine left accepted leaving⟩

theorem tag_engine (s : Session) (left : Leftover) : (s.engine left).state.tag = s.tag :=
  s.phase.tag_state

/-- Where the session stops the program, so does the engine. -/
theorem stopped_engine (left : Leftover) (stopped : s.cleared.apply d random a = none) :
    (s.engine left).cleared.apply d random a = .overflow (s.engine left).cleared d := by
  have alive : s.tag ≠ .error := by
    rw [tag]
    rcases stopped_cases stopped with ⟨cards, r, proof, password, phase, -⟩ |
      ⟨origin, name, phrase, phase, -⟩ <;>
    · rw [show s.phase = _ from phase]
      nofun
  rw [cleared_engine left alive]
  rcases stopped_cases stopped with ⟨cards, r, proof, password, phase, rfl, hsign⟩ |
    ⟨origin, name, phrase, phase, rfl, hconfirm⟩
  · have hstate : (s.cleared.engine left).state = .authenticating := congrArg Phase.state phase
    obtain ⟨left', h⟩ := sign_engine (d := d) left phase proof password
    rw [hsign] at h
    simp only [Engine.apply, hstate, h]
  · have hstate : (s.cleared.engine left).state = .confirmingSeed _ := congrArg Phase.state phase
    obtain ⟨left', h⟩ := confirmSeed_engine (s := s) (d := d) left phase
    rw [hconfirm] at h
    simp only [Engine.apply, hstate, h]

/-- An accepted action leads the engine of a session to that of the next, unless both stop the
program. -/
theorem update_engine (left : Leftover) (d : Device) (random : FixedBytes 32)
    (accepted : s.tag.accepts a.kind = true) :
    (∃ s' d' left', s.update d random a = .ok (s', d') ∧ s'.digest = s.digest.fold a.hash ∧
        (s.engine left).update d random a = (.ok s'.phase.state, s'.engine left', d')) ∨
      s.PastWords d ∧ s.update d random a = .error .overflow ∧
        (s.engine left).update d random a = (.error .overflow, (s.engine left).cleared, d) := by
  rcases update_of_accepts d random accepted with ⟨t, d', step, hupdate⟩ | ⟨stopped, hupdate⟩
  · have hdigest := step.change.digest_eq
    obtain ⟨left', h⟩ := apply_engine left accepted step
    refine .inl ⟨_, _, left', hupdate, rfl, ?_⟩
    unfold Engine.update
    rw [tag_engine, if_pos accepted, h, ← show _ = s.digest from hdigest]
    rfl
  · refine .inr ⟨pastWords_of_apply (s := s.cleared) stopped, hupdate, ?_⟩
    rw [Engine.update, tag_engine, if_pos accepted, stopped_engine left stopped]
    rfl

/-- A refused action leaves both as they are. -/
theorem refused_engine (left : Leftover) (d : Device) (random : FixedBytes 32)
    (refused : s.tag.accepts a.kind = false) :
    s.update d random a = .error (.refused (.illegalAction s.tag a.kind)) ∧
      (s.engine left).update d random a =
        (.error (.refused (.illegalAction s.tag a.kind)), s.engine left, d) := by
  unfold update Engine.update
  rw [tag_engine, refused]
  exact ⟨rfl, rfl⟩

/-- An engine answers every action as its session does. -/
theorem follows_engine (s : Session) (left : Leftover) : (s.engine left).Follows s := by
  intro d random a
  cases haccepted : s.tag.accepts a.kind with
  | true =>
    rcases s.update_engine left d random haccepted with
      ⟨s', d', left', hupdate, -, h⟩ | ⟨-, hupdate, h⟩
    · rw [hupdate]
      exact ⟨left', h⟩
    · rw [hupdate]
      exact h
  | false =>
    obtain ⟨hupdate, h⟩ := s.refused_engine left d random haccepted
    rw [hupdate]
    exact h

end Session

end ColdSigner
