import ColdSigner.Device
import ColdSigner.Session.Basic
import ColdSigner.Wire.Response

/-! How actions move a session.

An action that the phase does not accept is refused and changes nothing. Any other
action is folded into the digest, whether it succeeds or not. Where an action works out
a sum that is no word it stops the program, and there is no session after it. -/
namespace ColdSigner

/-- Why a session does not do what it is asked. -/
inductive Refusal where
  | illegalAction (state : StateTag) (action : ActionKind)
  /-- Words are guessed only while a phrase is entered. -/
  | invalidState
  deriving DecidableEq, Repr

def Refusal.message : Refusal → String
  | .illegalAction t k => "illegal action " ++ k.name ++ " in state " ++ t.name
  | .invalidState => "invalid engine state"

/-- Why there is no session after an action. -/
inductive Stop where
  | refused (refusal : Refusal)
  /-- A sum was no word, and the program stopped. -/
  | overflow
  deriving DecidableEq

namespace Session

/-! ### Signing -/

/-- A frame is collected; the last one completes the payload. -/
def scanFrame (s : Session) (frame : Bytes) : Session :=
  match s.collector.push frame with
  | .error e => s.fail (.transport e)
  | .ok collector =>
    let s := { s with collector }
    if collector.isComplete then
      match collector.finish with
      | .ok payload => { s with phase := .decoding payload }
      | .error e => s.fail (.transport e)
    else s

/-- Where a request names its signer. -/
def signerOffset : Nat := Prelude.length

/-- The payload is shown, unless it asks for a signature that the vault cannot give. -/
def decode (s : Session) (d : Device) (payload : Bytes) : Session :=
  match Review.decodeRequest payload d.registry.source s.settings.limits with
  | .error f => s.fail (.decode f)
  | .ok review =>
    match review.request with
    | .sign r =>
      if (d.vault.lookupOn r.signer r.network).isSome then { s with phase := .reviewing review }
      else s.fail (.decode ⟨.unknownSigner, signerOffset, none⟩)
    | .loadMetadata _ => { s with phase := .reviewing review }

def approve (s : Session) (d : Device) (review : Review) : Session × Device :=
  match review.request with
  | .sign r => ({ s with phase := .authenticating review.cards r }, d)
  | .loadMetadata e =>
    match d.registry.insert e with
    | .ok (_, registry) => (s.toIdle, { d with registry })
    | .error e => (s.fail (.registry e), d)

/-- The answer to a request, as frames. -/
def answerFrames (s : Session) (signature : Signature) : Except Wire.Error (List Bytes) :=
  Wire.Frame.encode (Wire.Response.encode ⟨signature.scheme, signature.bytes⟩)
    s.settings.frameCapacity

def sign (s : Session) (d : Device) (cards : List Card) (r : Review.SigningRequest) (proof : Bytes)
    (password : Option String) : Option Session :=
  match d.vault.lookupOn r.signer r.network with
  | none => some (s.fail (.vault .unknownAddress))
  | some details =>
    match d.vault.sign (details.derivedKey r.signer) password proof r.payload with
    | .error e => some (if e.isRetryable then s.retry e else s.fail (.vault e))
    | .ok signature =>
      match s.answerFrames signature with
      | .ok frames => some { s with phase := .signed cards r signature frames }
      | .error .overflow => none
      | .error e => some (s.fail (.transport e))

/-! ### Seeds -/

def newSeed (s : Session) (random : FixedBytes 32) (words : Nat) : Session :=
  match Vault.newPhrase random words with
  | .ok phrase => { s.toIdle with phase := .namingSeed (some phrase) }
  | .error e => s.refuse e

/-- A name that is neither blank nor taken. -/
def nameSeed (s : Session) (d : Device) (phrase : Option String) (name : String) : Session :=
  let name := Text.trim name
  if name.isEmpty then s.refuse .invalidName
  else if (d.vault.seedByName name).toBool then s.refuse (.duplicateName name)
  else
    match phrase with
    | some p => { s with phase := .confirmingSeed .generated name p }
    | none => { s with phase := .enteringPhrase name }

def enterPhrase (s : Session) (name phrase : String) : Session :=
  match Phrase.parseExact (Text.trimChars phrase.toList) with
  | .ok _ => { s with phase := .confirmingSeed .recovered name phrase }
  | .error _ => s.refuse .invalidPhrase

/-- The seed is kept with its default addresses, or not at all. -/
def confirmSeed (s : Session) (d : Device) (name phrase : String) : Option (Session × Device) :=
  match d.vault.importPhrase name phrase with
  | .error .overflow => none
  | .error e => some (s.fail (.vault e), d)
  | .ok (seed, vault) =>
    match vault.populateDefaults seed d.registry.networks s.settings.defaultDerivations with
    | (vault, .ok _) => some (s.toIdle, { d with vault })
    | (vault, .error e) =>
      some (s.fail (.vault e), { d with vault := (vault.delete seed).toOption.getD vault })

def startExport (s : Session) (d : Device) (name : String) : Session :=
  match d.vault.seedByName name with
  | .ok seed => { s.toIdle with phase := .exporting seed }
  | .error e => s.refuse e

/-- The phrase of a seed is shown once. -/
def exportSeed (s : Session) (d : Device) (seed : SeedHandle) (proof : Bytes) : Session :=
  match d.vault.exportPhrase seed proof with
  | .ok phrase => { s.toIdle with exported := some phrase }
  | .error e => if e.isRetryable then s.retry e else s.fail (.vault e)

def deleteSeed (s : Session) (d : Device) (name : String) (proof : Bytes) : Session × Device :=
  let deleted := do
    d.vault.authenticate proof
    d.vault.delete (← d.vault.seedByName name)
  match deleted with
  | .ok vault => (s.toIdle, { d with vault })
  | .error e => (s.refuse e, d)

/-! ### Actions -/

/-- What an accepted action does; `random` is the entropy of a new seed. -/
def apply (s : Session) (d : Device) (random : FixedBytes 32) (a : Action) :
    Option (Session × Device) :=
  match s.phase, a with
  | .idle, .startScan => some ({ s.toIdle with phase := .awaitingScan }, d)
  | .idle, .newSeed words => some (s.newSeed random words, d)
  | .idle, .recoverSeed => some ({ s.toIdle with phase := .namingSeed none }, d)
  | .idle, .exportSeed name => some (s.startExport d name, d)
  | .idle, .deleteSeed name proof => some (s.deleteSeed d name proof)
  | .awaitingScan, .scanFrame frame => some (s.scanFrame frame, d)
  | .decoding payload, .decode => some (s.decode d payload, d)
  | .reviewing review, .approve => some (s.approve d review)
  | .authenticating cards r, .authenticate proof password =>
    (s.sign d cards r proof password).map fun next => (next, d)
  | .namingSeed phrase, .setSeedName name => some (s.nameSeed d phrase name, d)
  | .enteringPhrase name, .setSeedPhrase phrase => some (s.enterPhrase name phrase, d)
  | .confirmingSeed _ name phrase, .confirmSeed => s.confirmSeed d name phrase
  | .exporting seed, .authenticate proof _ => some (s.exportSeed d seed proof, d)
  | _, .reject | _, .reset | _, .cancel => some (s.toIdle, d)
  | _, _ => some (s, d)

/-- One action of a session on a device. -/
def update (s : Session) (d : Device) (random : FixedBytes 32) (a : Action) :
    Except Stop (Session × Device) :=
  if s.tag.accepts a.kind then
    match { s with notice := none, exported := none }.apply d random a with
    | some (next, d) => .ok ({ next with digest := s.digest.fold a.hash }, d)
    | none => .error .overflow
  else .error (.refused (.illegalAction s.tag a.kind))

/-- Words that complete what was typed of one. -/
def guess (s : Session) (typed : String) : Except Refusal (List String) :=
  match s.phase with
  | .enteringPhrase _ => .ok (Phrase.guess typed)
  | _ => .error .invalidState

end Session

end ColdSigner
