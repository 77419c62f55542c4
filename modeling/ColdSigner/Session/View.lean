import ColdSigner.Session.Update

/-! What a front end shows of a session. -/
namespace ColdSigner

/-- What a session waits for. -/
inductive InputKind where
  | frames
  | approval
  | authentication
  | password
  | seedName
  | seedPhrase
  | confirmation
  deriving DecidableEq, Repr

def InputKind.name : InputKind → String
  | .frames => "Frames"
  | .approval => "Approval"
  | .authentication => "Authentication"
  | .password => "Password"
  | .seedName => "SeedName"
  | .seedPhrase => "SeedPhrase"
  | .confirmation => "Confirmation"

structure SessionView where
  state : StateTag
  digest : SessionDigest
  cards : Option (List Card)
  error : Option SessionFault
  awaiting : Option InputKind
  progress : Wire.Progress
  frames : List Bytes
  secret : Option String
  attempts : Nat

namespace Session

/-- Whether the reviewed key was derived with a password. -/
def needsPassword (d : Device) (r : Review.SigningRequest) : Bool :=
  (d.vault.lookupOn r.signer r.network).any (·.hasPassword)

def awaiting (s : Session) (d : Device) : Option InputKind :=
  match s.phase with
  | .awaitingScan => some .frames
  | .reviewing _ => some .approval
  | .authenticating _ r => some (if needsPassword d r then .password else .authentication)
  | .exporting _ => some .authentication
  | .namingSeed _ => some .seedName
  | .enteringPhrase _ => some .seedPhrase
  | .confirmingSeed .. => some .confirmation
  | _ => none

/-- The fault to show: that of a failed session, or that of the last action. -/
def fault? (s : Session) : Option SessionFault :=
  match s.phase with
  | .failed fault _ => some fault
  | _ => s.notice

/-- The phrase to show: a new one that is to be confirmed, or an exported one. -/
def secret? (s : Session) : Option String :=
  match s.phase with
  | .confirmingSeed .generated _ phrase => some phrase
  | _ => s.exported

def view (s : Session) (d : Device) : SessionView where
  state := s.tag
  digest := s.digest
  cards := s.review?.map (·.cards)
  error := s.fault?
  awaiting := s.awaiting d
  progress := s.collector.progress
  frames := s.phase.frames
  secret := s.secret?
  attempts := s.attempts

end Session

end ColdSigner
