import ColdSigner.Session.Digest
import ColdSigner.Session.Tag

/-! What a front end may ask of a session. -/
namespace ColdSigner

inductive Action where
  | startScan
  | scanFrame (frame : Bytes)
  | decode
  | approve
  | reject
  | authenticate (proof : Bytes) (password : Option String)
  | reset
  | cancel
  /-- A new seed with a phrase of that many words. -/
  | newSeed (words : Nat)
  | recoverSeed
  | setSeedName (name : String)
  | setSeedPhrase (phrase : String)
  | confirmSeed
  | exportSeed (name : String)
  | deleteSeed (name : String) (proof : Bytes)
  deriving DecidableEq

namespace Action

def kind : Action → ActionKind
  | .startScan => .startScan
  | .scanFrame _ => .scanFrame
  | .decode => .decode
  | .approve => .approve
  | .reject => .reject
  | .authenticate .. => .authenticate
  | .reset => .reset
  | .cancel => .cancel
  | .newSeed _ => .newSeed
  | .recoverSeed => .recoverSeed
  | .setSeedName _ => .setSeedName
  | .setSeedPhrase _ => .setSeedPhrase
  | .confirmSeed => .confirmSeed
  | .exportSeed _ => .exportSeed
  | .deleteSeed .. => .deleteSeed

/-- The name of a kind of action where it is hashed. -/
def label : ActionKind → String
  | .startScan => "start_scan"
  | .scanFrame => "scan_frame"
  | .decode => "decode"
  | .approve => "approve"
  | .reject => "reject"
  | .authenticate => "authenticate"
  | .reset => "reset"
  | .cancel => "cancel"
  | .newSeed => "new_seed"
  | .recoverSeed => "recover_seed"
  | .setSeedName => "seed_name"
  | .setSeedPhrase => "seed_phrase"
  | .confirmSeed => "confirm_seed"
  | .exportSeed => "export_seed"
  | .deleteSeed => "delete_seed"

/-- What is hashed of an action besides its label. Proofs, passwords and phrases
are secret and leave no trace. -/
def publicData : Action → Bytes
  | .scanFrame frame => frame
  | .newSeed words => Bytes.ofNat 4 words
  | .setSeedName name | .exportSeed name | .deleteSeed name _ => Bytes.ofText name
  | _ => []

def hash (a : Action) : ActionHash := .ofData (label a.kind) a.publicData

end Action

end ColdSigner
