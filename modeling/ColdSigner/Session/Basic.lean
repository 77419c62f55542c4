import ColdSigner.Review.Request
import ColdSigner.Session.Action
import ColdSigner.Vault.AddressBook
import ColdSigner.Wire.Collector

/-! Sessions.

A session is in one phase at a time, and a phase holds the data it needs: there is
a signature only where something was signed, and a phrase only in the two flows
that end with a seed. What is shown until the next action, and what is counted
until the session is idle again, stands beside the phase. -/
namespace ColdSigner

/-- Why a session failed, or why an action had no effect. -/
inductive SessionFault where
  | transport (error : Wire.Error)
  | decode (failure : DecodeFailure)
  | vault (error : VaultError)
  | registry (error : RegistryError)
  deriving DecidableEq

def SessionFault.message : SessionFault → String
  | .transport e => "transport error: " ++ e.message
  | .decode f => "decode failed: " ++ f.message
  | .vault e => e.message
  | .registry e => "metadata rejected: " ++ e.message

structure SessionSettings where
  /-- The most bytes in a frame that is shown. -/
  frameCapacity : Nat := Wire.defaultCapacity
  limits : Review.Limits := {}
  /-- The paths of the addresses that a new seed gets on each network. -/
  defaultDerivations : List String := ["", "//" ++ Vault.networkMark]
  deriving DecidableEq, Repr

/-- Where the phrase of a seed comes from. -/
inductive SeedOrigin where
  | generated
  | recovered
  deriving DecidableEq, Repr

inductive Phase where
  | idle
  | awaitingScan
  | decoding (payload : Bytes)
  | reviewing (review : Review)
  /-- The request was approved. -/
  | authenticating (cards : List Card) (request : Review.SigningRequest)
  | signed (cards : List Card) (request : Review.SigningRequest) (signature : Signature)
      (frames : List Bytes)
  /-- The seed has a new phrase, or none yet if it is to be recovered. -/
  | namingSeed (phrase : Option String)
  | enteringPhrase (name : String)
  | confirmingSeed (origin : SeedOrigin) (name phrase : String)
  | exporting (seed : SeedHandle)
  /-- What was under review stays in view. -/
  | failed (fault : SessionFault) (review : Option Review)

namespace Phase

def tag : Phase → StateTag
  | .idle => .idle
  | .awaitingScan => .awaitingScan
  | .decoding _ => .decoding
  | .reviewing _ => .reviewingTransaction
  | .authenticating .. => .awaitingAuthentication
  | .signed .. => .signed
  | .namingSeed _ => .seedNaming
  | .enteringPhrase _ => .seedPhraseEntry
  | .confirmingSeed .. => .reviewingSeedFlow
  | .exporting _ => .awaitingExportAuth
  | .failed .. => .error

/-- The request under review, with its cards. -/
def review? : Phase → Option Review
  | .reviewing r => some r
  | .authenticating cards request | .signed cards request .. => some ⟨cards, .sign request⟩
  | .failed _ r => r
  | _ => none

def signature? : Phase → Option Signature
  | .signed _ _ s _ => some s
  | _ => none

/-- The frames of the answer. -/
def frames : Phase → List Bytes
  | .signed _ _ _ frames => frames
  | _ => []

end Phase

structure Session where
  settings : SessionSettings := {}
  phase : Phase := .idle
  digest : SessionDigest := .empty
  collector : Wire.Collector := {}
  /-- Why the last action had no effect. -/
  notice : Option SessionFault := none
  /-- The phrase that the last action exported. -/
  exported : Option String := none
  /-- Failed authentications since the session was idle. -/
  attempts : Nat := 0

namespace Session

def tag (s : Session) : StateTag := s.phase.tag

def review? (s : Session) : Option Review := s.phase.review?

def signature? (s : Session) : Option Signature := s.phase.signature?

/-- The same session without anything under way. -/
def toIdle (s : Session) : Session := { settings := s.settings, digest := s.digest }

/-- The same session after a fault, which only a reset leaves. -/
def fail (s : Session) (fault : SessionFault) : Session :=
  { s with phase := .failed fault s.review? }

def maxAttempts : Nat := UInt32.size - 1

/-- The same session after a failed authentication. -/
def retry (s : Session) (e : VaultError) : Session :=
  { s with attempts := min (s.attempts + 1) maxAttempts, notice := some (.vault e) }

/-- The same session, to which an action did nothing. -/
def refuse (s : Session) (e : VaultError) : Session := { s with notice := some (.vault e) }

end Session

end ColdSigner
