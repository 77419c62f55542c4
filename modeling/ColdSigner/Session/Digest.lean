import ColdSigner.Hash.Sha512
import ColdSigner.Wire.Compact

/-! The digest of a session.

Every accepted action is hashed and folded into the digest, so that two front
ends that drive one session can tell whether they still agree. -/
namespace ColdSigner

abbrev ActionHash := FixedBytes 32

abbrev SessionDigest := FixedBytes 32

namespace ActionHash

/-- What is hashed for an action: its label, and its data after their length. -/
def preimage (label : String) (data : Bytes) : Bytes :=
  Bytes.ofText label ++ Bytes.ofNat 4 data.length ++ data

def ofData (label : String) (data : Bytes) : ActionHash :=
  Sha512.hash256 (preimage label data)

end ActionHash

namespace SessionDigest

/-- The digest of a session without actions. -/
def empty : SessionDigest := .fit 32 []

def fold (d : SessionDigest) (action : ActionHash) : SessionDigest :=
  Sha512.hash256 (d.bytes ++ action.bytes)

def decode (b : Bytes) : Except Wire.Error (SessionDigest × Bytes) := do
  let (digest, rest) ← Wire.Compact.split 32 b
  return (.fit 32 digest, rest)

end SessionDigest

end ColdSigner
