import ColdSigner.Wire.Compact
import ColdSigner.Wire.Scheme

/-! The answer to a signing request: the scheme byte and the signature. -/
namespace ColdSigner.Wire

structure Response where
  scheme : Scheme
  signature : Bytes
  deriving DecidableEq, Repr

namespace Response

def encode (r : Response) : Bytes := r.scheme.toByte :: r.signature

/-- The scheme tells how long the signature is; unsigned answers do not exist. -/
def decode (b : Bytes) : Except Error (Response × Bytes) := do
  let (scheme, rest) ← Scheme.decode b
  if scheme.signatureLength = 0 then .error .invalidEncoding
  else
    let (signature, rest) ← Compact.split scheme.signatureLength rest
    return (⟨scheme, signature⟩, rest)

end Response

/-- An encoding placed into `room` bytes. -/
def place (room : Nat) (encoded : Bytes) : Except Error Bytes :=
  if room < encoded.length then .error .invalidLength else .ok encoded

end ColdSigner.Wire
