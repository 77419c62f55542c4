/-! What can be wrong with bytes that crossed the gap. -/
namespace ColdSigner.Wire

inductive Error where
  /-- Fewer bytes than the object takes. -/
  | invalidLength
  | invalidEncoding
  /-- A compact integer that is too large or not in its shortest form. -/
  | invalidCompact
  /-- A frame that is malformed or at odds with the frames before it. -/
  | invalidFrame
  | incompleteSequence
  | checksumMismatch
  | payloadTooLarge
  | invalidCapacity
  | invalidPrelude
  /-- A sum of lengths that is no word. It stops the program. -/
  | overflow
  deriving DecidableEq, Repr

def Error.message : Error → String
  | .invalidLength => "invalid length"
  | .invalidEncoding => "invalid encoding"
  | .invalidCompact => "invalid compact integer"
  | .invalidFrame => "invalid frame"
  | .incompleteSequence => "incomplete frame sequence"
  | .checksumMismatch => "checksum mismatch"
  | .payloadTooLarge => "payload too large"
  | .invalidCapacity => "frame capacity too small"
  | .invalidPrelude => "unrecognised payload prelude"
  | .overflow => "attempt to add with overflow"

end ColdSigner.Wire
