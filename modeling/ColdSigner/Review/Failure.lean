import ColdSigner.Registry
import ColdSigner.Wire.Cursor

/-! Why a payload cannot be shown. -/
namespace ColdSigner

inductive DecodeReason where
  | unexpectedEnd
  /-- More elements than the bytes that are left can hold. -/
  | lengthOverrun (claimed remaining : Nat)
  | invalidCompact
  | invalidBool (byte : UInt8)
  | invalidChar (value : Nat)
  | invalidUtf8
  | tooDeep
  | trailingBytes (count : Nat)
  | invalidPrelude
  | unknownType
  | versionMismatch (requested : UInt32) (available : List UInt32)
  | unknownNetwork
  | encryptionMismatch (expected found : Scheme)
  | unknownSigner
  | invalidEra
  | genesisMismatch
  | malformedMetadata (text : String)
  deriving DecidableEq, Repr

/-- The digits after `0x`, at least `width` of them. -/
def hexNumber (width n : Nat) : String :=
  let digits := Nat.toDigits 16 n
  String.ofList ('0' :: 'x' :: (List.replicate (width - digits.length) '0' ++ digits))

def DecodeReason.message : DecodeReason → String
  | .unexpectedEnd => "unexpected end of payload"
  | .lengthOverrun claimed remaining =>
    "length " ++ toString claimed ++ " overruns remaining " ++ toString remaining ++ " bytes"
  | .invalidCompact => "invalid compact integer"
  | .invalidBool b => "invalid bool " ++ hexNumber 2 b.toNat
  | .invalidChar v => "invalid char " ++ hexNumber 1 v
  | .invalidUtf8 => "invalid utf-8 string"
  | .tooDeep => "type nesting too deep"
  | .trailingBytes n => toString n ++ " unexpected trailing bytes"
  | .invalidPrelude => "invalid request prelude"
  | .unknownType => "unknown type"
  | .versionMismatch requested available =>
    "no metadata for version " ++ toString requested.toNat
      ++ " (available: " ++ versionList available ++ ")"
  | .unknownNetwork => "unknown network"
  | .encryptionMismatch expected found =>
    "request uses " ++ found.name ++ ", network uses " ++ expected.name
  | .unknownSigner => "unknown signer"
  | .invalidEra => "invalid era"
  | .genesisMismatch => "genesis hash does not match network"
  | .malformedMetadata text => "malformed metadata: " ++ text

structure DecodeFailure where
  reason : DecodeReason
  /-- Where it was noticed. -/
  offset : Nat
  /-- The innermost type that was being read. -/
  type : Option TypeId := none
  deriving DecidableEq, Repr

namespace DecodeFailure

/-- The failure inside a type, unless a type further in is known. -/
def inType (f : DecodeFailure) (id : TypeId) : DecodeFailure :=
  { f with type := some (f.type.getD id) }

/-- The failure of a reading at `offset`, where the registry has no answer. -/
def ofRegistry (offset : Nat) : RegistryError → DecodeFailure
  | .malformed text => ⟨.malformedMetadata text, offset, none⟩
  | .unknownType id => ⟨.unknownType, offset, some id⟩
  | .unknownNetwork _ | .unavailable => ⟨.unknownNetwork, offset, none⟩
  | .versionMismatch _ requested available => ⟨.versionMismatch requested available, offset, none⟩
  | .alreadyLoaded n v => ⟨.malformedMetadata (RegistryError.alreadyLoaded n v).message, offset, none⟩

def message (f : DecodeFailure) : String :=
  f.reason.message ++ " at byte " ++ toString f.offset
    ++ match f.type with
      | some id => " (type " ++ toString id.toNat ++ ")"
      | none => ""

end DecodeFailure

namespace Cursor

/-! ### Reading a payload -/

def fail {α : Type} (c : Cursor) (reason : DecodeReason) : Except DecodeFailure α :=
  .error ⟨reason, c.offset, none⟩

def take (c : Cursor) (n : Nat) : Except DecodeFailure (Bytes × Cursor) :=
  match c.take? n with
  | some r => .ok r
  | none => c.fail .unexpectedEnd

/-- A little-endian number of `n` bytes. -/
def number (c : Cursor) (n : Nat) : Except DecodeFailure (Nat × Cursor) := do
  let (b, c) ← c.take n
  return (b.toNat, c)

def integer (c : Cursor) : Except DecodeFailure (Nat × Cursor) :=
  match c.compact with
  | .ok r => .ok r
  | .error .invalidCompact => c.fail .invalidCompact
  | .error _ => c.fail .unexpectedEnd

/-- A number of elements of `minSize` bytes at least, which must fit into what is
left; elements that may be empty are limited to `limit`. -/
def count (c : Cursor) (minSize limit : Nat) : Except DecodeFailure (Nat × Cursor) := do
  let (claimed, next) ← c.integer
  let overruns := if minSize = 0 then limit < claimed else next.remaining < claimed * minSize
  if overruns then c.fail (.lengthOverrun claimed next.remaining) else return (claimed, next)

end Cursor

end ColdSigner
