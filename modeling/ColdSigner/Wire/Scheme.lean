import ColdSigner.Bytes
import ColdSigner.Wire.Error

/-! Signature schemes. -/
namespace ColdSigner

inductive Scheme where
  | ed25519
  | sr25519
  | ecdsa
  /-- For payloads that are not signed. -/
  | unsigned
  deriving DecidableEq, Repr, Inhabited

namespace Scheme

def all : List Scheme := [.ed25519, .sr25519, .ecdsa, .unsigned]

def name : Scheme → String
  | .ed25519 => "Ed25519"
  | .sr25519 => "Sr25519"
  | .ecdsa => "Ecdsa"
  | .unsigned => "Unsigned"

def publicKeyLength : Scheme → Nat
  | .ed25519 | .sr25519 => 32
  | .ecdsa => 33
  | .unsigned => 0

def signatureLength : Scheme → Nat
  | .ed25519 | .sr25519 => 64
  | .ecdsa => 65
  | .unsigned => 0

def toByte : Scheme → UInt8
  | .ed25519 => 0x00
  | .sr25519 => 0x01
  | .ecdsa => 0x02
  | .unsigned => 0xFF

def ofByte? (b : UInt8) : Option Scheme := all.find? (·.toByte == b)

def decode : Bytes → Except Wire.Error (Scheme × Bytes)
  | [] => .error .invalidLength
  | b :: rest =>
    match ofByte? b with
    | some s => .ok (s, rest)
    | none => .error .invalidPrelude

theorem ofByte?_toByte (s : Scheme) : ofByte? s.toByte = some s := by
  cases s <;> rfl

theorem toByte_of_ofByte? {b : UInt8} {s : Scheme} (h : ofByte? b = some s) : s.toByte = b := by
  simpa using List.find?_some h

end Scheme

end ColdSigner
