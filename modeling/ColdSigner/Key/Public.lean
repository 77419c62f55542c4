import ColdSigner.Bytes.Hex
import ColdSigner.Key.Address
import ColdSigner.Wire.Scheme

/-! Public keys and signatures, each with its scheme. -/
namespace ColdSigner

inductive PublicKey where
  | ed25519 (key : FixedBytes 32)
  | sr25519 (key : FixedBytes 32)
  /-- A compressed point. -/
  | ecdsa (key : FixedBytes 33)
  deriving DecidableEq

namespace PublicKey

def scheme : PublicKey → Scheme
  | .ed25519 _ => .ed25519
  | .sr25519 _ => .sr25519
  | .ecdsa _ => .ecdsa

def bytes : PublicKey → Bytes
  | .ed25519 k | .sr25519 k => k.bytes
  | .ecdsa k => k.bytes

/-- The key of these bytes, where their number fits the scheme. -/
def ofBytes? (s : Scheme) (b : Bytes) : Option PublicKey :=
  match s with
  | .ed25519 => (FixedBytes.ofBytes? 32 b).map .ed25519
  | .sr25519 => (FixedBytes.ofBytes? 32 b).map .sr25519
  | .ecdsa => (FixedBytes.ofBytes? 33 b).map .ecdsa
  | .unsigned => none

/-- The scheme and the digits of the key. -/
def text (k : PublicKey) : String := k.scheme.name ++ ":" ++ Hex.show0x k.bytes

def address (k : PublicKey) (format : UInt16) : String := Address.encode format k.bytes

/-- Keys are listed by scheme and then by their bytes. -/
instance : LT PublicKey :=
  ⟨fun a b => a.scheme.toByte < b.scheme.toByte ∨ a.scheme = b.scheme ∧ a.bytes < b.bytes⟩

instance : DecidableLT PublicKey := fun a b =>
  inferInstanceAs (Decidable (a.scheme.toByte < b.scheme.toByte ∨
    a.scheme = b.scheme ∧ a.bytes < b.bytes))

theorem length_bytes (k : PublicKey) : k.bytes.length = k.scheme.publicKeyLength := by
  cases k <;> exact FixedBytes.length_eq _

end PublicKey

inductive Signature where
  | ed25519 (signature : FixedBytes 64)
  | sr25519 (signature : FixedBytes 64)
  /-- Two scalars and a byte that tells which of the possible keys signed. -/
  | ecdsa (signature : FixedBytes 65)
  deriving DecidableEq

namespace Signature

def scheme : Signature → Scheme
  | .ed25519 _ => .ed25519
  | .sr25519 _ => .sr25519
  | .ecdsa _ => .ecdsa

def bytes : Signature → Bytes
  | .ed25519 s | .sr25519 s => s.bytes
  | .ecdsa s => s.bytes

/-- The signature of these bytes, where their number fits the scheme. -/
def ofBytes? (s : Scheme) (b : Bytes) : Option Signature :=
  match s with
  | .ed25519 => (FixedBytes.ofBytes? 64 b).map .ed25519
  | .sr25519 => (FixedBytes.ofBytes? 64 b).map .sr25519
  | .ecdsa => (FixedBytes.ofBytes? 65 b).map .ecdsa
  | .unsigned => none

def text (s : Signature) : String := s.scheme.name ++ ":" ++ Hex.show0x s.bytes

theorem length_bytes (s : Signature) : s.bytes.length = s.scheme.signatureLength := by
  cases s <;> exact FixedBytes.length_eq _

end Signature

end ColdSigner
