import ColdSigner.Hash.Sha512
import ColdSigner.Key.Secret
import ColdSigner.Metadata.Basic
import ColdSigner.Table

/-! What a vault holds: seeds, and an address book of the keys derived from them.

Secret keys are never stored. A derived key names its seed and its path, and is
derived again whenever it is used, so that it ends with its seed. -/
namespace ColdSigner

inductive VaultError where
  | duplicateName (name : String)
  | invalidName
  | unknownSeed
  | authRequired
  | passwordRequired
  | wrongPassword
  | invalidPhrase
  | unsupportedWordCount (count : Nat)
  /-- The key is in the address book already, for another seed or path. -/
  | keyCollision (seedName : String)
  | unknownAddress
  /-- A path or entropy that gives no key. -/
  | key (fault : KeyError)
  /-- There are no more handles. It stops the program. -/
  | overflow
  deriving DecidableEq, Repr

namespace VaultError

def message : VaultError → String
  | .duplicateName n => "seed name '" ++ n ++ "' already in use"
  | .invalidName => "invalid seed name"
  | .unknownSeed => "unknown seed"
  | .authRequired => "authentication required"
  | .passwordRequired => "password required"
  | .wrongPassword => "incorrect password"
  | .invalidPhrase => "invalid seed phrase"
  | .unsupportedWordCount n => "unsupported word count (" ++ toString n ++ ")"
  | .keyCollision n => "key already derived from seed '" ++ n ++ "' with a different path"
  | .unknownAddress => "unknown address"
  | .key f => f.message
  | .overflow => "attempt to add with overflow"

/-- Whether the user may try again with other input. -/
def isRetryable : VaultError → Bool
  | .authRequired | .passwordRequired | .wrongPassword => true
  | _ => false

end VaultError

/-- Names a seed of a vault, and after it is deleted no other. -/
structure SeedHandle where
  index : UInt32
  deriving DecidableEq, Repr

instance : LT SeedHandle := ⟨fun a b => a.index < b.index⟩

instance : DecidableLT SeedHandle := fun a b => inferInstanceAs (Decidable (a.index < b.index))

structure Seed where
  name : String
  entropy : Bytes
  deriving DecidableEq

/-- A key as it can be derived again. -/
structure DerivedKey where
  seed : SeedHandle
  /-- The path without its password. -/
  path : String
  hasPassword : Bool
  key : PublicKey
  deriving DecidableEq

/-- What the address book says about a key. -/
structure AddressDetails where
  seed : SeedHandle
  seedName : String
  path : String
  hasPassword : Bool
  /-- The networks on which the key is enabled, in the order in which they were added. -/
  networks : List NetworkId
  deriving DecidableEq

def AddressDetails.derivedKey (d : AddressDetails) (key : PublicKey) : DerivedKey :=
  ⟨d.seed, d.path, d.hasPassword, key⟩

/-- Tells whether a proof shows that the user is present. -/
structure Authenticator where
  verifies : Bytes → Bool

/-- The proof is a pin, of which the hash is kept. -/
def Authenticator.pin (pin : String) : Authenticator :=
  let expected := Sha512.hash256 (Bytes.ofText pin)
  ⟨fun proof => Sha512.hash256 proof = expected⟩

structure Vault where
  authenticator : Authenticator
  /-- The handle of the next seed. -/
  next : UInt32 := 0
  seeds : Table SeedHandle Seed := {}
  addresses : Table PublicKey AddressDetails := {}

end ColdSigner
