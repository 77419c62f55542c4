import ColdSigner.Hash.Sha256
import ColdSigner.Hash.Sha512

/-! Keyed hashes, and a secret stretched from a password. -/
namespace ColdSigner

namespace Hmac

/-- A key that fills a block, each byte combined with `pad`. -/
def padded (blockLength : Nat) (key : Bytes) (pad : UInt8) : Bytes :=
  (FixedBytes.fit blockLength key).bytes.map (· ^^^ pad)

/-- The keyed hash for SHA-256. -/
def sha256 (key message : Bytes) : Bytes :=
  let key := if Sha256.blockLength < key.length then Sha256.hash key else key
  let inner := Sha256.hash (padded Sha256.blockLength key 0x36 ++ message)
  Sha256.hash (padded Sha256.blockLength key 0x5C ++ inner)

/-- The two states of SHA-512 that have absorbed a key. -/
structure Key512 where
  inner : Sha512.State
  outer : Sha512.State

def Key512.ofBytes (key : Bytes) : Key512 :=
  let key := if Sha512.blockLength < key.length then Sha512.hash key else key
  let absorbed pad := Sha512.absorb Sha512.initial #[] (padded Sha512.blockLength key pad)
  ⟨absorbed 0x36, absorbed 0x5C⟩

/-- The keyed hash for SHA-512. -/
def Key512.sign (k : Key512) (message : Bytes) : Bytes :=
  let inner := (Sha512.finish k.inner Sha512.blockLength message).bytes
  (Sha512.finish k.outer Sha512.blockLength inner).bytes

end Hmac

/-- Iterated keyed hashing: each link hashes the one before it, and all are combined. -/
def stretchFrom (k : Hmac.Key512) : Nat → Bytes → Bytes → Bytes
  | 0, _, acc => acc
  | n + 1, link, acc =>
    let link := k.sign link
    stretchFrom k n link (List.zipWith (· ^^^ ·) acc link)

/-- The first 64 bytes that PBKDF2 with HMAC-SHA-512 makes of a password. -/
def stretch (password salt : Bytes) (rounds : Nat) : Bytes :=
  let k := Hmac.Key512.ofBytes password
  let first := k.sign (salt ++ [0, 0, 0, 1])
  stretchFrom k (rounds - 1) first first

end ColdSigner
