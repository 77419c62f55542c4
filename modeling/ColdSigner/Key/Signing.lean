import ColdSigner.Hash.KeyStream
import ColdSigner.Key.Secret

/-! Signatures of messages.

No scheme draws randomness: the nonce of a signature depends on the key and the
message alone. -/
namespace ColdSigner

namespace Ed25519

def challenge (commitment key message : Bytes) : Edwards.Scalar :=
  Edwards.Scalar.ofBytes (Sha512.hash (commitment ++ key ++ message))

def sign (seed : Bytes) (message : Bytes) : Bytes :=
  let hash := Sha512.hash seed
  let secret := SecretKey.clamp hash
  let key := (Edwards.Point.base.times secret).compress
  let r := Edwards.Scalar.ofBytes (Sha512.hash (hash.drop 32 ++ message))
  let commitment := (Edwards.Point.base.times r.val).compress
  let s := r + challenge commitment key message * Edwards.Scalar.ofNat secret
  commitment ++ Edwards.Scalar.bytes s

/-- The scalar must be in least form; the commitment is compared as bytes. -/
def verify (key message signature : Bytes) : Bool :=
  match Edwards.Point.decompress? key, Edwards.Scalar.ofCanonical? (signature.drop 32) with
  | some a, some s =>
    let commitment := signature.take 32
    let k := challenge commitment key message
    ((Edwards.Point.base.times s.val).add (a.neg.times k.val)).compress == commitment
  | _, _ => false

end Ed25519

namespace Sr25519

def context : Bytes := Bytes.ofText "substrate"

/-- The transcript of a signature up to its commitment. -/
def opening (key message : Bytes) : Transcript :=
  ((((Transcript.new "SigningContext").append "" context).append "sign-bytes" message).append
    "proto-name" (Bytes.ofText "Schnorr-sig")).append "sign:pk" key

def challenge (t : Transcript) (commitment : Bytes) : Edwards.Scalar :=
  Edwards.Scalar.ofBytes ((t.append "sign:R" commitment).challenge "sign:c" 64).1

/-- The secret that stands in for randomness. -/
def nonce (s : Edwards.Scalar) (message : Bytes) : Bytes :=
  let t := (((Transcript.new "SigningNonce").append "context" context).append "private"
    (Edwards.Scalar.bytes s)).append "message" message
  (t.challenge "nonce" 32).1

def sign (s : Edwards.Scalar) (message : Bytes) : Bytes :=
  let key := (SecretKey.sr25519 s).publicKey.bytes
  let t := opening key message
  let nonce := nonce s message
  let r := Edwards.Scalar.ofBytes (t.witness "signing" nonce (KeyStream.bytes32 nonce) 64)
  let commitment := Ristretto.encode (Edwards.Point.base.times r.val)
  let answer := challenge t commitment * s + r
  commitment ++ Bytes.ofNat 32 (answer.val + Edwards.topBit)

/-- The top bit of the signature is set and the scalar below it in least form. -/
def verify (key message signature : Bytes) : Bool :=
  let n := Bytes.toNat (signature.drop 32)
  match Ristretto.decode? key with
  | some a =>
    if h : Edwards.topBit ≤ n ∧ n - Edwards.topBit < Edwards.order then
      let s : Edwards.Scalar := ⟨n - Edwards.topBit, h.2⟩
      let commitment := signature.take 32
      let k := challenge (opening key message) commitment
      Ristretto.encode ((Edwards.Point.base.times s.val).add (a.neg.times k.val)) == commitment
    else false
  | none => false

end Sr25519

namespace Ecdsa

open Secp256k1

/-- What is signed of a message. -/
def digest (message : Bytes) : Scalar :=
  Scalar.ofNat (Bytes.toNatBE (Blake2b.hash 32 message).bytes)

/-- A chain of keyed hashes, whose outputs are tried as nonces. -/
structure Drbg where
  key : Bytes
  value : Bytes

def Drbg.update (g : Drbg) (data : Bytes) : Drbg :=
  let key := Hmac.sha256 g.key (g.value ++ data)
  ⟨key, Hmac.sha256 key g.value⟩

def Drbg.init (secret digest : Scalar) : Drbg :=
  let data := Bytes.ofNatBE 32 secret.val ++ Bytes.ofNatBE 32 digest.val
  let g : Drbg := ⟨List.replicate 32 0, List.replicate 32 1⟩
  (g.update (0 :: data)).update (1 :: data)

/-- The first output that is a nonce, of at most `n` outputs. -/
def Drbg.nonce : Nat → Drbg → Nat
  | 0, _ => 0
  | n + 1, g =>
    let value := Hmac.sha256 g.key g.value
    let k := value.toNatBE
    if 0 < k ∧ k < order then k else nonce n (Drbg.update ⟨g.key, value⟩ [0])

/-- Two scalars, the second the lesser of the two that would do, and a byte with the
parity of the commitment and whether its first coordinate passed the order. -/
def sign (secret : Scalar) (message : Bytes) : Bytes :=
  let z := digest message
  let k := (Drbg.init secret z).nonce 100
  match (Point.base.times k).affine? with
  | none => []
  | some (x, y) =>
    let r : Scalar := Scalar.ofNat x.val
    let s := Scalar.inverse (Scalar.ofNat k) * (z + r * secret)
    let isHigh := order / 2 < s.val
    let isOdd := (y.val % 2 == 1) != isHigh
    let tag := (if isOdd then 1 else 0) + (if order ≤ x.val then 2 else 0)
    Bytes.ofNatBE 32 r.val ++ Bytes.ofNatBE 32 (if isHigh then -s else s).val ++ [tag]

/-- The key that made a signature. -/
def recover? (message signature : Bytes) : Option Bytes := do
  let r := Bytes.toNatBE (signature.take 32)
  let s := Bytes.toNatBE ((signature.drop 32).take 32)
  let tag ← signature[64]?
  if r = 0 ∨ order ≤ r ∨ s = 0 ∨ order / 2 < s ∨ 4 ≤ tag.toNat then none
  else
    let x := if 2 ≤ tag.toNat then r + order else r
    let commitment ← Point.lift? x (tag.toNat % 2 == 1)
    let ri := Scalar.inverse (Scalar.ofNat r)
    let u := -(ri * digest message)
    let v := ri * Scalar.ofNat s
    ((Point.base.times u.val).add (commitment.times v.val)).compress?

def verify (key message signature : Bytes) : Bool := recover? message signature == some key

end Ecdsa

namespace SecretKey

def sign (k : SecretKey) (message : Bytes) : Signature :=
  match k with
  | .ed25519 seed => .ed25519 (.fit 64 (Ed25519.sign seed message))
  | .sr25519 s => .sr25519 (.fit 64 (Sr25519.sign s message))
  | .ecdsa s => .ecdsa (.fit 65 (Ecdsa.sign s message))

end SecretKey

/-- A signature of another scheme than the key's is none of its signatures. -/
def PublicKey.verify (k : PublicKey) (message : Bytes) (signature : Signature) : Bool :=
  match k, signature with
  | .ed25519 k, .ed25519 s => Ed25519.verify k.bytes message s.bytes
  | .sr25519 k, .sr25519 s => Sr25519.verify k.bytes message s.bytes
  | .ecdsa k, .ecdsa s => Ecdsa.verify k.bytes message s.bytes
  | _, _ => false

end ColdSigner
