import ColdSigner.Curve.Ristretto
import ColdSigner.Curve.Secp256k1
import ColdSigner.Hash.Hmac
import ColdSigner.Hash.Transcript
import ColdSigner.Key.Path
import ColdSigner.Key.Public

/-! Secret keys and how they are derived.

Every key starts from 32 bytes stretched from the entropy of a seed and the
password of the path. Hard junctions of the schemes `ed25519` and `ecdsa` hash the
secret with the chain code; the scheme `sr25519` has junctions of its own, hard
and soft. -/
namespace ColdSigner

inductive KeyError where
  | invalidPath
  | invalidEntropy
  | invalidKey
  /-- The scheme has no soft junctions. -/
  | unsupportedDerivation (scheme : Scheme)
  deriving DecidableEq, Repr

def KeyError.message : KeyError → String
  | .invalidPath => "invalid derivation path"
  | .invalidEntropy => "invalid seed entropy"
  | .invalidKey => "invalid key"
  | .unsupportedDerivation s => "soft derivation is not supported for " ++ s.name

def DerivationPath.parse (s : String) : Except KeyError DerivationPath :=
  match DerivationPath.parse? s with
  | some p => .ok p
  | none => .error .invalidPath

inductive SecretKey where
  | ed25519 (seed : Bytes)
  | sr25519 (scalar : Edwards.Scalar)
  | ecdsa (scalar : Secp256k1.Scalar)

namespace SecretKey

def scheme : SecretKey → Scheme
  | .ed25519 _ => .ed25519
  | .sr25519 _ => .sr25519
  | .ecdsa _ => .ecdsa

/-- The low half of a hash as a number of 255 bits: a multiple of eight with the
highest bit set. -/
def clamp (hash : Bytes) : Nat :=
  let n := Bytes.toNat (hash.take 32)
  let half := Edwards.topBit / 2
  half + (n % half - n % 8)

def ed25519Scalar (seed : Bytes) : Nat := clamp (Sha512.hash seed)

def publicKey : SecretKey → PublicKey
  | .ed25519 seed => .ed25519 (.fit 32 (Edwards.Point.base.times (ed25519Scalar seed)).compress)
  | .sr25519 s => .sr25519 (.fit 32 (Ristretto.encode (Edwards.Point.base.times s.val)))
  | .ecdsa s => .ecdsa (.fit 33 ((Secp256k1.Point.base.times s.val).compress?.getD []))

namespace Sr25519

/-- The scalar that a seed of 32 bytes is expanded to. -/
def expand (seed : Bytes) : Edwards.Scalar := .ofNat (clamp (Sha512.hash seed) / 8)

/-- The transcript of a junction. -/
def junctionTranscript (code : FixedBytes 32) : Transcript :=
  ((Transcript.new "SchnorrRistrettoHDKD").append "sign-bytes" []).append "chain-code" code.bytes

def derive (s : Edwards.Scalar) : Junction → Edwards.Scalar
  | .hard code =>
    let t := (junctionTranscript code).append "secret-key" (Edwards.Scalar.bytes s)
    expand (t.challenge "HDKD-hard" 32).1
  | .soft code =>
    let t := (junctionTranscript code).append "public-key" (publicKey (.sr25519 s)).bytes
    s + Edwards.Scalar.ofBytes (t.challenge "HDKD-scalar" 64).1

end Sr25519

/-- Hard junctions by hashing, under a name that separates the schemes. -/
def deriveHard (domain : String) (scheme : Scheme) (secret : Bytes) :
    List Junction → Except KeyError Bytes
  | [] => .ok secret
  | .soft _ :: _ => .error (.unsupportedDerivation scheme)
  | .hard code :: rest =>
    let name := Bytes.ofText domain
    let input := Wire.Compact.encode name.length ++ name ++ secret ++ code.bytes
    deriveHard domain scheme (Blake2b.hash 32 input).bytes rest

/-- The numbers of bytes that the entropy of a seed may have. -/
def entropyLengths : List Nat := [16, 20, 24, 28, 32]

/-- The secret that entropy and a password give. -/
def root (entropy : Bytes) (password : String) : Except KeyError Bytes :=
  if entropy.length ∈ entropyLengths then
    .ok ((stretch entropy (Bytes.ofText ("mnemonic" ++ password)) 2048).take 32)
  else .error .invalidEntropy

/-- The key of a seed along a path. -/
def derive (entropy : Bytes) (path : DerivationPath) (scheme : Scheme) :
    Except KeyError SecretKey := do
  let secret ← root entropy (path.password.getD "")
  match scheme with
  | .sr25519 => return .sr25519 (path.junctions.foldl Sr25519.derive (Sr25519.expand secret))
  | .ed25519 => return .ed25519 (← deriveHard "Ed25519HDKD" scheme secret path.junctions)
  | .ecdsa =>
    let secret ← deriveHard "Secp256k1HDKD" scheme secret path.junctions
    let n := Bytes.toNatBE secret
    if n = 0 then .error .invalidKey
    else if h : n < Secp256k1.order then return .ecdsa ⟨n, h⟩
    else .error .invalidKey
  | .unsigned => .error .invalidKey

end SecretKey

end ColdSigner
