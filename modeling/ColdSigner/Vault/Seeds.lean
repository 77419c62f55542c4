import ColdSigner.Key.Signing
import ColdSigner.Phrase.Basic
import ColdSigner.Vault.Basic

/-! The seeds of a vault, and what is derived from them.

Signing and exporting take a proof, which is checked before anything else. -/
namespace ColdSigner.Vault

def authenticate (v : Vault) (proof : Bytes) : Except VaultError Unit :=
  if v.authenticator.verifies proof then .ok () else .error .authRequired

def seed (v : Vault) (h : SeedHandle) : Except VaultError Seed :=
  match v.seeds.find? h with
  | some s => .ok s
  | none => .error .unknownSeed

/-- The handles and names of all seeds. -/
def seedNames (v : Vault) : List (SeedHandle × String) :=
  v.seeds.entries.map fun e => (e.1, e.2.name)

def seedByName (v : Vault) (name : String) : Except VaultError SeedHandle :=
  match v.seedNames.find? (·.2 == name) with
  | some e => .ok e.1
  | none => .error .unknownSeed

def isBlankName (name : String) : Bool := (Text.trimChars name.toList).isEmpty

/-- Keeps entropy under a new name. -/
def importSeed (v : Vault) (name : String) (entropy : Bytes) :
    Except VaultError (SeedHandle × Vault) :=
  if isBlankName name then .error .invalidName
  else if entropy.length ∉ SecretKey.entropyLengths then .error (.key .invalidEntropy)
  else if v.seeds.values.any (·.name == name) then .error (.duplicateName name)
  else if v.next.toNat + 1 < UInt32.size then
    let h : SeedHandle := ⟨v.next⟩
    .ok (h, { v with next := v.next + 1, seeds := v.seeds.insert h ⟨name, entropy⟩ })
  else .error .overflow

/-- Keeps the entropy of a phrase under a new name. -/
def importPhrase (v : Vault) (name phrase : String) : Except VaultError (SeedHandle × Vault) :=
  match Phrase.parse phrase with
  | .ok entropy => v.importSeed name entropy
  | .error _ => .error .invalidPhrase

/-- A phrase of so many words, from as many random bytes as it needs. -/
def newPhrase (random : FixedBytes 32) (words : Nat) : Except VaultError String :=
  if words ∈ Phrase.wordCounts then
    .ok (Phrase.render (random.bytes.take (Phrase.entropyLength words)))
  else .error (.unsupportedWordCount words)

def parsePath (path : String) : Except VaultError DerivationPath :=
  (DerivationPath.parse path).mapError .key

/-- The secret key of a seed along a path. -/
def secretKey (v : Vault) (h : SeedHandle) (path : DerivationPath) (scheme : Scheme) :
    Except VaultError SecretKey := do
  let s ← v.seed h
  (SecretKey.derive s.entropy path scheme).mapError .key

/-- The key of a path, which may hold a password. -/
def derive (v : Vault) (h : SeedHandle) (path : String) (scheme : Scheme) :
    Except VaultError DerivedKey := do
  let p ← parsePath path
  let k ← v.secretKey h p scheme
  return ⟨h, p.path, p.hasPassword, k.publicKey⟩

/-- A signature of `message`. A derived key that comes out different means that the
password is wrong. -/
def sign (v : Vault) (key : DerivedKey) (password : Option String) (proof message : Bytes) :
    Except VaultError Signature := do
  v.authenticate proof
  if key.hasPassword ∧ password = none then .error .passwordRequired
  else
    let p ← parsePath key.path
    let k ← v.secretKey key.seed (p.withPassword password) key.key.scheme
    if k.publicKey = key.key then return k.sign message
    else if key.hasPassword then .error .wrongPassword
    else .error (.key .invalidKey)

def exportEntropy (v : Vault) (h : SeedHandle) (proof : Bytes) : Except VaultError Bytes := do
  v.authenticate proof
  let s ← v.seed h
  return s.entropy

def exportPhrase (v : Vault) (h : SeedHandle) (proof : Bytes) : Except VaultError String := do
  let entropy ← v.exportEntropy h proof
  return Phrase.render entropy

/-- Deletes a seed and its addresses. -/
def delete (v : Vault) (h : SeedHandle) : Except VaultError Vault := do
  let _ ← v.seed h
  return { v with seeds := v.seeds.erase h, addresses := v.addresses.filter fun _ d => d.seed ≠ h }

end ColdSigner.Vault
