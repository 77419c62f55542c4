import ColdSigner.Key.PathName
import ColdSigner.Metadata.Entry
import ColdSigner.Vault.Seeds

/-! The address book of a vault.

A key is listed once, with the seed and path it was first derived from and the
networks on which it is enabled; it is dropped with the last of these. -/
namespace ColdSigner.Vault

def lookup (v : Vault) (key : PublicKey) : Option AddressDetails := v.addresses.find? key

/-- The details of a key that is enabled on a network. -/
def lookupOn (v : Vault) (key : PublicKey) (network : NetworkId) : Option AddressDetails :=
  (v.lookup key).filter fun d => network ∈ d.networks

def setAddress (v : Vault) (key : PublicKey) (d : AddressDetails) : Vault :=
  { v with addresses := v.addresses.insert key d }

/-- Derives a key and enables it on a network. -/
def createAddress (v : Vault) (h : SeedHandle) (path : String) (network : NetworkId)
    (specs : NetworkSpecs) : Except VaultError (PublicKey × Vault) := do
  let p ← parsePath path
  let k ← v.secretKey h p specs.scheme
  let s ← v.seed h
  let key := k.publicKey
  match v.lookup key with
  | none => return (key, v.setAddress key ⟨h, s.name, p.path, p.hasPassword, [network]⟩)
  | some d =>
    if d.seed ≠ h ∨ d.path ≠ p.path then .error (.keyCollision d.seedName)
    else if network ∈ d.networks then return (key, v)
    else return (key, v.setAddress key { d with networks := d.networks ++ [network] })

/-- Stands for the name of the network in the path of a default address. -/
def networkMark : String := "\x7bnetwork\x7d"

/-- The paths of default addresses on a network, which name it in lower case. -/
def defaultPaths (specs : NetworkSpecs) (templates : List String) : List String :=
  let name := Text.lowercase specs.name.toList
  templates.map fun t => String.ofList (Text.replaceAll networkMark.toList name t.toList)

/-- Creates addresses in turn. What fails is left out, except for a root address:
then the rest is left out too. -/
def createAll (v : Vault) (h : SeedHandle) (created : List PublicKey) :
    List (Entry × String) → Vault × Except VaultError (List PublicKey)
  | [] => (v, .ok created.reverse)
  | (e, path) :: rest =>
    match v.createAddress h path e.network e.specs with
    | .ok (key, v) => createAll v h (key :: created) rest
    | .error f => if path.isEmpty then (v, .error f) else createAll v h created rest

/-- Creates the default addresses of a seed on every network. -/
def populateDefaults (v : Vault) (h : SeedHandle) (networks : List Entry)
    (templates : List String) : Vault × Except VaultError (List PublicKey) :=
  v.createAll h [] (networks.flatMap fun e => (defaultPaths e.specs templates).map fun p => (e, p))

/-- Disables a key on a network. -/
def removeAddress (v : Vault) (key : PublicKey) (network : NetworkId) : Except VaultError Vault :=
  match v.lookup key with
  | none => .error .unknownAddress
  | some d =>
    let networks := d.networks.filter (· ≠ network)
    if networks.isEmpty then .ok { v with addresses := v.addresses.erase key }
    else .ok (v.setAddress key { d with networks := networks })

/-- The addresses of a seed, in the order of their keys. -/
def addressesOf (v : Vault) (h : SeedHandle) :
    Except VaultError (List (PublicKey × AddressDetails)) := do
  let _ ← v.seed h
  return v.addresses.entries.filter fun e => e.2.seed = h

/-- An address in the form that wallets read. -/
def exportAddress (v : Vault) (key : PublicKey) (network : NetworkId) (specs : NetworkSpecs) :
    Except VaultError String :=
  if key.scheme = specs.scheme ∧ (v.lookupOn key network).isSome then
    .ok ("substrate:" ++ key.address specs.addressFormat ++ ":" ++ network.text)
  else .error .unknownAddress

/-- The next numbered child of a path that a seed does not have on a network. -/
def suggestNext (v : Vault) (h : SeedHandle) (path : String) (network : NetworkId) :
    Except VaultError String := do
  let addresses ← v.addressesOf h
  let existing := addresses.filter fun e => network ∈ e.2.networks
  return DerivationPath.suggestNext path (existing.map fun e => e.2.path)

end ColdSigner.Vault
