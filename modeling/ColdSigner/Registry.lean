import ColdSigner.Metadata.Reader
import ColdSigner.Table

/-! The registry of metadata.

Entries are stored by network and version of the runtime. An entry that is stored
stays as it is until it is removed, and a request is served by the entry of its
own version only. -/
namespace ColdSigner

/-- What an entry is stored under: networks in order, and the versions of each in order. -/
structure EntryKey where
  network : NetworkId
  specVersion : UInt32
  deriving DecidableEq

instance : LT EntryKey :=
  ⟨fun a b => a.network < b.network ∨ a.network = b.network ∧ a.specVersion < b.specVersion⟩

instance : DecidableLT EntryKey := fun a b =>
  inferInstanceAs (Decidable (a.network < b.network ∨
    a.network = b.network ∧ a.specVersion < b.specVersion))

inductive RegistryError where
  /-- What is wrong with a blob, or with metadata that do not hold together. -/
  | malformed (text : String)
  | unknownType (id : TypeId)
  | unknownNetwork (network : NetworkId)
  /-- Other versions of the network are there. -/
  | versionMismatch (network : NetworkId) (requested : UInt32) (available : List UInt32)
  /-- Another entry is stored for this network and version. -/
  | alreadyLoaded (network : NetworkId) (specVersion : UInt32)
  /-- Nothing can be looked up at all. -/
  | unavailable
  deriving DecidableEq

/-- Numbers between brackets. -/
def versionList (versions : List UInt32) : String :=
  "[" ++ ", ".intercalate (versions.map fun v => toString v.toNat) ++ "]"

def RegistryError.message : RegistryError → String
  | .malformed text => "malformed metadata: " ++ text
  | .unknownType id => "unknown type " ++ toString id.toNat
  | .unknownNetwork n => "unknown network " ++ n.text
  | .versionMismatch n requested available =>
    "no metadata for " ++ n.text ++ " version " ++ toString requested.toNat
      ++ " (available: " ++ versionList available ++ ")"
  | .alreadyLoaded n v =>
    "metadata for " ++ n.text ++ " version " ++ toString v.toNat ++ " already loaded"
  | .unavailable => "registry unavailable"

/-- The type of an id. -/
def Entry.lookup (e : Entry) (id : TypeId) : Except RegistryError TypeEntry :=
  match e.type? id with
  | some t => .ok t
  | none => .error (.unknownType id)

/-- Where requests find their metadata: a registry, or anything else that gives entries. -/
structure MetadataSource where
  /-- The entry of one version. -/
  entry : NetworkId → UInt32 → Except RegistryError Entry
  /-- The entry of the highest version. -/
  latest : NetworkId → Except RegistryError Entry

structure Registry where
  entries : Table EntryKey Entry := {}

namespace Registry

instance : Inhabited Registry := ⟨{}⟩

/-- Stores an entry, and answers with the one that is then stored. -/
def insert (r : Registry) (e : Entry) : Except RegistryError (Entry × Registry) :=
  let key : EntryKey := ⟨e.network, e.specVersion⟩
  match r.entries.find? key with
  | some stored =>
    if stored = e then .ok (stored, r) else .error (.alreadyLoaded e.network e.specVersion)
  | none => .ok (e, ⟨r.entries.insert key e⟩)

/-- Stores the entry of a blob. -/
def load (r : Registry) (network : NetworkId) (blob : Bytes) :
    Except RegistryError (Entry × Registry) :=
  match Entry.load network blob with
  | .ok e => r.insert e
  | .error f => .error (.malformed f.message)

/-- The entries of a network, in ascending order of version. -/
def ofNetwork (r : Registry) (network : NetworkId) : List Entry :=
  r.entries.values.filter fun e => e.network = network

/-- The versions of a network, in ascending order. -/
def versions (r : Registry) (network : NetworkId) : List UInt32 :=
  (r.ofNetwork network).map Entry.specVersion

def get (r : Registry) (network : NetworkId) (version : UInt32) : Except RegistryError Entry :=
  match r.entries.find? ⟨network, version⟩ with
  | some e => .ok e
  | none =>
    match r.versions network with
    | [] => .error (.unknownNetwork network)
    | available => .error (.versionMismatch network version available)

def latest (r : Registry) (network : NetworkId) : Except RegistryError Entry :=
  match (r.ofNetwork network).getLast? with
  | some e => .ok e
  | none => .error (.unknownNetwork network)

/-- The networks, each once and in order. -/
def networkIds (r : Registry) : List NetworkId :=
  (r.entries.keys.map EntryKey.network).eraseReps

/-- The latest entry of every network. -/
def networks (r : Registry) : List Entry :=
  r.networkIds.filterMap fun n => (r.latest n).toOption

def remove (r : Registry) (network : NetworkId) (version : UInt32) : Registry :=
  ⟨r.entries.erase ⟨network, version⟩⟩

def source (r : Registry) : MetadataSource := ⟨r.get, r.latest⟩

end Registry

end ColdSigner
