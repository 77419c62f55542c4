import ColdSigner.Config
import ColdSigner.Session.View

/-! A host of sessions on one device.

Sessions are numbered from 1 as they are opened, and a number is never used again. -/
namespace ColdSigner

structure SessionId where
  number : Nat
  deriving DecidableEq, Repr

instance : LT SessionId := ⟨fun a b => a.number < b.number⟩

instance : DecidableLT SessionId := fun a b => inferInstanceAs (Decidable (a.number < b.number))

def SessionId.text (id : SessionId) : String := "#" ++ toString id.number

inductive HostError where
  | unknownSession (id : SessionId)
  | session (refusal : Refusal)
  | registry (error : RegistryError)
  | vault (error : VaultError)
  /-- A sum was no word, and the program stopped. -/
  | overflow
  deriving DecidableEq

def HostError.ofStop : Stop → HostError
  | .refused r => .session r
  | .overflow => .overflow

def HostError.message : HostError → String
  | .unknownSession id => "Unknown session " ++ id.text
  | .session r => "Engine operation failed: " ++ r.message
  | .registry e => "Registry error: " ++ e.message
  | .vault e => "Vault error: " ++ e.message
  | .overflow => "attempt to add with overflow"

structure Host where
  config : Config := {}
  device : Device
  sessions : Table SessionId Session := {}
  /-- The number of the next session. -/
  next : Nat := 1

namespace Host

/-- The latest metadata of every network. -/
def networks (h : Host) : List Entry := h.device.registry.networks

/-- Stores the metadata of a blob, outside of any session. -/
def loadMetadata (h : Host) (network : NetworkId) (blob : Bytes) :
    Except HostError (Entry × Host) :=
  match h.device.registry.load network blob with
  | .ok (e, registry) => .ok (e, { h with device := { h.device with registry } })
  | .error e => .error (.registry e)

def openSession (h : Host) : SessionId × Host :=
  let id : SessionId := ⟨h.next⟩
  (id, { h with
    next := h.next + 1
    sessions := h.sessions.insert id { settings := h.config.session } })

def session (h : Host) (id : SessionId) : Except HostError Session :=
  match h.sessions.find? id with
  | some s => .ok s
  | none => .error (.unknownSession id)

def closeSession (h : Host) (id : SessionId) : Except HostError Host := do
  let _ ← h.session id
  return { h with sessions := h.sessions.erase id }

/-- The open sessions in order. -/
def openSessions (h : Host) : List SessionId := h.sessions.keys

def view (h : Host) (id : SessionId) : Except HostError SessionView := do
  return (← h.session id).view h.device

/-- An action of a session, and the session as it is shown after it. -/
def act (h : Host) (id : SessionId) (random : FixedBytes 32) (a : Action) :
    Except HostError (SessionView × Host) := do
  let s ← h.session id
  let (s, device) ← (s.update h.device random a).mapError .ofStop
  return (s.view device, { h with device, sessions := h.sessions.insert id s })

def guess (h : Host) (id : SessionId) (typed : String) : Except HostError (List String) := do
  ((← h.session id).guess typed).mapError .session

/-- An address with the latest specs of its network. -/
def exportAddress (h : Host) (key : PublicKey) (network : NetworkId) : Except HostError String := do
  let e ← (h.device.registry.latest network).mapError .registry
  (h.device.vault.exportAddress key network e.specs).mapError .vault

end Host

end ColdSigner
