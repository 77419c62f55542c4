import ColdSigner.Bytes
import ColdSigner.Wire.Error

/-! The states of a session, and what each accepts. -/
namespace ColdSigner

/-- The kinds of actions, in the order in which they are listed. -/
inductive ActionKind where
  | startScan
  | scanFrame
  | decode
  | approve
  | reject
  | authenticate
  | reset
  | cancel
  | newSeed
  | recoverSeed
  | setSeedName
  | setSeedPhrase
  | confirmSeed
  | exportSeed
  | deleteSeed
  deriving DecidableEq, Repr

namespace ActionKind

def all : List ActionKind :=
  [.startScan, .scanFrame, .decode, .approve, .reject, .authenticate, .reset, .cancel, .newSeed,
    .recoverSeed, .setSeedName, .setSeedPhrase, .confirmSeed, .exportSeed, .deleteSeed]

def name : ActionKind → String
  | .startScan => "StartScan"
  | .scanFrame => "ScanFrame"
  | .decode => "Decode"
  | .approve => "Approve"
  | .reject => "Reject"
  | .authenticate => "Authenticate"
  | .reset => "Reset"
  | .cancel => "Cancel"
  | .newSeed => "NewSeed"
  | .recoverSeed => "RecoverSeed"
  | .setSeedName => "SetSeedName"
  | .setSeedPhrase => "SetSeedPhrase"
  | .confirmSeed => "ConfirmSeed"
  | .exportSeed => "ExportSeed"
  | .deleteSeed => "DeleteSeed"

theorem mem_all (k : ActionKind) : k ∈ all := by cases k <;> decide

end ActionKind

inductive StateTag where
  | idle
  | awaitingScan
  | decoding
  | reviewingTransaction
  | awaitingAuthentication
  | signed
  | seedNaming
  | seedPhraseEntry
  | reviewingSeedFlow
  | awaitingExportAuth
  | error
  deriving DecidableEq, Repr

namespace StateTag

def all : List StateTag :=
  [.idle, .awaitingScan, .decoding, .reviewingTransaction, .awaitingAuthentication, .signed,
    .seedNaming, .seedPhraseEntry, .reviewingSeedFlow, .awaitingExportAuth, .error]

def name : StateTag → String
  | .idle => "Idle"
  | .awaitingScan => "AwaitingScan"
  | .decoding => "Decoding"
  | .reviewingTransaction => "ReviewingTransaction"
  | .awaitingAuthentication => "AwaitingAuthentication"
  | .signed => "Signed"
  | .seedNaming => "SeedNaming"
  | .seedPhraseEntry => "SeedPhraseEntry"
  | .reviewingSeedFlow => "ReviewingSeedFlow"
  | .awaitingExportAuth => "AwaitingExportAuth"
  | .error => "Error"

def ofName? (s : String) : Option StateTag := all.find? (·.name == s)

def toByte : StateTag → UInt8
  | .idle => 0x00
  | .awaitingScan => 0x10
  | .decoding => 0x11
  | .reviewingTransaction => 0x20
  | .awaitingAuthentication => 0x21
  | .signed => 0x30
  | .seedNaming => 0x40
  | .seedPhraseEntry => 0x41
  | .reviewingSeedFlow => 0x42
  | .awaitingExportAuth => 0x43
  | .error => 0xFF

def ofByte? (b : UInt8) : Option StateTag := all.find? (·.toByte == b)

def encode (t : StateTag) : Bytes := [t.toByte]

def decode : Bytes → Except Wire.Error (StateTag × Bytes)
  | [] => .error .invalidLength
  | b :: rest =>
    match ofByte? b with
    | some t => .ok (t, rest)
    | none => .error .invalidEncoding

/-- A session in such a state goes on only after a reset. -/
def isTerminal (t : StateTag) : Bool := t = .signed || t = .error

/-- What a session in this state accepts. -/
def accepted : StateTag → List ActionKind
  | .idle => [.startScan, .newSeed, .recoverSeed, .exportSeed, .deleteSeed]
  | .awaitingScan => [.scanFrame, .cancel]
  | .decoding => [.decode, .cancel]
  | .reviewingTransaction => [.approve, .reject]
  | .awaitingAuthentication | .awaitingExportAuth => [.authenticate, .cancel]
  | .signed | .error => [.reset]
  | .seedNaming => [.setSeedName, .cancel]
  | .seedPhraseEntry => [.setSeedPhrase, .cancel]
  | .reviewingSeedFlow => [.confirmSeed, .cancel]

def accepts (t : StateTag) (k : ActionKind) : Bool := k ∈ t.accepted

theorem ofByte?_toByte (t : StateTag) : ofByte? t.toByte = some t := by
  cases t <;> rfl

theorem ofName?_name (t : StateTag) : ofName? t.name = some t := by
  cases t <;> decide

end StateTag

end ColdSigner
