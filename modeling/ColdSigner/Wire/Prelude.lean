import ColdSigner.Wire.Scheme

/-! The three bytes that open a request: a magic byte, the scheme and the kind.

After them come, for a transaction, the public key, the length of the call as a
compact integer, the call, the extensions and the network; for a message the
same with the message in place of call and extensions; for an update the network
and a metadata blob. -/
namespace ColdSigner

inductive RequestKind where
  | transaction
  | message
  | loadMetadata
  deriving DecidableEq, Repr

namespace RequestKind

def all : List RequestKind := [.transaction, .message, .loadMetadata]

def name : RequestKind → String
  | .transaction => "Transaction"
  | .message => "Message"
  | .loadMetadata => "LoadMetadata"

def toByte : RequestKind → UInt8
  | .transaction => 0x02
  | .message => 0x03
  | .loadMetadata => 0x80

def ofByte? (b : UInt8) : Option RequestKind := all.find? (·.toByte == b)

end RequestKind

structure Prelude where
  scheme : Scheme
  kind : RequestKind
  deriving DecidableEq, Repr

namespace Prelude

def magic : UInt8 := 0x53

def length : Nat := 3

/-- Updates are unsigned, everything else is signed. -/
def isConsistent (p : Prelude) : Bool :=
  match p.kind with
  | .loadMetadata => p.scheme = .unsigned
  | _ => p.scheme ≠ .unsigned

def encode (p : Prelude) : Bytes := [magic, p.scheme.toByte, p.kind.toByte]

def decode : Bytes → Except Wire.Error (Prelude × Bytes)
  | m :: s :: k :: rest =>
    if m ≠ magic then .error .invalidPrelude
    else
      match Scheme.ofByte? s, RequestKind.ofByte? k with
      | some scheme, some kind =>
        let p : Prelude := ⟨scheme, kind⟩
        if p.isConsistent then .ok (p, rest) else .error .invalidPrelude
      | _, _ => .error .invalidPrelude
  | _ => .error .invalidLength

end Prelude

end ColdSigner
