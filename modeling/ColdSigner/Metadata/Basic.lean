import ColdSigner.Bytes.Hex
import ColdSigner.Schema.Size
import ColdSigner.Schema.Wrapper

/-! Metadata of a network: how its runtime encodes values and how to show them. -/
namespace ColdSigner

/-- A network is known by the hash of its first block. -/
abbrev NetworkId := FixedBytes 32

def NetworkId.text (n : NetworkId) : String := Hex.show0x n.bytes

/-- How a network shows addresses and amounts, and how it signs. -/
structure NetworkSpecs where
  name : String
  addressFormat : UInt16
  decimals : UInt8
  unit : String
  scheme : Scheme
  deriving DecidableEq, Repr

/-- What a metadata blob describes. -/
structure Metadata where
  specVersion : UInt32
  specs : NetworkSpecs
  types : TypeTable
  pallets : List Pallet
  deriving DecidableEq, Repr

namespace Metadata

/-- What a blob gets wrong at some offset. -/
inductive Misreading where
  | unexpectedEnd
  | invalidMagic
  | invalidCompact
  | excessiveCount
  | typeIdOutOfRange
  | invalidUtf8
  | invalidOption
  | unknownPrimitive
  | unknownTag
  | invalidScheme
  | trailingBytes
  deriving DecidableEq, Repr

def Misreading.message : Misreading → String
  | .unexpectedEnd => "unexpected end of metadata"
  | .invalidMagic => "invalid magic"
  | .invalidCompact => "invalid compact"
  | .excessiveCount => "count exceeds remaining bytes"
  | .typeIdOutOfRange => "type id out of range"
  | .invalidUtf8 => "invalid utf8"
  | .invalidOption => "invalid option tag"
  | .unknownPrimitive => "unknown primitive"
  | .unknownTag => "unknown type tag"
  | .invalidScheme => "invalid encryption"
  | .trailingBytes => "trailing bytes"

/-- Why metadata is refused. -/
inductive Fault where
  | misread (what : Misreading) (offset : Nat)
  | unsupportedVersion (version : UInt8)
  | danglingReference (type : Nat) (reference : TypeId)
  | compactOfNonInteger (type : Nat) (inner : TypeId)
  | duplicateVariant (type : Nat) (index : UInt8)
  | duplicatePallet (index : UInt8)
  | callsNotVariant (pallet : String) (type : TypeId)
  /-- A type that no value inhabits. -/
  | infiniteType (type : Nat)
  deriving DecidableEq, Repr

def Fault.message : Fault → String
  | .misread what offset => what.message ++ " at offset " ++ toString offset
  | .unsupportedVersion v => "unsupported metadata version " ++ toString v.toNat
  | .danglingReference i r =>
    "type " ++ toString i ++ " references unknown type " ++ toString r.toNat
  | .compactOfNonInteger i t =>
    "type " ++ toString i ++ " is a compact of non-integer type " ++ toString t.toNat
  | .duplicateVariant i n =>
    "type " ++ toString i ++ " has duplicate variant index " ++ toString n.toNat
  | .duplicatePallet n => "duplicate pallet index " ++ toString n.toNat
  | .callsNotVariant name t =>
    "pallet " ++ name ++ " calls type " ++ toString t.toNat ++ " is not a variant"
  | .infiniteType i => "type " ++ toString i ++ " has no finite encoding"

end Metadata

end ColdSigner
