import ColdSigner.Metadata.Basic
import ColdSigner.Wire.Compact

/-! Metadata as a blob.

A blob is the magic `meta`, a version byte, the name, the version of the runtime,
the address format, the decimals, the unit and the scheme of the network, then the
types and the pallets. Lists and texts follow their length as a compact integer,
numbers of fixed width are little-endian, and what may be missing follows a byte
that is zero where it is. -/
namespace ColdSigner.Metadata

/-- The bytes `meta`. -/
def magic : Bytes := [0x6D, 0x65, 0x74, 0x61]

def formatVersion : UInt8 := 0x01

def writeText (s : String) : Bytes :=
  let b := Bytes.ofText s
  Wire.Compact.encode b.length ++ b

def writeOption {α : Type} (write : α → Bytes) : Option α → Bytes
  | none => [0]
  | some x => 1 :: write x

def writeList {α : Type} (write : α → Bytes) (xs : List α) : Bytes :=
  Wire.Compact.encode xs.length ++ xs.flatMap write

def writeTypeId (t : TypeId) : Bytes := Wire.Compact.encode t.toNat

def writeField (f : Field) : Bytes :=
  writeOption writeText f.name ++ writeOption writeText f.typeName ++ writeTypeId f.type

def writeVariant (v : Variant) : Bytes :=
  v.index :: (writeText v.name ++ writeList writeField v.fields)

def writeTypeDef : TypeDef → Bytes
  | .primitive p => [0, p.toByte]
  | .compact t => 1 :: writeTypeId t
  | .sequence t => 2 :: writeTypeId t
  | .array length t => 3 :: (Bytes.ofNat 4 length.toNat ++ writeTypeId t)
  | .tuple types => 4 :: writeList writeTypeId types
  | .composite fields => 5 :: writeList writeField fields
  | .variant variants => 6 :: writeList writeVariant variants

def writeType (t : TypeEntry) : Bytes := writeText t.path ++ writeTypeDef t.definition

def writePallet (p : Pallet) : Bytes :=
  writeText p.name ++ p.index :: writeOption writeTypeId p.calls

/-- The blob of metadata. -/
def encode (m : Metadata) : Bytes :=
  magic ++ formatVersion :: (writeText m.specs.name
    ++ Bytes.ofNat 4 m.specVersion.toNat
    ++ Bytes.ofNat 2 m.specs.addressFormat.toNat
    ++ m.specs.decimals :: (writeText m.specs.unit
      ++ m.specs.scheme.toByte :: (writeList writeType m.types.toList
        ++ writeList writePallet m.pallets)))

end ColdSigner.Metadata
