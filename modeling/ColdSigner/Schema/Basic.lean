import ColdSigner.Wire.Scheme

/-! Type descriptions.

A type table lists the types of a runtime; a type refers to another by its place
in the table. -/
namespace ColdSigner

/-- The place of a type in its table. -/
abbrev TypeId := UInt32

inductive Primitive where
  | bool
  | char
  | str
  | u8
  | u16
  | u32
  | u64
  | u128
  | i8
  | i16
  | i32
  | i64
  | i128
  deriving DecidableEq, Repr, Inhabited

namespace Primitive

/-- The primitives in the order of their bytes. -/
def all : List Primitive :=
  [.bool, .char, .str, .u8, .u16, .u32, .u64, .u128, .i8, .i16, .i32, .i64, .i128]

def toByte : Primitive → UInt8
  | .bool => 0
  | .char => 1
  | .str => 2
  | .u8 => 3
  | .u16 => 4
  | .u32 => 5
  | .u64 => 6
  | .u128 => 7
  | .i8 => 8
  | .i16 => 9
  | .i32 => 10
  | .i64 => 11
  | .i128 => 12

def ofByte? (b : UInt8) : Option Primitive := all.find? (·.toByte == b)

/-- The number of bytes that every value takes; texts differ in length. -/
def width? : Primitive → Option Nat
  | .bool | .u8 | .i8 => some 1
  | .u16 | .i16 => some 2
  | .char | .u32 | .i32 => some 4
  | .u64 | .i64 => some 8
  | .u128 | .i128 => some 16
  | .str => none

def isUnsigned : Primitive → Bool
  | .u8 | .u16 | .u32 | .u64 | .u128 => true
  | _ => false

def isSigned : Primitive → Bool
  | .i8 | .i16 | .i32 | .i64 | .i128 => true
  | _ => false

end Primitive

/-- A field of a composite type or of a variant. -/
structure Field where
  /-- Fields may be told apart by their place alone. -/
  name : Option String
  /-- The type as the source of the runtime calls it, which hints at how to show it. -/
  typeName : Option String
  type : TypeId
  deriving DecidableEq, Repr

structure Variant where
  /-- The byte that selects the variant. -/
  index : UInt8
  name : String
  fields : List Field
  deriving DecidableEq, Repr

inductive TypeDef where
  | primitive (p : Primitive)
  /-- An unsigned integer in compact form. -/
  | compact (type : TypeId)
  /-- A number of elements given by a compact integer before them. -/
  | sequence (type : TypeId)
  | array (length : UInt32) (type : TypeId)
  | tuple (types : List TypeId)
  | composite (fields : List Field)
  | variant (variants : List Variant)
  deriving DecidableEq, Repr

/-- The types that a definition refers to, in order. -/
def TypeDef.references : TypeDef → List TypeId
  | .primitive _ => []
  | .compact t | .sequence t | .array _ t => [t]
  | .tuple ts => ts
  | .composite fields => fields.map (·.type)
  | .variant variants => variants.flatMap fun v => v.fields.map (·.type)

structure TypeEntry where
  /-- Segments with two colons between them. -/
  path : String
  definition : TypeDef
  deriving DecidableEq, Repr

/-- What follows the last two colons, of a text given backwards. -/
def lastSegment (acc : List Char) : List Char → List Char
  | ':' :: ':' :: _ => acc
  | c :: rest => lastSegment (c :: acc) rest
  | [] => acc

/-- The last segment of the path. -/
def TypeEntry.name (t : TypeEntry) : String :=
  String.ofList (lastSegment [] t.path.toList.reverse)

/-- A module of a runtime and the type of its calls. -/
structure Pallet where
  name : String
  /-- The byte that selects the pallet. -/
  index : UInt8
  calls : Option TypeId
  deriving DecidableEq, Repr

abbrev TypeTable := Array TypeEntry

namespace TypeTable

def definition? (types : TypeTable) (id : TypeId) : Option TypeDef :=
  types[id.toNat]?.map (·.definition)

def has (types : TypeTable) (id : TypeId) : Bool := id.toNat < types.size

end TypeTable

end ColdSigner
