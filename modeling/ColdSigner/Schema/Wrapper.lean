import ColdSigner.Schema.Basic

/-! Types behind wrappers.

A composite of one field and a tuple of one type are wrappers: they add no bytes
to the type inside. -/
namespace ColdSigner

/-- The type inside a wrapper. -/
def TypeDef.inner? : TypeDef → Option TypeId
  | .composite [f] => some f.type
  | .tuple [t] => some t
  | _ => none

namespace TypeTable

/-- The first definition behind `id` that is no wrapper, looking at `n` types at most. -/
def unwrapWithin (types : TypeTable) : Nat → TypeId → Option TypeDef
  | 0, _ => none
  | n + 1, id =>
    match types.definition? id with
    | none => none
    | some d =>
      match d.inner? with
      | some inner => unwrapWithin types n inner
      | none => some d

/-- The first definition behind `id` that is no wrapper. A chain that ends visits no
type twice, so more looks than there are types are not needed. -/
def unwrap? (types : TypeTable) (id : TypeId) : Option TypeDef :=
  types.unwrapWithin (types.size + 1) id

/-- The unsigned integer that a type wraps. -/
def compactTarget? (types : TypeTable) (id : TypeId) : Option Primitive :=
  match types.unwrap? id with
  | some (.primitive p) => if p.isUnsigned then some p else none
  | _ => none

def isByte (types : TypeTable) (id : TypeId) : Bool :=
  types.definition? id == some (.primitive .u8)

/-- The length of the array of bytes that a type wraps. -/
def byteArray? (types : TypeTable) (id : TypeId) : Option UInt32 :=
  match types.unwrap? id with
  | some (.array length t) => if types.isByte t then some length else none
  | _ => none

end TypeTable

end ColdSigner
