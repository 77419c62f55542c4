import ColdSigner.Metadata.Basic

/-! Metadata that holds together.

An entry is metadata of one network in which every reference leads to a type,
compact forms are of unsigned integers, indices select at most one variant or
pallet, calls are variants, and every type has a value. -/
namespace ColdSigner

namespace Metadata

/-- The first element that an earlier one equals. -/
def firstRepeat (seen : List UInt8) : List UInt8 → Option UInt8
  | [] => none
  | x :: rest => if x ∈ seen then some x else firstRepeat (x :: seen) rest

/-- What is wrong with type `i` by itself. -/
def typeFault? (types : TypeTable) (i : Nat) (d : TypeDef) : Option Fault :=
  match d.references.find? (!types.has ·) with
  | some r => some (.danglingReference i r)
  | none =>
    match d with
    | .compact inner =>
      if (types.compactTarget? inner).isNone then some (.compactOfNonInteger i inner) else none
    | .variant variants => (firstRepeat [] (variants.map (·.index))).map (.duplicateVariant i)
    | _ => none

def typesFault? (types : TypeTable) : Option Fault :=
  (List.range types.size).findSome? fun i =>
    types[i]?.bind fun t => typeFault? types i t.definition

/-- What is wrong with a pallet after others with the indices `seen`. -/
def palletFault? (types : TypeTable) (seen : List UInt8) (p : Pallet) : Option Fault :=
  if p.index ∈ seen then some (.duplicatePallet p.index)
  else
    match p.calls with
    | none => none
    | some c =>
      match types.definition? c with
      | some (.variant _) => none
      | _ => some (.callsNotVariant p.name c)

def palletsFault? (types : TypeTable) (seen : List UInt8) : List Pallet → Option Fault
  | [] => none
  | p :: rest => palletFault? types seen p <|> palletsFault? types (p.index :: seen) rest

/-- What is wrong with metadata, apart from types without value. -/
def fault? (m : Metadata) : Option Fault :=
  typesFault? m.types <|> palletsFault? m.types [] m.pallets

end Metadata

structure Entry where
  network : NetworkId
  metadata : Metadata
  /-- The least size of each type. -/
  minSizes : Array Nat
  fault_eq : metadata.fault? = none
  sizes_eq : metadata.types.minSizes = .ok minSizes
  deriving DecidableEq

namespace Entry

/-- The entry of metadata that holds together. -/
def build (network : NetworkId) (m : Metadata) : Except Metadata.Fault Entry :=
  match hf : m.fault? with
  | some f => .error f
  | none =>
    match hs : m.types.minSizes with
    | .error i => .error (.infiniteType i)
    | .ok sizes => .ok ⟨network, m, sizes, hf, hs⟩

def specVersion (e : Entry) : UInt32 := e.metadata.specVersion

def specs (e : Entry) : NetworkSpecs := e.metadata.specs

def types (e : Entry) : TypeTable := e.metadata.types

def pallets (e : Entry) : List Pallet := e.metadata.pallets

def type? (e : Entry) (id : TypeId) : Option TypeEntry := e.types[id.toNat]?

/-- The least number of bytes of a value; zero for what is no type. -/
def minSize (e : Entry) (id : TypeId) : Nat := e.minSizes.getD id.toNat 0

/-- The pallet that an index selects. -/
def pallet? (e : Entry) (index : UInt8) : Option Pallet := e.pallets.find? (·.index == index)

end Entry

end ColdSigner
