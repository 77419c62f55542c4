import ColdSigner.Wire.Cursor
import ColdSigner.Metadata.Entry
import ColdSigner.Metadata.Writer

/-! Metadata from a blob.

Reading refuses a blob at the first thing
that no written blob has, and tells where that stands. -/
namespace ColdSigner.Metadata

/-- A reader of one thing: the thing, and the cursor after it. -/
abbrev Read (α : Type) := Cursor → Except Fault (α × Cursor)

def misread {α : Type} (what : Misreading) (offset : Nat) : Except Fault α :=
  .error (.misread what offset)

def readBytes (n : Nat) : Read Bytes := fun p =>
  match p.take? n with
  | some r => .ok r
  | none => misread .unexpectedEnd p.offset

/-- A little-endian number of `n` bytes. -/
def readNumber (n : Nat) : Read Nat := fun p => do
  let (b, p) ← readBytes n p
  return (b.toNat, p)

def readByte : Read UInt8 := fun p => do
  let (v, p) ← readNumber 1 p
  return (UInt8.ofNat v, p)

def readCompact : Read Nat := fun p =>
  match p.compact with
  | .ok r => .ok r
  | .error _ => misread .invalidCompact p.offset

/-- A number of things, each of which takes a byte at least. -/
def readCount : Read Nat := fun start => do
  let (n, p) ← readCompact start
  if p.remaining < n then misread .excessiveCount start.offset else return (n, p)

def readTypeId : Read TypeId := fun start => do
  let (n, p) ← readCompact start
  if n < UInt32.size then return (UInt32.ofNat n, p) else misread .typeIdOutOfRange start.offset

def readText : Read String := fun p => do
  let (n, start) ← readCount p
  let (b, p) ← readBytes n start
  match b.toText? with
  | some s => return (s, p)
  | none => misread .invalidUtf8 start.offset

def readOption {α : Type} (read : Read α) : Read (Option α) := fun start => do
  let (tag, p) ← readByte start
  if tag = 0 then return (none, p)
  else if tag = 1 then
    let (x, p) ← read p
    return (some x, p)
  else misread .invalidOption start.offset

/-- `n` things one after another, behind those in `acc`. -/
def readTimes {α : Type} (read : Read α) : Nat → List α → Read (List α)
  | 0, acc, p => .ok (acc.reverse, p)
  | n + 1, acc, p => do
    let (x, p) ← read p
    readTimes read n (x :: acc) p

def readList {α : Type} (read : Read α) : Read (List α) := fun p => do
  let (n, p) ← readCount p
  readTimes read n [] p

def readField : Read Field := fun p => do
  let (name, p) ← readOption readText p
  let (typeName, p) ← readOption readText p
  let (type, p) ← readTypeId p
  return (⟨name, typeName, type⟩, p)

def readVariant : Read Variant := fun p => do
  let (index, p) ← readByte p
  let (name, p) ← readText p
  let (fields, p) ← readList readField p
  return (⟨index, name, fields⟩, p)

def readTypeDef : Read TypeDef := fun start => do
  let (tag, p) ← readByte start
  match tag.toNat with
  | 0 =>
    let (b, p) ← readByte p
    match Primitive.ofByte? b with
    | some t => return (.primitive t, p)
    | none => misread .unknownPrimitive start.offset
  | 1 =>
    let (t, p) ← readTypeId p
    return (.compact t, p)
  | 2 =>
    let (t, p) ← readTypeId p
    return (.sequence t, p)
  | 3 =>
    let (n, p) ← readNumber 4 p
    let (t, p) ← readTypeId p
    return (.array (UInt32.ofNat n) t, p)
  | 4 =>
    let (types, p) ← readList readTypeId p
    return (.tuple types, p)
  | 5 =>
    let (fields, p) ← readList readField p
    return (.composite fields, p)
  | 6 =>
    let (variants, p) ← readList readVariant p
    return (.variant variants, p)
  | _ => misread .unknownTag start.offset

def readType : Read TypeEntry := fun p => do
  let (path, p) ← readText p
  let (definition, p) ← readTypeDef p
  return (⟨path, definition⟩, p)

def readPallet : Read Pallet := fun p => do
  let (name, p) ← readText p
  let (index, p) ← readByte p
  let (calls, p) ← readOption readTypeId p
  return (⟨name, index, calls⟩, p)

/-- The scheme of a network, which signs. -/
def readScheme : Read Scheme := fun start => do
  let (b, p) ← readByte start
  match Scheme.ofByte? b with
  | some .unsigned => misread .invalidScheme start.offset
  | some s => return (s, p)
  | none => misread .invalidScheme start.offset

def readHead : Read Unit := fun p => do
  let (m, p) ← readBytes 4 p
  if m ≠ magic then misread .invalidMagic 0
  else
    let (v, p) ← readByte p
    if v ≠ formatVersion then .error (.unsupportedVersion v) else return ((), p)

def readSpecs : Read (UInt32 × NetworkSpecs) := fun p => do
  let (name, p) ← readText p
  let (version, p) ← readNumber 4 p
  let (format, p) ← readNumber 2 p
  let (decimals, p) ← readByte p
  let (unit, p) ← readText p
  let (scheme, p) ← readScheme p
  return ((UInt32.ofNat version, ⟨name, UInt16.ofNat format, decimals, unit, scheme⟩), p)

/-- The metadata of a blob. -/
def decode (blob : Bytes) : Except Fault Metadata := do
  let ((), p) ← readHead (.start blob)
  let ((version, specs), p) ← readSpecs p
  let (types, p) ← readList readType p
  let (pallets, p) ← readList readPallet p
  if p.rest.isEmpty then return ⟨version, specs, types.toArray, pallets⟩
  else misread .trailingBytes p.offset

end ColdSigner.Metadata

namespace ColdSigner.Entry

/-- The entry of a blob. -/
def load (network : NetworkId) (blob : Bytes) : Except Metadata.Fault Entry := do
  build network (← Metadata.decode blob)

def encode (e : Entry) : Bytes := e.metadata.encode

end ColdSigner.Entry
