import ColdSigner.Key.Address
import ColdSigner.Review.Card
import ColdSigner.Review.Failure
import ColdSigner.Text.Amount
import ColdSigner.Text.Blank

/-! Values as cards.

A value is read as its type says and shown as a card, with the cards of its parts
below it. An index that no variant has ends the reading: what is left of the
region is shown as raw bytes under a card of its own. -/
namespace ColdSigner.Review

structure Limits where
  /-- How deep values may be nested. -/
  maxDepth : Nat := 64
  /-- How many elements that may be empty a sequence may have. -/
  maxSequenceLength : Nat := 65536
  deriving DecidableEq, Repr

/-- What the place of a value says about how to show it. -/
inductive Hint where
  | plain
  /-- An integer that counts the currency of the network. -/
  | balance
  /-- A variant that is a call of a pallet. -/
  | call
  deriving DecidableEq, Repr

/-- A field whose type is called a balance holds one. -/
def Hint.ofField (f : Field) : Hint :=
  match f.typeName with
  | some n => if Text.containsChars "Balance".toList n.toList then .balance else .plain
  | none => .plain

/-- A place in a payload, and whether an unknown index has ended the reading. -/
structure Place where
  cursor : Cursor
  halted : Bool := false

/-- A reader of one card. -/
abbrev ReadCard := Place → Except DecodeFailure (Card × Place)

/-- Readers one after another, as long as the reading goes on. -/
def readInOrder (acc : List Card) : List ReadCard → Place → Except DecodeFailure (List Card × Place)
  | [], p => .ok (acc.reverse, p)
  | read :: rest, p =>
    if p.halted then .ok (acc.reverse, p)
    else
      match read p with
      | .error f => .error f
      | .ok (card, p) => readInOrder (card :: acc) rest p

/-- A reader of a value of a type, with a hint, at an indent. -/
abbrev ReadValue := TypeId → Hint → Nat → ReadCard

def showNumber (specs : NetworkSpecs) (hint : Hint) (v : Nat) : CardKind × String :=
  match hint with
  | .balance => (.balance, Amount.render v specs.decimals.toNat specs.unit)
  | _ => (.number, toString v)

/-- The number in two's complement of a little-endian byte string. -/
def signedNumber (b : Bytes) : Int :=
  let n := b.toNat
  let size := Nat.pow 256 b.length
  if 2 * n < size then n else (n : Int) - size

/-- What the bytes of a primitive show, other than a text. -/
def showPrimitive (specs : NetworkSpecs) (hint : Hint) (p : Primitive) (b : Bytes) :
    Except DecodeReason (CardKind × String) :=
  match p with
  | .bool =>
    match b.toNat with
    | 0 => .ok (.bool, "false")
    | 1 => .ok (.bool, "true")
    | n => .error (.invalidBool (UInt8.ofNat n))
  | .char =>
    if Nat.isValidChar b.toNat then .ok (.char, String.ofList [Char.ofNat b.toNat])
    else .error (.invalidChar b.toNat)
  | _ =>
    if p.isSigned then .ok (.number, toString (signedNumber b))
    else .ok (showNumber specs hint b.toNat)

section

variable (e : Entry) (l : Limits)

def readText (indent : Nat) : ReadCard := fun p => do
  let start := p.cursor.offset
  let (n, c) ← p.cursor.count 1 l.maxSequenceLength
  let (b, next) ← c.take n
  match b.toText? with
  | some s => return (⟨.text, s, indent, ⟨start, next.offset⟩, []⟩, { p with cursor := next })
  | none => c.fail .invalidUtf8

def readPrimitive (t : Primitive) (hint : Hint) (indent : Nat) : ReadCard := fun p => do
  match t.width? with
  | none => readText l indent p
  | some n =>
    let start := p.cursor.offset
    let (b, next) ← p.cursor.take n
    match showPrimitive e.specs hint t b with
    | .ok (kind, value) =>
      return (⟨kind, value, indent, ⟨start, next.offset⟩, []⟩, { p with cursor := next })
    | .error reason => p.cursor.fail reason

/-- A compact integer that the integer behind it can hold. -/
def readCompact (inner : TypeId) (hint : Hint) (indent : Nat) : ReadCard := fun p => do
  match e.types.compactTarget? inner with
  | none => .error ⟨.unknownType, p.cursor.offset, some inner⟩
  | some t =>
    let start := p.cursor.offset
    let (v, next) ← p.cursor.integer
    if Nat.pow 256 (t.width?.getD 16) ≤ v then p.cursor.fail .invalidCompact
    else
      let (kind, value) := showNumber e.specs hint v
      return (⟨kind, value, indent, ⟨start, next.offset⟩, []⟩, { p with cursor := next })

/-- The next `n` bytes, shown by `render`; `start` is where the card begins. -/
def readBytes (kind : CardKind) (render : Bytes → String) (n start indent : Nat) : ReadCard :=
  fun p => do
    let (b, next) ← p.cursor.take n
    return (⟨kind, render b, indent, ⟨start, next.offset⟩, []⟩, { p with cursor := next })

def itemCount (n : Nat) : String := toString n ++ " items"

variable (read : ReadValue)

/-- A container of the cards that `readers` read; `head` is the span of its own bytes. -/
def readContainer (kind : CardKind) (value : String) (indent : Nat) (head : Span)
    (readers : List ReadCard) : ReadCard := fun p => do
  let (children, p) ← readInOrder [] readers p
  return (⟨kind, value, indent, head, children⟩, p)

/-- A field: its value, below a card with its name if it has one. -/
def readField (hint : Option Hint) (indent : Nat) (f : Field) : ReadCard := fun p => do
  let hint := hint.getD (.ofField f)
  match f.name with
  | none => read f.type hint indent p
  | some name =>
    let start := p.cursor.offset
    let (value, p) ← read f.type hint (indent + 1) p
    return (⟨.fieldName, name, indent, ⟨start, start⟩, [value]⟩, p)

def readSequence (inner : TypeId) (indent : Nat) : ReadCard := fun p => do
  let start := p.cursor.offset
  if e.types.isByte inner then
    let (n, c) ← p.cursor.count 1 l.maxSequenceLength
    readBytes .bytes Hex.show0x n start indent { p with cursor := c }
  else
    let (n, c) ← p.cursor.count (e.minSize inner) l.maxSequenceLength
    readContainer .sequence (itemCount n) indent ⟨start, c.offset⟩
      (List.replicate n (read inner .plain (indent + 1))) { p with cursor := c }

def readArray (length : UInt32) (inner : TypeId) (indent : Nat) : ReadCard := fun p => do
  let start := p.cursor.offset
  let n := length.toNat
  if e.types.isByte inner then readBytes .bytes Hex.show0x n start indent p
  else
    let minSize := e.minSize inner
    if minSize = 0 ∧ l.maxSequenceLength < n then
      p.cursor.fail (.lengthOverrun n p.cursor.remaining)
    else if p.cursor.remaining < n * minSize then p.cursor.fail .unexpectedEnd
    else
      readContainer .sequence (itemCount n) indent ⟨start, start⟩
        (List.replicate n (read inner .plain (indent + 1))) p

/-- How the card of a variant is called, and what its index selects. -/
def variantKind (typeName : String) (hint : Hint) : CardKind × String :=
  if typeName = "RuntimeCall" then (.pallet, "pallet")
  else if hint = .call then (.method, "call")
  else (.variant, "variant")

/-- The rest of the region, after an index that selects nothing. -/
def readUnknown (what : String) (index start indent : Nat) : ReadCard := fun p =>
  let (b, next) := p.cursor.takeAll
  let raw : Card := ⟨.raw, Hex.show0x b, indent + 1, ⟨p.cursor.offset, next.offset⟩, []⟩
  .ok (⟨.unknownVariant, "unknown " ++ what ++ " " ++ toString index, indent,
    ⟨start, p.cursor.offset⟩, [raw]⟩, ⟨next, true⟩)

def readVariant (typeName : String) (variants : List Variant) (hint : Hint) (indent : Nat) :
    ReadCard := fun p => do
  let start := p.cursor.offset
  let (index, c) ← p.cursor.number 1
  let (kind, what) := variantKind typeName hint
  match variants.find? (·.index.toNat == index) with
  | none => readUnknown what index start indent { p with cursor := c }
  | some v =>
    let fieldHint := if kind = .pallet then some Hint.call else none
    readContainer kind v.name indent ⟨start, c.offset⟩
      (v.fields.map (readField read fieldHint (indent + 1))) { p with cursor := c }

/-- A value of a definition. -/
def readDefinition (name : String) (d : TypeDef) (hint : Hint) (indent : Nat) : ReadCard := fun p =>
  let here : Span := ⟨p.cursor.offset, p.cursor.offset⟩
  match d with
  | .primitive t => readPrimitive e l t hint indent p
  | .compact inner => readCompact e inner hint indent p
  | .sequence inner => readSequence e l read inner indent p
  | .array length inner => readArray e l read length inner indent p
  | .tuple types =>
    readContainer .tuple name indent here (types.map fun t => read t .plain (indent + 1)) p
  | .composite fields =>
    readContainer .composite name indent here (fields.map (readField read none (indent + 1))) p
  | .variant variants => readVariant read name variants hint indent p

/-- A value of a type whose parts `read` reads. Two names have a form of their own:
accounts are shown as addresses and hashes as digits. -/
def readType (id : TypeId) (hint : Hint) (indent : Nat) : ReadCard := fun p =>
  match e.lookup id with
  | .error f => .error (.ofRegistry p.cursor.offset f)
  | .ok t =>
    let start := p.cursor.offset
    let name := t.name
    if name = "AccountId32" ∧ e.types.byteArray? id = some 32 then
      readBytes .id (Address.encode e.specs.addressFormat) 32 start indent p
    else if name = "H256" ∧ e.types.byteArray? id = some 32 then
      readBytes .hash Hex.show0x 32 start indent p
    else readDefinition e l read name t.definition hint indent p

/-- A value nested in no more than `n` levels of types, itself included. -/
def readValue : Nat → ReadValue
  | 0, id, _, _, p => .error ((⟨.tooDeep, p.cursor.offset, none⟩ : DecodeFailure).inType id)
  | n + 1, id, hint, indent, p =>
    match readType e l (readValue n) id hint indent p with
    | .ok r => .ok r
    | .error f => .error (f.inType id)

/-- The cards of a payload that is one value of a type. -/
def decodeValue (payload : Bytes) (id : TypeId) : Except DecodeFailure (List Card) := do
  let (card, p) ← readValue e l (l.maxDepth + 1) id .plain 0 ⟨.start payload, false⟩
  if p.cursor.remaining = 0 then return [card]
  else p.cursor.fail (.trailingBytes p.cursor.remaining)

end

end ColdSigner.Review
