/-! Cards: a request as the user reviews it.

A card shows one part of a payload and says which bytes it took itself, without
those of its children. Read from front to back, parents before children, the cards
of a payload take its bytes in order and without gap. -/
namespace ColdSigner

inductive CardKind where
  | author
  | network
  | pallet
  | method
  | fieldName
  | composite
  | tuple
  | sequence
  | variant
  | unknownVariant
  | bool
  | char
  | text
  | number
  | balance
  | id
  | hash
  | bytes
  | raw
  | era
  | nonce
  | tip
  | specVersion
  | txVersion
  | genesisHash
  | blockHash
  | message
  | metadata
  deriving DecidableEq, Repr

def CardKind.name : CardKind → String
  | .author => "Author"
  | .network => "Network"
  | .pallet => "Pallet"
  | .method => "Method"
  | .fieldName => "FieldName"
  | .composite => "Composite"
  | .tuple => "Tuple"
  | .sequence => "Sequence"
  | .variant => "Variant"
  | .unknownVariant => "UnknownVariant"
  | .bool => "Bool"
  | .char => "Char"
  | .text => "Text"
  | .number => "Number"
  | .balance => "Balance"
  | .id => "Id"
  | .hash => "Hash"
  | .bytes => "Bytes"
  | .raw => "Raw"
  | .era => "Era"
  | .nonce => "Nonce"
  | .tip => "Tip"
  | .specVersion => "SpecVersion"
  | .txVersion => "TxVersion"
  | .genesisHash => "GenesisHash"
  | .blockHash => "BlockHash"
  | .message => "Message"
  | .metadata => "Metadata"

/-- The offsets from `start` up to `stop`. -/
structure Span where
  start : Nat
  stop : Nat
  deriving DecidableEq, Repr

structure Card where
  kind : CardKind
  value : String
  indent : Nat
  /-- The bytes of the card itself. -/
  span : Span
  children : List Card := []
  deriving Repr

mutual

/-- Adds the spans of a card and of the cards under it. -/
def Card.addSpans (acc : Array Span) : Card → Array Span
  | ⟨_, _, _, span, children⟩ => Card.addAllSpans (acc.push span) children

def Card.addAllSpans (acc : Array Span) : List Card → Array Span
  | [] => acc
  | c :: rest => Card.addAllSpans (c.addSpans acc) rest

end

/-- The spans of cards, parents before children. -/
def Card.spans (cards : List Card) : List Span := (Card.addAllSpans #[] cards).toList

/-- Whether spans follow each other from `start` to `stop` without gap. -/
def Span.tile (start stop : Nat) : List Span → Bool
  | [] => start == stop
  | s :: rest => s.start == start && s.start ≤ s.stop && tile s.stop stop rest

/-- Whether cards take the first `length` bytes exactly, in order. -/
def Card.covers (cards : List Card) (length : Nat) : Bool := Span.tile 0 length (Card.spans cards)

end ColdSigner
