import ColdSigner.Key.Public
import ColdSigner.Review.Value
import ColdSigner.Wire.Prelude

/-! Requests as cards.

The extensions of a transaction are read before its call, since they tell the
version of the runtime whose metadata the call is read with; the cards are put in
the order of the bytes. -/
namespace ColdSigner.Review

inductive SignKind where
  | transaction
  | message
  deriving DecidableEq, Repr

def SignKind.name : SignKind → String
  | .transaction => "Transaction"
  | .message => "Message"

/-- A signature that is asked for. -/
structure SigningRequest where
  signer : PublicKey
  network : NetworkId
  kind : SignKind
  /-- The bytes to sign. -/
  payload : Bytes
  deriving DecidableEq

/-- What a payload asks for. -/
inductive Request where
  | sign (request : SigningRequest)
  /-- New metadata. -/
  | loadMetadata (entry : Entry)
  deriving DecidableEq

end ColdSigner.Review

namespace ColdSigner

/-- A request and the cards that show it. -/
structure Review where
  cards : List Card
  request : Review.Request

namespace Review

/-- Longer transactions are signed by their hash. -/
def maxUnhashedLength : Nat := 256

/-! ### Mortality -/

/-- How long a transaction stays valid. -/
inductive Era where
  | immortal
  | mortal (period phase : Nat)
  deriving DecidableEq, Repr

def Era.text : Era → String
  | .immortal => "immortal"
  | .mortal period phase => "mortal, phase " ++ toString phase ++ ", period " ++ toString period

/-- The era of a number of sixteen bits: the low four give the period, the others
the phase in steps that grow with long periods. -/
def Era.ofNumber? (n : Nat) : Option Era :=
  let period := 2 <<< (n % 16)
  let phase := n / 16 * max (period / 4096) 1
  if period < 4 ∨ period ≤ phase then none else some (.mortal period phase)

/-- A zero byte, or two bytes of which the first is not zero. -/
def readEra (c : Cursor) : Except DecodeFailure (Era × Cursor) := do
  let (first, next) ← c.number 1
  if first = 0 then return (.immortal, next)
  else
    let (second, next) ← next.number 1
    match Era.ofNumber? (first + 256 * second) with
    | some era => return (era, next)
    | none => c.fail .invalidEra

/-! ### Framing -/

def readPrelude (payload : Bytes) : Except DecodeFailure Prelude :=
  match Prelude.decode payload with
  | .ok (p, _) => .ok p
  | .error .invalidLength => .error ⟨.unexpectedEnd, 0, none⟩
  | .error _ => .error ⟨.invalidPrelude, 0, none⟩

/-- What transactions and messages have in common: the signer in front and the
network at the end. -/
structure Framing where
  signer : PublicKey
  network : NetworkId
  /-- Where the body starts. -/
  bodyStart : Nat
  /-- Where the body stops and the network starts. -/
  bodyStop : Nat

def hashLength : Nat := 32

def Framing.read (payload : Bytes) (scheme : Scheme) : Except DecodeFailure Framing := do
  let (_, c) ← (Cursor.start payload).take Prelude.length
  let (key, c) ← c.take scheme.publicKeyLength
  match PublicKey.ofBytes? scheme key with
  | none => .error ⟨.invalidPrelude, 1, none⟩
  | some signer =>
    if payload.length ≤ c.offset + hashLength then .error ⟨.unexpectedEnd, payload.length, none⟩
    else
      let stop := payload.length - hashLength
      return ⟨signer, .fit 32 (payload.drop stop), c.offset, stop⟩

namespace Framing

def body (f : Framing) (payload : Bytes) : Cursor := .region payload f.bodyStart f.bodyStop

/-- The scheme of the network is the scheme of the signer. -/
def checkScheme (f : Framing) (e : Entry) : Except DecodeFailure Unit :=
  if e.specs.scheme = f.signer.scheme then .ok ()
  else .error ⟨.encryptionMismatch e.specs.scheme f.signer.scheme, 1, none⟩

def authorCard (f : Framing) (e : Entry) : Card :=
  ⟨.author, f.signer.address e.specs.addressFormat, 0, ⟨0, f.bodyStart⟩, []⟩

def networkCard (f : Framing) (e : Entry) (length : Nat) : Card :=
  ⟨.network, e.specs.name, 0, ⟨f.bodyStop, length⟩, []⟩

/-- The failure of a lookup. An unknown network is noticed where it stands, all else at `offset`. -/
def refused (f : Framing) (offset : Nat) : RegistryError → DecodeFailure
  | .unknownNetwork _ => ⟨.unknownNetwork, f.bodyStop, none⟩
  | e => .ofRegistry offset e

end Framing

/-! ### Transactions -/

/-- Something read, and the bytes it took. -/
structure Located (α : Type) where
  value : α
  span : Span

def locate {α : Type} (c : Cursor) (read : Cursor → Except DecodeFailure (α × Cursor)) :
    Except DecodeFailure (Located α × Cursor) := do
  let (x, next) ← read c
  return (⟨x, ⟨c.offset, next.offset⟩⟩, next)

/-- What is signed along with a call. -/
structure Extensions where
  era : Located Era
  nonce : Located Nat
  tip : Located Nat
  specVersion : Located Nat
  txVersion : Located Nat
  genesis : Located Bytes
  block : Located Bytes

def Extensions.read (c : Cursor) : Except DecodeFailure Extensions := do
  let (era, c) ← locate c readEra
  let (nonce, c) ← locate c Cursor.integer
  let (tip, c) ← locate c Cursor.integer
  let (specVersion, c) ← locate c (·.number 4)
  let (txVersion, c) ← locate c (·.number 4)
  let (genesis, c) ← locate c (·.take hashLength)
  let (block, c) ← locate c (·.take hashLength)
  if c.remaining = 0 then return ⟨era, nonce, tip, specVersion, txVersion, genesis, block⟩
  else c.fail (.trailingBytes c.remaining)

def Extensions.cards (x : Extensions) (specs : NetworkSpecs) : List Card :=
  [⟨.era, x.era.value.text, 0, x.era.span, []⟩,
    ⟨.nonce, toString x.nonce.value, 0, x.nonce.span, []⟩,
    ⟨.tip, Amount.render x.tip.value specs.decimals.toNat specs.unit, 0, x.tip.span, []⟩,
    ⟨.specVersion, specs.name ++ toString x.specVersion.value, 0, x.specVersion.span, []⟩,
    ⟨.txVersion, toString x.txVersion.value, 0, x.txVersion.span, []⟩,
    ⟨.genesisHash, Hex.show0x x.genesis.value, 0, x.genesis.span, []⟩,
    ⟨.blockHash, Hex.show0x x.block.value, 0, x.block.span, []⟩]

/-- The card of a call, which stands at the cursor; its length stands at `start`.
A pallet that is unknown or has no calls leaves raw bytes. -/
def readCall (e : Entry) (l : Limits) (start : Nat) (c : Cursor) : Except DecodeFailure Card := do
  let (index, c) ← c.number 1
  let head : Span := ⟨start, c.offset⟩
  match (e.pallet? (UInt8.ofNat index)).bind fun p => p.calls.map fun calls => (p, calls) with
  | some (pallet, calls) =>
    let (method, p) ← readValue e l l.maxDepth calls .call 1 ⟨c, false⟩
    if p.cursor.remaining = 0 then return ⟨.pallet, pallet.name, 0, head, [method]⟩
    else p.cursor.fail (.trailingBytes p.cursor.remaining)
  | none =>
    let (b, next) := c.takeAll
    let raw : Card := ⟨.raw, Hex.show0x b, 1, ⟨c.offset, next.offset⟩, []⟩
    return ⟨.pallet, "unknown pallet " ++ toString index, 0, head, [raw]⟩

/-- What is signed of a call with its extensions. -/
def signable (b : Bytes) : Bytes :=
  if maxUnhashedLength < b.length then (Blake2b.hash 32 b).bytes else b

def readTransaction (payload : Bytes) (scheme : Scheme) (source : MetadataSource) (l : Limits) :
    Except DecodeFailure Review := do
  let f ← Framing.read payload scheme
  let body := f.body payload
  let (callLength, c) ← body.count 1 0
  let callStop := c.offset + callLength
  let x ← Extensions.read (.region payload callStop f.bodyStop)
  match source.entry f.network (UInt32.ofNat x.specVersion.value) with
  | .error e => .error (f.refused x.specVersion.span.start e)
  | .ok e =>
    f.checkScheme e
    if x.genesis.value ≠ f.network.bytes then
      .error ⟨.genesisMismatch, x.genesis.span.start, none⟩
    else
      let call ← readCall e l body.offset (.region payload c.offset callStop)
      return {
        cards := f.authorCard e :: call :: x.cards e.specs ++ [f.networkCard e payload.length]
        request := .sign ⟨f.signer, f.network, .transaction,
          signable ((payload.take f.bodyStop).drop c.offset)⟩ }

/-! ### Messages -/

/-- A message between the marks with which it is signed. -/
def wrapMessage (m : Bytes) : Bytes := Bytes.ofText "<Bytes>" ++ m ++ Bytes.ofText "</Bytes>"

/-- The text of a message, or its digits where it is none. -/
def messageText (m : Bytes) : String := m.toText?.getD (Hex.show0x m)

def readMessage (payload : Bytes) (scheme : Scheme) (source : MetadataSource) :
    Except DecodeFailure Review := do
  let f ← Framing.read payload scheme
  let body := f.body payload
  let (n, c) ← body.count 1 0
  let (m, c) ← c.take n
  if c.remaining ≠ 0 then c.fail (.trailingBytes c.remaining)
  else
    match source.latest f.network with
    | .error e => .error (f.refused f.bodyStop e)
    | .ok e =>
      f.checkScheme e
      return {
        cards := [f.authorCard e, ⟨.message, messageText m, 0, ⟨body.offset, c.offset⟩, []⟩,
          f.networkCard e payload.length]
        request := .sign ⟨f.signer, f.network, .message, wrapMessage m⟩ }

/-! ### Metadata -/

def readUpdate (payload : Bytes) : Except DecodeFailure Review := do
  let blobStart := Prelude.length + hashLength
  if payload.length < blobStart then .error ⟨.unexpectedEnd, Prelude.length, none⟩
  else
    let network : NetworkId := .fit 32 (payload.drop Prelude.length)
    match Entry.load network (payload.drop blobStart) with
    | .error f => .error (.ofRegistry blobStart (.malformed f.message))
    | .ok e =>
      let version := e.specs.name ++ " version " ++ toString e.specVersion.toNat
      return {
        cards := [⟨.network, network.text, 0, ⟨0, blobStart⟩, []⟩,
          ⟨.metadata, version, 0, ⟨blobStart, payload.length⟩, []⟩]
        request := .loadMetadata e }

/-! ### Requests -/

/-- A request of any kind. -/
def decodeRequest (payload : Bytes) (source : MetadataSource) (l : Limits) :
    Except DecodeFailure Review := do
  let p ← readPrelude payload
  match p.kind with
  | .transaction => readTransaction payload p.scheme source l
  | .message => readMessage payload p.scheme source
  | .loadMetadata => readUpdate payload

/-- A request of one kind. -/
def decodeKind (kind : RequestKind) (payload : Bytes) (source : MetadataSource) (l : Limits) :
    Except DecodeFailure Review := do
  let p ← readPrelude payload
  if p.kind = kind then decodeRequest payload source l else .error ⟨.invalidPrelude, 2, none⟩

end Review

end ColdSigner
