import ColdSigner.Proofs.Access.Tables
import ColdSigner.Proofs.Access.Window
import ColdSigner.Proofs.Review.Readers

/-! Values, read with checks.

The readers of values again, over windows: every byte is taken from the payload by its
position, and every position, shift and copy is checked. `follows_readValue` says that they
read what the readers without checks read, so no check is ever met. -/
namespace ColdSigner.Checked

open Review

/-- A window, and whether an unknown index has ended the reading. -/
structure Site where
  window : Window
  halted : Bool := false

/-- A checked reader of one card. -/
abbrev Reader := Site → Guarded DecodeFailure (Card × Site)

/-- A checked reader of a value of a type, with a hint, at an indent. -/
abbrev ValueReader := TypeId → Hint → Nat → Reader

def readInOrder (acc : List Card) : List Reader → Site → Guarded DecodeFailure (List Card × Site)
  | [], s => .ok (acc.reverse, s)
  | read :: rest, s =>
    if s.halted then .ok (acc.reverse, s)
    else do
      let (card, s) ← read s
      readInOrder (card :: acc) rest s

section

variable (e : Entry) (l : Limits)

def readText (indent : Nat) : Reader := fun s => do
  let (n, w) ← s.window.count 1 l.maxSequenceLength
  let (b, next) ← w.take n
  match b.toText? with
  | some t =>
    return (⟨.text, t, indent, ⟨s.window.pos, next.pos⟩, []⟩, { s with window := next })
  | none => w.fail .invalidUtf8

/-- The `n` bytes of a primitive. Those of an integer are copied to the front of sixteen. -/
def readFixed (t : Primitive) (n : Nat) (w : Window) : Guarded DecodeFailure (Bytes × Window) := do
  match t with
  | .bool =>
    let (b, w) ← w.take n
    return ([← itemAt b 0], w)
  | .char => w.array n
  | _ =>
    let (b, w) ← w.take n
    let filled ← overwrite (List.replicate 16 0) n b
    return (filled.take n, w)

def readPrimitive (t : Primitive) (hint : Hint) (indent : Nat) : Reader := fun s => do
  match t.width? with
  | none => readText l indent s
  | some n =>
    let (b, next) ← readFixed t n s.window
    match showPrimitive e.specs hint t b with
    | .ok (kind, value) =>
      return (⟨kind, value, indent, ⟨s.window.pos, next.pos⟩, []⟩, { s with window := next })
    | .error reason => s.window.fail reason

/-- Whether a number has bits beyond the first `bits`. A word of 128 bits has none beyond all. -/
def exceeds (bits v : Nat) : Guarded DecodeFailure Bool := do
  if bits < 128 then return (← shiftRight 128 v bits) != 0 else return false

def readCompact (inner : TypeId) (hint : Hint) (indent : Nat) : Reader := fun s => do
  match ← compactTarget? e.types inner with
  | none => failAt s.window.buffer ⟨.unknownType, s.window.pos, some inner⟩
  | some t =>
    let (v, next) ← s.window.integer
    if ← exceeds (t.width?.getD 16 * 8) v then s.window.fail .invalidCompact
    else
      let (kind, value) := showNumber e.specs hint v
      return (⟨kind, value, indent, ⟨s.window.pos, next.pos⟩, []⟩, { s with window := next })

def showHex (b : Bytes) : Guarded DecodeFailure String := return Hex.show0x b

/-- The address of a public key, with the first two bytes of a hash behind it. -/
def showAddress (format : UInt16) (key : Bytes) : Guarded DecodeFailure String := do
  let body := Address.formatBytes format ++ key
  let check := (Blake2b.hash 64 (Bytes.ofText "SS58PRE" ++ body)).bytes
  return Base58.encode (body ++ (← slice check 0 2))

def readBytes (kind : CardKind) (render : Bytes → Guarded DecodeFailure String)
    (n start indent : Nat) : Reader := fun s => do
  let (b, next) ← s.window.take n
  return (⟨kind, ← render b, indent, ⟨start, next.pos⟩, []⟩, { s with window := next })

variable (read : ValueReader)

def readContainer (kind : CardKind) (value : String) (indent : Nat) (head : Span)
    (readers : List Reader) : Reader := fun s => do
  let (children, s) ← readInOrder [] readers s
  return (⟨kind, value, indent, head, children⟩, s)

def readField (hint : Option Hint) (indent : Nat) (f : Field) : Reader := fun s => do
  let hint := hint.getD (.ofField f)
  match f.name with
  | none => read f.type hint indent s
  | some name =>
    let start := s.window.pos
    let (value, s) ← read f.type hint (indent + 1) s
    return (⟨.fieldName, name, indent, ⟨start, start⟩, [value]⟩, s)

def readSequence (inner : TypeId) (indent : Nat) : Reader := fun s => do
  let start := s.window.pos
  if e.types.isByte inner then
    let (n, w) ← s.window.count 1 l.maxSequenceLength
    readBytes .bytes showHex n start indent { s with window := w }
  else
    let (n, w) ← s.window.count (e.minSize inner) l.maxSequenceLength
    readContainer .sequence (itemCount n) indent ⟨start, w.pos⟩
      (List.replicate n (read inner .plain (indent + 1))) { s with window := w }

def readArray (length : UInt32) (inner : TypeId) (indent : Nat) : Reader := fun s => do
  let start := s.window.pos
  let n := length.toNat
  if e.types.isByte inner then readBytes .bytes showHex n start indent s
  else
    let minSize := e.minSize inner
    let remaining ← s.window.remaining
    if minSize = 0 ∧ l.maxSequenceLength < n then s.window.fail (.lengthOverrun n remaining)
    else if remaining < n * minSize then s.window.fail .unexpectedEnd
    else
      readContainer .sequence (itemCount n) indent ⟨start, start⟩
        (List.replicate n (read inner .plain (indent + 1))) s

/-- The rest of the region, after an index at `start` that selects nothing. -/
def readUnknown (what : String) (index start indent : Nat) : Reader := fun s => do
  let (b, next) ← s.window.takeAll
  let raw : Card := ⟨.raw, Hex.show0x b, indent + 1, ⟨s.window.pos, next.pos⟩, []⟩
  let behind ← further start 1 s.window.buffer.length
  return (⟨.unknownVariant, "unknown " ++ what ++ " " ++ toString index, indent,
    ⟨start, behind⟩, [raw]⟩, ⟨next, true⟩)

def readVariant (typeName : String) (variants : List Variant) (hint : Hint) (indent : Nat) :
    Reader := fun s => do
  let start := s.window.pos
  let (index, w) ← s.window.byte
  let (kind, what) := variantKind typeName hint
  match variants.find? (·.index.toNat == index) with
  | none => readUnknown what index start indent { s with window := w }
  | some v =>
    let fieldHint := if kind = .pallet then some Hint.call else none
    let behind ← further start 1 s.window.buffer.length
    readContainer kind v.name indent ⟨start, behind⟩
      (v.fields.map (readField read fieldHint (indent + 1))) { s with window := w }

def readDefinition (name : String) (d : TypeDef) (hint : Hint) (indent : Nat) : Reader := fun s =>
  let here : Span := ⟨s.window.pos, s.window.pos⟩
  match d with
  | .primitive t => readPrimitive e l t hint indent s
  | .compact inner => readCompact e inner hint indent s
  | .sequence inner => readSequence e l read inner indent s
  | .array length inner => readArray e l read length inner indent s
  | .tuple types =>
    readContainer .tuple name indent here (types.map fun t => read t .plain (indent + 1)) s
  | .composite fields =>
    readContainer .composite name indent here (fields.map (readField read none (indent + 1))) s
  | .variant variants => readVariant read name variants hint indent s

def readType (id : TypeId) (hint : Hint) (indent : Nat) : Reader := fun s => do
  match e.type? id with
  | none => failAt s.window.buffer ⟨.unknownType, s.window.pos, some id⟩
  | some t =>
    let start := s.window.pos
    let name := t.name
    let bytes ← byteArray? e.types id
    if name = "AccountId32" ∧ bytes = some 32 then
      readBytes .id (showAddress e.specs.addressFormat) 32 start indent s
    else if name = "H256" ∧ bytes = some 32 then
      readBytes .hash showHex 32 start indent s
    else readDefinition e l read name t.definition hint indent s

def readValue : Nat → ValueReader
  | 0, id, _, _, s =>
    failAt s.window.buffer ((⟨.tooDeep, s.window.pos, none⟩ : DecodeFailure).inType id)
  | n + 1, id, hint, indent, s =>
    match readType e l (readValue n) id hint indent s with
    | .ok r => .ok r
    | .error (.failure f) => .error (.failure (f.inType id))
    | .error (.violation v) => .error (.violation v)

/-- The cards of a payload that is one value of a type. -/
def decodeValue (payload : Bytes) (id : TypeId) : Guarded DecodeFailure (List Card) := do
  let start ← Window.start payload
  let (card, s) ← readValue e l (l.maxDepth + 1) id .plain 0 ⟨start, false⟩
  let remaining ← s.window.remaining
  if remaining = 0 then return [card] else s.window.fail (.trailingBytes remaining)

end

/-! ### The same cards -/

/-- A site in the payload that shows a place. -/
structure At (payload : Bytes) (s : Site) (p : Place) : Prop where
  shows : Shows payload s.window p.cursor
  halted : s.halted = p.halted

/-- The same was read of the payload, a card or several of them, up to the same place. -/
def SameCard (payload : Bytes) {α : Type} (x : α × Site) (y : α × Place) : Prop :=
  x.1 = y.1 ∧ At payload x.2 y.2

/-- A checked reader of the same cards. -/
def Safe (payload : Bytes) (g : Reader) (r : ReadCard) : Prop :=
  ∀ s p, At payload s p → FollowsIn payload (SameCard payload) (g s) (r p)

theorem card_bind {α γ δ : Type} {payload : Bytes} {R : γ → δ → Prop}
    {x : Guarded DecodeFailure (α × Site)} {y : Except DecodeFailure (α × Place)}
    {f : α × Site → Guarded DecodeFailure γ} {g : α × Place → Except DecodeFailure δ}
    (h : FollowsIn payload (SameCard payload) x y)
    (rest : ∀ a s p, At payload s p → FollowsIn payload R (f (a, s)) (g (a, p))) :
    FollowsIn payload R (x >>= f) (y >>= g) := by
  refine h.bind fun a b same _ => ?_
  obtain ⟨a, s⟩ := a
  obtain ⟨b, p⟩ := b
  obtain ⟨rfl, at_place⟩ := same
  exact rest _ s p at_place

variable {e : Entry} {l : Limits} {payload : Bytes} {s : Site} {p : Place} {indent : Nat} {hint : Hint}

/-- The card of what was read, over the bytes that were read. -/
theorem sameCard_leaf {w : Window} {c : Cursor} {kind : CardKind} {value : String} {start : Nat}
    (h : At payload s p) (hw : Shows payload w c) (hstart : start = p.cursor.offset) :
    @SameCard payload Card (⟨kind, value, indent, ⟨start, w.pos⟩, []⟩, { s with window := w })
      (⟨kind, value, indent, ⟨p.cursor.offset, c.offset⟩, []⟩, { p with cursor := c }) :=
  ⟨by rw [hstart, hw.pos], hw, h.halted⟩

theorem safe_readText : Safe payload (readText l indent) (Review.readText l indent) := by
  intro s p h
  refine follows_bind (Window.follows_count h.shows 1 l.maxSequenceLength) fun n w c hw _ => ?_
  refine follows_bind (Window.follows_take hw n) fun b w' c' hw' _ => ?_
  dsimp only
  cases b.toText? with
  | some t => exact .ok (sameCard_leaf h hw' h.shows.pos)
  | none => exact Window.follows_fail hw

theorem width_le {t : Primitive} {n : Nat} (h : t.width? = some n) : n ≤ 16 := by
  cases t <;> simp [Primitive.width?] at h <;> omega

theorem follows_readFixed {t : Primitive} {n : Nat} (width : t.width? = some n) {w : Window}
    {c : Cursor} (h : Shows payload w c) :
    FollowsIn payload (SameRead payload) (readFixed t n w) (c.take n) := by
  have hfits : n ≤ (List.replicate 16 (0 : UInt8)).length := width_le width
  have hinteger : FollowsIn payload (SameRead payload)
      (w.take n >>= fun r => overwrite (List.replicate 16 0) n r.1 >>= fun filled =>
        pure (filled.take n, r.2)) (c.take n) := by
    refine Window.follows_taken h fun b w' length => ?_
    subst length
    rw [overwrite_eq hfits, ok_bind, List.take_left]
    rfl
  cases t with
  | bool =>
    obtain rfl := Option.some.inj width
    refine Window.follows_taken h fun b w' length => ?_
    obtain ⟨x, rfl⟩ := List.length_eq_one_iff.1 length
    rfl
  | char => exact Window.follows_array h n
  | str => cases width
  | _ => exact hinteger

theorem safe_readPrimitive {t : Primitive} :
    Safe payload (readPrimitive e l t hint indent) (Review.readPrimitive e l t hint indent) := by
  intro s p h
  rw [readPrimitive, Review.readPrimitive]
  cases width : t.width? with
  | none => exact safe_readText s p h
  | some n =>
    refine follows_bind (follows_readFixed width h.shows) fun b w c hw _ => ?_
    dsimp only
    cases showPrimitive e.specs hint t b with
    | ok shown => exact .ok (sameCard_leaf h hw h.shows.pos)
    | error reason => exact Window.follows_fail h.shows

/-- A number has bits beyond those of `width` bytes if these do not hold it. -/
theorem exceeds_eq {width v : Nat} (h : v < 256 ^ 16) :
    exceeds (width * 8) v = .ok (decide (Nat.pow 256 width ≤ v)) := by
  show _ = Except.ok (decide (256 ^ width ≤ v))
  have hpow : 256 ^ width = 2 ^ (width * 8) := by
    rw [Nat.mul_comm, Nat.pow_mul]
  rw [exceeds, hpow]
  by_cases hwide : width * 8 < 128
  · rw [if_pos hwide, shiftRight_eq hwide, ok_bind, Nat.shiftRight_eq_div_pow]
    refine congrArg Except.ok ?_
    rw [Bool.eq_iff_iff]
    simp [Nat.div_eq_zero_iff]
  · have hlarge : 256 ^ 16 ≤ 2 ^ (width * 8) := by
      rw [Wire.Compact.pow_256]
      exact Nat.pow_le_pow_right (by decide) (by omega)
    rw [if_neg hwide, decide_eq_false (by omega)]
    rfl

theorem safe_readCompact {inner : TypeId} :
    Safe payload (readCompact e inner hint indent) (Review.readCompact e inner hint indent) := by
  intro s p h
  rw [readCompact, Review.readCompact, compactTarget?_eq, ok_bind]
  cases e.types.compactTarget? inner with
  | none =>
    dsimp only
    rw [h.shows.buffer, h.shows.pos]
    exact follows_failAt h.shows.offset_le
  | some t =>
    refine follows_bind (Window.follows_integer h.shows) fun v w c hw read => ?_
    dsimp only
    rw [exceeds_eq (Cursor.integer_eq_ok.1 read).1, ok_bind]
    by_cases hlarge : Nat.pow 256 (t.width?.getD 16) ≤ v
    · rw [decide_eq_true hlarge, if_pos rfl, if_pos hlarge]
      exact Window.follows_fail h.shows
    · rw [decide_eq_false hlarge, if_neg Bool.false_ne_true, if_neg hlarge]
      exact .ok (sameCard_leaf h hw h.shows.pos)

theorem showAddress_eq (format : UInt16) (key : Bytes) :
    showAddress format key = .ok (Address.encode format key) := by
  have hcheck (b : Bytes) : 2 ≤ (Blake2b.hash 64 b).bytes.length := by
    rw [FixedBytes.length_eq]
    decide
  rw [showAddress, slice_eq (Nat.zero_le _) (hcheck _), ok_bind, List.drop_zero]
  rfl

theorem follows_readBytes {kind : CardKind} {render : Bytes → Guarded DecodeFailure String}
    {render' : Bytes → String} {n : Nat} (h : At payload s p)
    (same : ∀ b, render b = .ok (render' b)) {start start' : Nat} (hstart : start = start') :
    FollowsIn payload (SameCard payload) (readBytes kind render n start indent s)
      (Review.readBytes kind render' n start' indent p) := by
  refine follows_bind (Window.follows_take h.shows n) fun b w c hw _ => ?_
  dsimp only
  rw [same, ok_bind, hstart, hw.pos]
  exact .ok ⟨rfl, hw, h.halted⟩

/-! ### Readers of parts -/

theorem follows_readInOrder {α : Type} {xs : List α} {g : α → Reader} {r : α → ReadCard}
    {acc : List Card} (h : At payload s p) (each : ∀ x ∈ xs, Safe payload (g x) (r x)) :
    FollowsIn payload (SameCard payload) (readInOrder acc (xs.map g) s)
      (Review.readInOrder acc (xs.map r) p) := by
  induction xs generalizing acc s p with
  | nil => exact .ok ⟨rfl, h⟩
  | cons x xs ih =>
    rw [List.forall_mem_cons] at each
    rw [List.map_cons, List.map_cons, readInOrder, Review.readInOrder, h.halted]
    split
    · exact .ok ⟨rfl, h⟩
    · have hx := each.1 s p h
      generalize g x s = a at hx ⊢
      generalize r x p = b at hx ⊢
      cases hx with
      | failure holds => exact .failure holds
      | @ok a b same =>
        obtain ⟨card, s'⟩ := a
        obtain ⟨card', p'⟩ := b
        obtain ⟨rfl, h'⟩ := same
        exact ih h' each.2

theorem follows_readContainer {α : Type} {xs : List α} {g : α → Reader} {r : α → ReadCard}
    {kind : CardKind} {value : String} {head head' : Span} (h : At payload s p)
    (hhead : head = head') (each : ∀ x ∈ xs, Safe payload (g x) (r x)) :
    FollowsIn payload (SameCard payload) (readContainer kind value indent head (xs.map g) s)
      (Review.readContainer kind value indent head' (xs.map r) p) := by
  refine card_bind (follows_readInOrder h each) fun children s p h => ?_
  exact .ok ⟨by rw [hhead], h⟩

/-- The position behind an index is the next one. -/
theorem further_of_number {w : Window} {c d : Cursor} {v : Nat} (h : Shows payload w c)
    (read : c.number 1 = .ok (v, d)) (inside : d.offset ≤ payload.length) :
    (further w.pos 1 w.buffer.length : Guarded DecodeFailure Nat) = .ok d.offset := by
  have hoffset : d.offset = c.offset + 1 := by
    obtain ⟨b, hlength, -, hd⟩ := Cursor.number_eq_ok.1 read
    rw [hd.offset, hlength]
  rw [h.pos, h.buffer, further_eq (hoffset ▸ inside), hoffset]

section

variable {read : ValueReader} {read' : ReadValue}
  (hread : ∀ id hint indent, Safe payload (read id hint indent) (read' id hint indent))

include hread

theorem safe_readField (hint : Option Hint) (indent : Nat) (f : Field) :
    Safe payload (readField read hint indent f) (Review.readField read' hint indent f) := by
  intro s p h
  rw [readField, Review.readField]
  cases f.name with
  | none => exact hread _ _ _ s p h
  | some name =>
    refine card_bind (hread _ _ _ s p h) fun value s' p' h' => ?_
    exact .ok ⟨by rw [h.shows.pos], h'⟩

theorem safe_readSequence {inner : TypeId} :
    Safe payload (readSequence e l read inner indent) (Review.readSequence e l read' inner indent) := by
  intro s p h
  rw [readSequence, Review.readSequence]
  split
  · refine follows_bind (Window.follows_count h.shows ..) fun n w c hw _ => ?_
    exact follows_readBytes (s := ⟨w, s.halted⟩) (p := ⟨c, p.halted⟩) ⟨hw, h.halted⟩ (fun _ => rfl)
      h.shows.pos
  · refine follows_bind (Window.follows_count h.shows ..) fun n w c hw _ => ?_
    dsimp only
    rw [replicate_eq_map, replicate_eq_map n (read' inner .plain _)]
    exact follows_readContainer ⟨hw, h.halted⟩ (by rw [h.shows.pos, hw.pos]) fun _ _ => hread _ _ _

theorem safe_readArray {length : UInt32} {inner : TypeId} :
    Safe payload (readArray e l read length inner indent)
      (Review.readArray e l read' length inner indent) := by
  intro s p h
  rw [readArray, Review.readArray]
  dsimp only
  split
  · exact follows_readBytes h (fun _ => rfl) h.shows.pos
  · rw [Window.remaining_eq h.shows, ok_bind]
    split
    · exact Window.follows_fail h.shows
    · split
      · exact Window.follows_fail h.shows
      · rw [replicate_eq_map, replicate_eq_map length.toNat (read' inner .plain _)]
        exact follows_readContainer h (by rw [h.shows.pos]) fun _ _ => hread _ _ _

theorem safe_readVariant {name : String} {variants : List Variant} :
    Safe payload (readVariant read name variants hint indent)
      (Review.readVariant read' name variants hint indent) := by
  intro s p h
  rw [readVariant, Review.readVariant]
  refine follows_bind (Window.follows_byte h.shows) fun index w c hw hindex => ?_
  have behind := further_of_number h.shows hindex hw.offset_le
  dsimp only
  cases variants.find? (·.index.toNat == index) with
  | none =>
    obtain ⟨w', htake, hw'⟩ := @Window.exists_takeAll DecodeFailure payload w c hw
    dsimp only
    rw [readUnknown, htake, ok_bind]
    dsimp only
    rw [hw.buffer.trans h.shows.buffer.symm, behind, ok_bind]
    refine .ok ⟨?_, hw', rfl⟩
    rw [h.shows.pos, hw.pos, hw'.pos]
    rfl
  | some v =>
    dsimp only
    rw [behind, ok_bind]
    exact follows_readContainer ⟨hw, h.halted⟩ (by rw [h.shows.pos]) fun f _ =>
      safe_readField hread _ _ f

theorem safe_readDefinition {name : String} {d : TypeDef} :
    Safe payload (readDefinition e l read name d hint indent)
      (Review.readDefinition e l read' name d hint indent) := by
  intro s p h
  have here : (⟨s.window.pos, s.window.pos⟩ : Span) = ⟨p.cursor.offset, p.cursor.offset⟩ := by
    rw [h.shows.pos]
  cases d with
  | primitive t => exact safe_readPrimitive s p h
  | compact inner => exact safe_readCompact s p h
  | sequence inner => exact safe_readSequence hread s p h
  | array length inner => exact safe_readArray hread s p h
  | tuple types => exact follows_readContainer h here fun _ _ => hread _ _ _
  | composite fields => exact follows_readContainer h here fun f _ => safe_readField hread _ _ f
  | variant variants => exact safe_readVariant hread s p h

theorem safe_readType {id : TypeId} :
    Safe payload (readType e l read id hint indent) (Review.readType e l read' id hint indent) := by
  intro s p h
  rw [readType, Review.readType, Entry.lookup]
  cases e.type? id with
  | none =>
    dsimp only
    rw [h.shows.buffer, h.shows.pos]
    exact follows_failAt h.shows.offset_le
  | some t =>
    dsimp only
    rw [byteArray?_eq, ok_bind]
    split
    · exact follows_readBytes h (showAddress_eq _) h.shows.pos
    · split
      · exact follows_readBytes h (fun _ => rfl) h.shows.pos
      · exact safe_readDefinition hread s p h

end

theorem safe_readValue (n : Nat) (id : TypeId) (hint : Hint) (indent : Nat) :
    Safe payload (readValue e l n id hint indent) (Review.readValue e l n id hint indent) := by
  induction n generalizing id hint indent with
  | zero =>
    intro s p h
    rw [readValue, Review.readValue, h.shows.buffer, h.shows.pos]
    exact follows_failAt h.shows.offset_le
  | succ n ih =>
    intro s p h
    rw [readValue, Review.readValue]
    have htype : FollowsIn payload (SameCard payload)
        (readType e l (readValue e l n) id hint indent s)
        (Review.readType e l (Review.readValue e l n) id hint indent p) := safe_readType ih s p h
    generalize readType e l (readValue e l n) id hint indent s = x at htype ⊢
    generalize Review.readType e l (Review.readValue e l n) id hint indent p = y at htype ⊢
    cases htype with
    | ok same => exact .ok same
    | failure holds => exact .failure holds

theorem follows_decodeValue (e : Entry) (l : Limits) (payload : Bytes) (id : TypeId) :
    FollowsIn payload Eq (decodeValue e l payload id) (Review.decodeValue e l payload id) := by
  obtain ⟨w, hstart, hw⟩ := @Window.exists_start DecodeFailure payload
  rw [decodeValue, hstart, ok_bind]
  refine card_bind (safe_readValue _ id .plain 0 ⟨w, false⟩ _ ⟨hw, rfl⟩) fun card s p h => ?_
  dsimp only
  rw [Window.remaining_eq h.shows, ok_bind]
  split
  · exact .ok rfl
  · exact Window.follows_fail h.shows

end ColdSigner.Checked
