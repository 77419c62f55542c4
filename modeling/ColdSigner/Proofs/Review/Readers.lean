import ColdSigner.Proofs.Wire.CompactForm
import ColdSigner.Review.Value

/-! The shapes of value readers.

Whatever its type, a value is read in one of two ways. A leaf takes bytes and shows
them in a card of its own. A branch takes a head, which selects the parts that
follow, and shows them below its card; a head that selects nothing ends the
reading, and what is left is shown as raw bytes. `ValueReader` says that a reader
is built from these two, and `valueReader` that every reader of a value is. What
holds of all cards is then proved by induction on this structure. -/
namespace ColdSigner.Review

/-! ### One reader after another -/

/-- Readers in turn give cards, as long as the reading goes on. -/
inductive InOrder : List ReadCard → Place → List Card → Place → Prop where
  | done (p : Place) : InOrder [] p [] p
  | halted {readers : List ReadCard} {p : Place} (ended : p.halted = true) :
      InOrder readers p [] p
  | read {r : ReadCard} {rest : List ReadCard} {p q s : Place} {c : Card} {cards : List Card}
      (going : p.halted = false) (first : r p = .ok (c, q)) (others : InOrder rest q cards s) :
      InOrder (r :: rest) p (c :: cards) s

/-- Equal readers are one reader for each of as many things. -/
theorem replicate_eq_map {α : Type} (n : Nat) (a : α) :
    List.replicate n a = (List.replicate n ()).map fun _ => a := by
  rw [List.map_replicate]

theorem readInOrder_eq_ok {acc cards : List Card} {readers : List ReadCard} {p q : Place} :
    readInOrder acc readers p = .ok (cards, q) ↔
      ∃ own, cards = acc.reverse ++ own ∧ InOrder readers p own q := by
  induction readers generalizing acc p with
  | nil =>
    rw [readInOrder, Except.ok.injEq, Prod.mk.injEq]
    constructor
    · intro h
      obtain ⟨rfl, rfl⟩ := h
      exact ⟨[], (List.append_nil _).symm, .done p⟩
    · intro h
      obtain ⟨own, rfl, h⟩ := h
      cases h with
      | done => exact ⟨(List.append_nil _).symm, rfl⟩
      | halted => exact ⟨(List.append_nil _).symm, rfl⟩
  | cons r rest ih =>
    rw [readInOrder]
    by_cases hp : p.halted = true
    · rw [if_pos hp, Except.ok.injEq, Prod.mk.injEq]
      constructor
      · intro h
        obtain ⟨rfl, rfl⟩ := h
        exact ⟨[], (List.append_nil _).symm, .halted hp⟩
      · intro h
        obtain ⟨own, rfl, h⟩ := h
        cases h with
        | halted => exact ⟨(List.append_nil _).symm, rfl⟩
        | read going => exact absurd hp (by simp [going])
    · have going : p.halted = false := by simpa using hp
      rw [if_neg hp]
      constructor
      · intro h
        split at h
        · cases h
        · next c p' hr =>
          obtain ⟨own, rfl, ho⟩ := ih.1 h
          exact ⟨c :: own, by simp, .read going hr ho⟩
      · intro h
        obtain ⟨own, rfl, h⟩ := h
        cases h with
        | halted ended => exact absurd ended hp
        | read _ first others =>
          rw [first]
          exact ih.2 ⟨_, by simp, others⟩

theorem readContainer_eq_ok {kind : CardKind} {value : String} {indent : Nat} {head : Span}
    {readers : List ReadCard} {p q : Place} {c : Card} :
    readContainer kind value indent head readers p = .ok (c, q) ↔
      ∃ children, InOrder readers p children q ∧ c = ⟨kind, value, indent, head, children⟩ := by
  simp only [readContainer, bind_eq_ok, pure_eq_ok, Prod.exists, Prod.mk.injEq, readInOrder_eq_ok]
  constructor
  · intro h
    obtain ⟨cards, p', ⟨own, rfl, h⟩, rfl, rfl⟩ := h
    exact ⟨_, h, rfl⟩
  · intro h
    obtain ⟨children, h, rfl⟩ := h
    exact ⟨children, q, ⟨children, rfl, h⟩, rfl, rfl⟩

/-! ### Leaves -/

/-- Which bytes a leaf shows as which kind and value. -/
abbrev Shows := Bytes → CardKind → String → Prop

/-- A reader of bytes that it shows in one card. -/
def IsLeaf (indent : Nat) (shows : Shows) (read : ReadCard) : Prop :=
  ∀ p c q, read p = .ok (c, q) ↔
    ∃ b kind value, shows b kind value ∧ p.cursor.Consumes b q.cursor ∧ q.halted = p.halted ∧
      c = ⟨kind, value, indent, ⟨p.cursor.offset, q.cursor.offset⟩, []⟩

/-- A text behind its length. -/
def ShowsText : Shows := fun b kind value =>
  kind = .text ∧ (Bytes.ofText value).length < 256 ^ 16 ∧
    b = Wire.Compact.encode (Bytes.ofText value).length ++ Bytes.ofText value

/-- Bytes of a fixed number. -/
def ShowsPrimitive (specs : NetworkSpecs) (hint : Hint) (t : Primitive) (n : Nat) : Shows :=
  fun b kind value => b.length = n ∧ showPrimitive specs hint t b = .ok (kind, value)

/-- A number below `limit` in compact form. -/
def ShowsCompact (specs : NetworkSpecs) (hint : Hint) (limit : Nat) : Shows := fun b kind value =>
  ∃ n, n < 256 ^ 16 ∧ n < limit ∧ b = Wire.Compact.encode n ∧
    showNumber specs hint n = (kind, value)

/-- Bytes of a known number, shown by `render`. -/
def ShowsBytes (shown : CardKind) (render : Bytes → String) (n : Nat) : Shows :=
  fun b kind value => b.length = n ∧ kind = shown ∧ value = render b

/-- Bytes behind their number. -/
def ShowsCounted : Shows := fun b kind value =>
  ∃ d : Bytes, d.length < 256 ^ 16 ∧ b = Wire.Compact.encode d.length ++ d ∧
    kind = .bytes ∧ value = Hex.show0x d

@[ext] theorem Place.ext {p q : Place} (hcursor : p.cursor = q.cursor)
    (hhalted : p.halted = q.halted) : p = q := by
  cases p
  cases q
  simp_all

section

variable {e : Entry} {l : Limits} {indent : Nat}

theorem isLeaf_readText : IsLeaf indent ShowsText (readText l indent) := by
  intro p c q
  simp only [readText, bind_eq_ok, Prod.exists, Cursor.count_eq_ok, Cursor.take_eq_ok]
  constructor
  · intro h
    obtain ⟨n, d, ⟨hn, hd, -⟩, b, next, ⟨hl, hb⟩, h⟩ := h
    split at h
    · next s hs =>
      obtain ⟨rfl, rfl⟩ := Prod.mk.inj (pure_eq_ok.1 h)
      obtain rfl := Bytes.ofText_of_toText? hs
      subst hl
      exact ⟨_, _, _, ⟨rfl, hn, rfl⟩, hd.trans hb, rfl, rfl⟩
    · cases h
  · intro h
    obtain ⟨b, kind, value, ⟨rfl, hn, rfl⟩, h, hhalted, rfl⟩ := h
    obtain ⟨d, hd, hnext⟩ := h.split
    refine ⟨_, d, ⟨hn, hd, ?_⟩, Bytes.ofText value, q.cursor, ⟨rfl, hnext⟩, ?_⟩
    · rw [if_neg Nat.one_ne_zero, d.remaining_eq, hnext.rest, List.length_append]
      omega
    · rw [Bytes.toText?_ofText]
      exact pure_eq_ok.2 (Prod.ext rfl (Place.ext rfl hhalted.symm))

theorem isLeaf_readPrimitive {t : Primitive} {n : Nat} {hint : Hint} (hn : t.width? = some n) :
    IsLeaf indent (ShowsPrimitive e.specs hint t n) (readPrimitive e l t hint indent) := by
  intro p c q
  simp only [readPrimitive, hn, bind_eq_ok, Prod.exists, Cursor.take_eq_ok]
  constructor
  · intro h
    obtain ⟨b, next, ⟨hl, hb⟩, h⟩ := h
    split at h
    · next kind value hs =>
      obtain ⟨rfl, rfl⟩ := Prod.mk.inj (pure_eq_ok.1 h)
      exact ⟨b, kind, value, ⟨hl, hs⟩, hb, rfl, rfl⟩
    · cases h
  · intro h
    obtain ⟨b, kind, value, ⟨hl, hs⟩, h, hhalted, rfl⟩ := h
    refine ⟨b, q.cursor, ⟨hl, h⟩, ?_⟩
    rw [hs]
    exact pure_eq_ok.2 (Prod.ext rfl (Place.ext rfl hhalted.symm))

theorem isLeaf_readCompact {inner : TypeId} {t : Primitive} {hint : Hint}
    (ht : e.types.compactTarget? inner = some t) :
    IsLeaf indent (ShowsCompact e.specs hint (256 ^ t.width?.getD 16))
      (readCompact e inner hint indent) := by
  intro p c q
  simp only [readCompact, ht, bind_eq_ok, Prod.exists, Cursor.integer_eq_ok]
  constructor
  · intro h
    obtain ⟨n, next, ⟨hn, hb⟩, h⟩ := h
    split at h
    · cases h
    · next hlimit =>
      obtain ⟨rfl, rfl⟩ := Prod.mk.inj (pure_eq_ok.1 h)
      exact ⟨_, _, _, ⟨n, hn, Nat.lt_of_not_le hlimit, rfl, rfl⟩, hb, rfl, rfl⟩
  · intro h
    obtain ⟨b, kind, value, ⟨n, hn, hlimit, rfl, hs⟩, h, hhalted, rfl⟩ := h
    refine ⟨n, q.cursor, ⟨hn, h⟩, ?_⟩
    rw [if_neg (show ¬ Nat.pow 256 _ ≤ n from Nat.not_le.2 hlimit), hs]
    exact pure_eq_ok.2 (Prod.ext rfl (Place.ext rfl hhalted.symm))

theorem isLeaf_readBytes {kind : CardKind} {render : Bytes → String} {n : Nat} :
    IsLeaf indent (ShowsBytes kind render n)
      (fun p => readBytes kind render n p.cursor.offset indent p) := by
  intro p c q
  simp only [readBytes, bind_eq_ok, Prod.exists, Cursor.take_eq_ok, pure_eq_ok, Prod.mk.injEq]
  constructor
  · intro h
    obtain ⟨b, next, ⟨hl, hb⟩, rfl, rfl⟩ := h
    exact ⟨b, _, _, ⟨hl, rfl, rfl⟩, hb, rfl, rfl⟩
  · intro h
    obtain ⟨b, kind, value, ⟨hl, rfl, rfl⟩, h, hhalted, rfl⟩ := h
    exact ⟨b, q.cursor, ⟨hl, h⟩, rfl, Place.ext rfl hhalted.symm⟩

theorem isLeaf_readSequence {read : ReadValue} {inner : TypeId} (hbyte : e.types.isByte inner) :
    IsLeaf indent ShowsCounted (readSequence e l read inner indent) := by
  intro p c q
  simp only [readSequence, hbyte, if_true, readBytes, bind_eq_ok, Prod.exists, Cursor.count_eq_ok,
    Cursor.take_eq_ok, pure_eq_ok, Prod.mk.injEq]
  constructor
  · intro h
    obtain ⟨n, d, ⟨hn, hd, -⟩, b, next, ⟨rfl, hb⟩, rfl, rfl⟩ := h
    exact ⟨_, _, _, ⟨b, hn, rfl, rfl, rfl⟩, hd.trans hb, rfl, rfl⟩
  · intro h
    obtain ⟨_, kind, value, ⟨b, hn, rfl, rfl, rfl⟩, h, hhalted, rfl⟩ := h
    obtain ⟨d, hd, hnext⟩ := h.split
    refine ⟨b.length, d, ⟨hn, hd, ?_⟩, b, q.cursor, ⟨rfl, hnext⟩, rfl, Place.ext rfl hhalted.symm⟩
    rw [if_neg Nat.one_ne_zero, d.remaining_eq, hnext.rest, List.length_append]
    omega

end

/-! ### Branches -/

/-- What a head selects: how the card is called, and which parts follow. -/
structure Opening where
  head : Bytes
  kind : CardKind
  value : String
  parts : List ReadCard
  /-- The bytes that must be left for the parts. -/
  need : Nat := 0

/-- The card of an index that selects nothing, over the rest of the region as raw bytes. -/
def unknownCard (label : String) (indent start : Nat) (c : Cursor) : Card :=
  ⟨.unknownVariant, label, indent, ⟨start, c.offset⟩,
    [⟨.raw, Hex.show0x c.rest, indent + 1, ⟨c.offset, c.stop⟩, []⟩]⟩

/-- The place at the stop of a region whose reading has ended. -/
def Ended (c : Cursor) (q : Place) : Prop := c.Consumes c.rest q.cursor ∧ q.halted = true

/-- A reader of one of the `openings` with its parts, or of a head that `unknown` gives a label. -/
def IsBranch (indent : Nat) (openings : Opening → Prop) (unknown : Bytes → String → Prop)
    (read : ReadCard) : Prop :=
  ∀ p c q, p.halted = false → (read p = .ok (c, q) ↔
    (∃ o d children, openings o ∧ p.cursor.Consumes o.head d ∧ o.need ≤ d.remaining ∧
      InOrder o.parts ⟨d, false⟩ children q ∧
      c = ⟨o.kind, o.value, indent, ⟨p.cursor.offset, d.offset⟩, children⟩) ∨
    ∃ head label d, unknown head label ∧ p.cursor.Consumes head d ∧ Ended d q ∧
      c = unknownCard label indent p.cursor.offset d)

/-- No head is unknown. -/
abbrev noUnknown : Bytes → String → Prop := fun _ _ => False

/-- The heads of a sequence of `part`, which takes `size` bytes at least. -/
def SequenceOpening (limit size : Nat) (part : ReadCard) (o : Opening) : Prop :=
  ∃ n, n < 256 ^ 16 ∧ (size = 0 → n ≤ limit) ∧
    o = ⟨Wire.Compact.encode n, .sequence, itemCount n, List.replicate n part, n * size⟩

/-- The head of an array, which is empty. -/
def ArrayOpening (limit size n : Nat) (part : ReadCard) (o : Opening) : Prop :=
  (size = 0 → n ≤ limit) ∧ o = ⟨[], .sequence, itemCount n, List.replicate n part, n * size⟩

/-- The variant that an index selects. -/
def selected? (variants : List Variant) (index : UInt8) : Option Variant :=
  variants.find? (·.index.toNat == index.toNat)

/-- The heads of variants. -/
def VariantOpening (variants : List Variant) (kind : CardKind) (parts : Variant → List ReadCard)
    (o : Opening) : Prop :=
  ∃ index v, selected? variants index = some v ∧ o = ⟨[index], kind, v.name, parts v, 0⟩

/-- The heads that no variant has. -/
def UnknownIndex (variants : List Variant) (what : String) (head : Bytes) (label : String) : Prop :=
  ∃ index : UInt8, selected? variants index = none ∧ head = [index] ∧
    label = "unknown " ++ what ++ " " ++ toString index.toNat

section

variable {e : Entry} {l : Limits} {indent : Nat} {read : ReadValue}

/-- A container without a head. -/
theorem isBranch_readContainer {kind : CardKind} {value : String} {parts : List ReadCard} :
    IsBranch indent (· = ⟨[], kind, value, parts, 0⟩) noUnknown
      (fun p => readContainer kind value indent ⟨p.cursor.offset, p.cursor.offset⟩ parts p) := by
  intro p c q going
  simp only [readContainer_eq_ok, false_and, exists_false, or_false]
  have hp : p = ⟨p.cursor, false⟩ := Place.ext rfl going
  constructor
  · intro h
    obtain ⟨children, h, rfl⟩ := h
    exact ⟨_, p.cursor, children, rfl, .refl _, Nat.zero_le _, hp ▸ h, rfl⟩
  · intro h
    obtain ⟨o, d, children, rfl, hd, -, h, rfl⟩ := h
    obtain rfl := (Cursor.Consumes.refl _).unique hd
    exact ⟨children, by rw [hp]; exact h, rfl⟩

theorem isBranch_readField {f : Field} {hint : Option Hint} {name : String} (hf : f.name = some name) :
    IsBranch indent
      (· = ⟨[], .fieldName, name, [read f.type (hint.getD (.ofField f)) (indent + 1)], 0⟩) noUnknown
      (readField read hint indent f) := by
  intro p c q going
  rw [← isBranch_readContainer p c q going, readContainer_eq_ok]
  simp only [readField, hf, bind_eq_ok, Prod.exists, pure_eq_ok, Prod.mk.injEq]
  constructor
  · intro h
    obtain ⟨value, p', h, rfl, rfl⟩ := h
    exact ⟨[value], .read going h (.done _), rfl⟩
  · intro h
    obtain ⟨children, h, rfl⟩ := h
    cases h with
    | halted ended => exact absurd ended (by simp [going])
    | read _ first others =>
      cases others with
      | done => exact ⟨_, _, first, rfl, rfl⟩
      | halted => exact ⟨_, _, first, rfl, rfl⟩

theorem isBranch_readSequence {inner : TypeId} (hbyte : e.types.isByte inner = false) :
    IsBranch indent
      (SequenceOpening l.maxSequenceLength (e.minSize inner) (read inner .plain (indent + 1)))
      noUnknown (readSequence e l read inner indent) := by
  intro p c q going
  simp only [readSequence, hbyte, Bool.false_eq_true, if_false, bind_eq_ok, Prod.exists,
    Cursor.count_eq_ok, readContainer_eq_ok, false_and, exists_false, or_false]
  constructor
  · intro h
    obtain ⟨n, d, ⟨hn, hd, hfits⟩, children, h, rfl⟩ := h
    refine ⟨_, d, children, ⟨n, hn, ?_, rfl⟩, hd, ?_, ?_, rfl⟩
    · intro hs
      rwa [if_pos hs] at hfits
    · by_cases hs : e.minSize inner = 0
      · rw [hs, Nat.mul_zero]
        exact Nat.zero_le _
      · rwa [if_neg hs] at hfits
    · rwa [going] at h
  · intro h
    obtain ⟨o, d, children, ⟨n, hn, hlimit, rfl⟩, hd, hneed, h, rfl⟩ := h
    refine ⟨n, d, ⟨hn, hd, ?_⟩, children, by rwa [going], rfl⟩
    split
    · next hs => exact hlimit hs
    · exact hneed

theorem isBranch_readArray {length : UInt32} {inner : TypeId} (hbyte : e.types.isByte inner = false) :
    IsBranch indent
      (ArrayOpening l.maxSequenceLength (e.minSize inner) length.toNat
        (read inner .plain (indent + 1)))
      noUnknown (readArray e l read length inner indent) := by
  intro p c q going
  have hp : p = ⟨p.cursor, false⟩ := Place.ext rfl going
  simp only [readArray, hbyte, Bool.false_eq_true, if_false, false_and, exists_false, or_false]
  constructor
  · intro h
    split at h
    · cases h
    · next hlimit =>
      split at h
      · cases h
      · next hneed =>
        obtain ⟨children, ho, rfl⟩ := readContainer_eq_ok.1 h
        exact ⟨_, p.cursor, children, ⟨fun hs => by omega, rfl⟩, .refl _,
          Nat.le_of_not_lt hneed, hp ▸ ho, rfl⟩
  · intro h
    obtain ⟨o, d, children, ⟨hlimit, rfl⟩, hd, hneed, h, rfl⟩ := h
    obtain rfl := (Cursor.Consumes.refl _).unique hd
    rw [if_neg (by omega), if_neg (Nat.not_lt.2 hneed)]
    exact readContainer_eq_ok.2 ⟨children, by rw [hp]; exact h, rfl⟩

theorem readUnknown_eq_ok {what : String} {index start : Nat} {p q : Place} {c : Card} :
    readUnknown what index start indent p = .ok (c, q) ↔
      Ended p.cursor q ∧
        c = unknownCard ("unknown " ++ what ++ " " ++ toString index) indent start p.cursor := by
  have hall := p.cursor.consumes_takeAll
  simp only [readUnknown, Except.ok.injEq, Prod.mk.injEq, Ended, unknownCard,
    Cursor.offset_takeAll]
  constructor
  · intro h
    obtain ⟨rfl, rfl⟩ := h
    exact ⟨⟨hall, rfl⟩, rfl⟩
  · intro h
    obtain ⟨⟨h, hhalted⟩, rfl⟩ := h
    exact ⟨rfl, Place.ext (hall.unique h) hhalted.symm⟩

theorem isBranch_readVariant {name : String} {variants : List Variant} {hint : Hint} :
    IsBranch indent
      (VariantOpening variants (variantKind name hint).1 fun v =>
        v.fields.map (readField read
          (if (variantKind name hint).1 = .pallet then some Hint.call else none) (indent + 1)))
      (UnknownIndex variants (variantKind name hint).2)
      (readVariant read name variants hint indent) := by
  intro p c q going
  simp only [readVariant, bind_eq_ok, Prod.exists, Cursor.number_eq_ok]
  constructor
  · intro h
    obtain ⟨n, d, ⟨b, hl, rfl, hd⟩, h⟩ := h
    obtain ⟨index, rfl⟩ := List.length_eq_one_iff.1 hl
    rw [show Bytes.toNat [index] = index.toNat from Nat.add_zero _] at h
    split at h
    · next hnone =>
      obtain ⟨hended, rfl⟩ := readUnknown_eq_ok.1 h
      exact .inr ⟨[index], _, d, ⟨index, hnone, rfl, rfl⟩, hd, hended, rfl⟩
    · next v hv =>
      obtain ⟨children, ho, rfl⟩ := readContainer_eq_ok.1 h
      refine .inl ⟨_, d, children, ⟨index, v, hv, rfl⟩, hd, Nat.zero_le _, ?_, rfl⟩
      rwa [going] at ho
  · intro h
    obtain ⟨o, d, children, ⟨index, v, hv, rfl⟩, hd, -, ho, rfl⟩ |
      ⟨head, label, d, ⟨index, hnone, rfl, rfl⟩, hd, hended, rfl⟩ := h
    · refine ⟨index.toNat, d, ⟨[index], rfl, Nat.add_zero _, hd⟩, ?_⟩
      rw [show variants.find? (·.index.toNat == index.toNat) = some v from hv]
      exact readContainer_eq_ok.2 ⟨children, by rwa [going], rfl⟩
    · refine ⟨index.toNat, d, ⟨[index], rfl, Nat.add_zero _, hd⟩, ?_⟩
      rw [show variants.find? (·.index.toNat == index.toNat) = none from hnone]
      exact readUnknown_eq_ok.2 ⟨hended, rfl⟩

end

/-! ### The readers of values -/

/-- The leaves that values have. -/
inductive LeafForm (specs : NetworkSpecs) : Shows → Prop where
  | text : LeafForm specs ShowsText
  | primitive (hint : Hint) {t : Primitive} {n : Nat} (width : t.width? = some n) :
      LeafForm specs (ShowsPrimitive specs hint t n)
  | compact (hint : Hint) (limit : Nat) : LeafForm specs (ShowsCompact specs hint limit)
  | account : LeafForm specs (ShowsBytes .id (Address.encode specs.addressFormat) 32)
  | hash : LeafForm specs (ShowsBytes .hash Hex.show0x 32)
  | bytes (n : Nat) : LeafForm specs (ShowsBytes .bytes Hex.show0x n)
  | counted : LeafForm specs ShowsCounted

/-- The branches that values have. -/
inductive BranchForm (e : Entry) : (Opening → Prop) → (Bytes → String → Prop) → Prop where
  | container {kind : CardKind} (known : kind ∈ [CardKind.tuple, .composite, .fieldName])
      (value : String) (parts : List ReadCard) :
      BranchForm e (· = ⟨[], kind, value, parts, 0⟩) noUnknown
  | sequence (limit size : Nat) (part : ReadCard) :
      BranchForm e (SequenceOpening limit size part) noUnknown
  | array (limit size n : Nat) (part : ReadCard) :
      BranchForm e (ArrayOpening limit size n part) noUnknown
  | variant {t : TypeEntry} {variants : List Variant} (type : t ∈ e.types)
      (definition : t.definition = .variant variants) (hint : Hint)
      (parts : Variant → List ReadCard) :
      BranchForm e (VariantOpening variants (variantKind t.name hint).1 parts)
        (UnknownIndex variants (variantKind t.name hint).2)

/-- Readers built from leaves and branches. Reading that never succeeds has any shape. -/
inductive ValueReader (e : Entry) : Nat → ReadCard → Prop where
  | never {indent : Nat} {read : ReadCard} (fails : ∀ p r, read p ≠ .ok r) :
      ValueReader e indent read
  | leaf {indent : Nat} {read : ReadCard} {shows : Shows} (form : LeafForm e.specs shows)
      (reads : IsLeaf indent shows read) : ValueReader e indent read
  | branch {indent : Nat} {read : ReadCard} {openings : Opening → Prop}
      {unknown : Bytes → String → Prop} (form : BranchForm e openings unknown)
      (reads : IsBranch indent openings unknown read)
      (parts : ∀ o, openings o → ∀ part ∈ o.parts, ValueReader e (indent + 1) part) :
      ValueReader e indent read

namespace ValueReader

variable {e : Entry} {l : Limits} {indent : Nat}

/-- The shape of a reader is that of what it gives when it succeeds. -/
theorem congr {r s : ReadCard} (h : ValueReader e indent r)
    (same : ∀ p x, r p = .ok x ↔ s p = .ok x) : ValueReader e indent s := by
  cases h with
  | never fails => exact .never fun p x hx => fails p x ((same p x).2 hx)
  | leaf form reads => exact .leaf form fun p c q => (same p (c, q)).symm.trans (reads p c q)
  | branch form reads parts =>
    exact .branch form (fun p c q going => (same p (c, q)).symm.trans (reads p c q going)) parts

section

variable {read : ReadValue} (hread : ∀ id hint indent, ValueReader e indent (read id hint indent))

include hread

theorem readField (hint : Option Hint) (indent : Nat) (f : Field) :
    ValueReader e indent (readField read hint indent f) := by
  cases hf : f.name with
  | none =>
    refine (hread f.type (hint.getD (.ofField f)) indent).congr fun p x => ?_
    simp only [Review.readField, hf]
  | some name =>
    refine .branch (.container (by simp) name _) (isBranch_readField hf) ?_
    intro o ho part hpart
    obtain rfl := ho
    obtain rfl := List.mem_singleton.1 hpart
    exact hread ..

theorem readDefinition {t : TypeEntry} (ht : t ∈ e.types) (hint : Hint) :
    ValueReader e indent (readDefinition e l read t.name t.definition hint indent) := by
  cases hd : t.definition with
  | primitive p =>
    cases hw : p.width? with
    | none =>
      refine (leaf .text (isLeaf_readText (l := l))).congr fun q x => ?_
      simp only [Review.readDefinition, readPrimitive, hw]
    | some n => exact .leaf (.primitive hint hw) (isLeaf_readPrimitive hw)
  | compact inner =>
    cases hc : e.types.compactTarget? inner with
    | none =>
      refine .never fun p x h => ?_
      simp only [Review.readDefinition, readCompact, hc, reduceCtorEq] at h
    | some target => exact .leaf (.compact hint _) (isLeaf_readCompact hc)
  | sequence inner =>
    cases hb : e.types.isByte inner with
    | true => exact .leaf .counted (isLeaf_readSequence hb)
    | false =>
      refine .branch (.sequence _ _ _) (isBranch_readSequence hb) ?_
      intro o ho part hpart
      obtain ⟨n, -, -, rfl⟩ := ho
      obtain rfl := List.eq_of_mem_replicate hpart
      exact hread ..
  | array length inner =>
    cases hb : e.types.isByte inner with
    | true =>
      refine (leaf (.bytes length.toNat) isLeaf_readBytes).congr fun p x => ?_
      simp only [Review.readDefinition, readArray, hb, if_true]
    | false =>
      refine .branch (.array _ _ _ _) (isBranch_readArray hb) ?_
      intro o ho part hpart
      obtain ⟨-, rfl⟩ := ho
      obtain rfl := List.eq_of_mem_replicate hpart
      exact hread ..
  | tuple types =>
    refine .branch (.container (by simp) _ _) isBranch_readContainer ?_
    intro o ho part hpart
    obtain rfl := ho
    obtain ⟨t, -, rfl⟩ := List.mem_map.1 hpart
    exact hread ..
  | composite fields =>
    refine .branch (.container (by simp) _ _) isBranch_readContainer ?_
    intro o ho part hpart
    obtain rfl := ho
    obtain ⟨f, -, rfl⟩ := List.mem_map.1 hpart
    exact readField hread ..
  | variant variants =>
    refine .branch (.variant ht hd hint _) isBranch_readVariant ?_
    intro o ho part hpart
    obtain ⟨index, v, -, rfl⟩ := ho
    obtain ⟨f, -, rfl⟩ := List.mem_map.1 hpart
    exact readField hread ..

theorem readType (id : TypeId) (hint : Hint) :
    ValueReader e indent (readType e l read id hint indent) := by
  cases ht : e.type? id with
  | none =>
    refine .never fun p x h => ?_
    simp only [Review.readType, Entry.lookup, ht, reduceCtorEq] at h
  | some t =>
    by_cases ha : t.name = "AccountId32" ∧ e.types.byteArray? id = some 32
    · refine (leaf .account isLeaf_readBytes).congr fun p x => ?_
      simp only [Review.readType, Entry.lookup, ht, if_pos ha]
    · by_cases hh : t.name = "H256" ∧ e.types.byteArray? id = some 32
      · refine (leaf .hash isLeaf_readBytes).congr fun p x => ?_
        simp only [Review.readType, Entry.lookup, ht, if_neg ha, if_pos hh]
      · refine (readDefinition (l := l) hread (Array.mem_of_getElem? ht) hint).congr fun p x => ?_
        simp only [Review.readType, Entry.lookup, ht, if_neg ha, if_neg hh]

end

end ValueReader

/-- Reading a value is reading its type, whatever a failure says of the type. -/
theorem readValue_succ_eq_ok {e : Entry} {l : Limits} {n indent : Nat} {id : TypeId} {hint : Hint}
    {p : Place} {x : Card × Place} :
    readValue e l (n + 1) id hint indent p = .ok x ↔
      readType e l (readValue e l n) id hint indent p = .ok x := by
  rw [readValue]
  split
  · next h => rw [h]
  · next h => simp [h]

/-- Values of every type are read from leaves and branches. -/
theorem valueReader (e : Entry) (l : Limits) (depth : Nat) (id : TypeId) (hint : Hint)
    (indent : Nat) : ValueReader e indent (readValue e l depth id hint indent) := by
  induction depth generalizing id hint indent with
  | zero => exact .never fun p r h => by simp [readValue] at h
  | succ n ih =>
    exact (ValueReader.readType (l := l) ih id hint).congr fun p r => readValue_succ_eq_ok.symm

end ColdSigner.Review
