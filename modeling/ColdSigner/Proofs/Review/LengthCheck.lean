import ColdSigner.Proofs.Review.Exactness

/-! The length check of sequences and arrays.

A sequence or an array is refused at once when what is left is shorter than its
parts are at least. `decodeValueFreely` decodes without this check. Where every part
is a value, the check refuses nothing that reading the parts would accept. An unknown
index, though, takes no more than is left, which may be less than any value takes:
then the check refuses what would otherwise be shown. -/
namespace ColdSigner

/-- Unknown indices stand outside of sequences and arrays. -/
def Card.UnknownOutside (cards : List Card) : Prop :=
  ∀ c ∈ Card.allListed cards, c.kind = .sequence → Card.NoUnknown c.children

theorem Card.UnknownOutside.cons {c : Card} {rest : List Card} :
    Card.UnknownOutside (c :: rest) ↔ (c.kind = .sequence → Card.NoUnknown c.children) ∧
      Card.UnknownOutside c.children ∧ Card.UnknownOutside rest := by
  simp only [UnknownOutside, allListed_cons, List.forall_mem_cons, List.forall_mem_append]

/-- A number of elements; those that take bytes need not fit into what is left. -/
def Cursor.countFreely (c : Cursor) (minSize limit : Nat) : Except DecodeFailure (Nat × Cursor) := do
  let (claimed, next) ← c.integer
  if minSize = 0 ∧ limit < claimed then c.fail (.lengthOverrun claimed next.remaining)
  else return (claimed, next)

theorem Cursor.countFreely_eq_ok {c d : Cursor} {minSize limit n : Nat} :
    c.countFreely minSize limit = .ok (n, d) ↔
      n < 256 ^ 16 ∧ c.Consumes (Wire.Compact.encode n) d ∧ (minSize = 0 → n ≤ limit) := by
  simp only [countFreely, bind_eq_ok, Prod.exists, integer_eq_ok]
  constructor
  · intro h
    obtain ⟨v, next, ⟨hv, hc⟩, h⟩ := h
    split at h
    · cases h
    · next hlimit =>
      obtain ⟨rfl, rfl⟩ := Prod.mk.inj (pure_eq_ok.1 h)
      exact ⟨hv, hc, by omega⟩
  · intro h
    obtain ⟨hv, hc, hlimit⟩ := h
    refine ⟨n, d, ⟨hv, hc⟩, ?_⟩
    rw [if_neg (by omega)]
    rfl

namespace Review

/-! ### Decoding without the check -/

section

variable (e : Entry) (l : Limits) (read : ReadValue)

def readSequenceFreely (inner : TypeId) (indent : Nat) : ReadCard := fun p => do
  if e.types.isByte inner then readSequence e l read inner indent p
  else
    let start := p.cursor.offset
    let (n, c) ← p.cursor.countFreely (e.minSize inner) l.maxSequenceLength
    readContainer .sequence (itemCount n) indent ⟨start, c.offset⟩
      (List.replicate n (read inner .plain (indent + 1))) { p with cursor := c }

def readArrayFreely (length : UInt32) (inner : TypeId) (indent : Nat) : ReadCard := fun p =>
  let n := length.toNat
  if e.types.isByte inner then readArray e l read length inner indent p
  else if e.minSize inner = 0 ∧ l.maxSequenceLength < n then
    p.cursor.fail (.lengthOverrun n p.cursor.remaining)
  else
    readContainer .sequence (itemCount n) indent ⟨p.cursor.offset, p.cursor.offset⟩
      (List.replicate n (read inner .plain (indent + 1))) p

def readDefinitionFreely (name : String) (d : TypeDef) (hint : Hint) (indent : Nat) : ReadCard :=
  match d with
  | .sequence inner => readSequenceFreely e l read inner indent
  | .array length inner => readArrayFreely e l read length inner indent
  | d => readDefinition e l read name d hint indent

def readTypeFreely (id : TypeId) (hint : Hint) (indent : Nat) : ReadCard := fun p =>
  match e.type? id with
  | none => .error ⟨.unknownType, p.cursor.offset, some id⟩
  | some t =>
    if (t.name = "AccountId32" ∨ t.name = "H256") ∧ e.types.byteArray? id = some 32 then
      readType e l read id hint indent p
    else readDefinitionFreely e l read t.name t.definition hint indent p

def readValueFreely : Nat → ReadValue
  | 0, id, _, _, p => .error ((⟨.tooDeep, p.cursor.offset, none⟩ : DecodeFailure).inType id)
  | n + 1, id, hint, indent, p =>
    match readTypeFreely e l (readValueFreely n) id hint indent p with
    | .ok r => .ok r
    | .error f => .error (f.inType id)

def decodeValueFreely (payload : Bytes) (id : TypeId) : Except DecodeFailure (List Card) := do
  let (card, p) ← readValueFreely e l (l.maxDepth + 1) id .plain 0 ⟨.start payload, false⟩
  if p.cursor.remaining = 0 then return [card]
  else p.cursor.fail (.trailingBytes p.cursor.remaining)

end

/-- The openings without the bytes that must be left. -/
def Unchecked (openings : Opening → Prop) (o : Opening) : Prop :=
  ∃ o', openings o' ∧ o = { o' with need := 0 }

theorem unchecked_congr {openings openings' : Opening → Prop} (h : ∀ o, openings o ↔ openings' o)
    (o : Opening) : Unchecked openings o ↔ Unchecked openings' o := by
  simp only [Unchecked, h]

theorem unchecked_iff {openings : Opening → Prop} (free : ∀ o, openings o → o.need = 0) (o : Opening) :
    Unchecked openings o ↔ openings o := by
  constructor
  · intro h
    obtain ⟨o', ho, rfl⟩ := h
    rwa [← free o' ho]
  · intro h
    exact ⟨o, h, by rw [← free o h]⟩

section

variable {e : Entry} {l : Limits} {indent : Nat} {read : ReadValue} {inner : TypeId}

theorem isBranch_readSequenceFreely (hbyte : e.types.isByte inner = false) :
    IsBranch indent (Unchecked (SequenceOpening l.maxSequenceLength (e.minSize inner)
        (read inner .plain (indent + 1))))
      noUnknown (readSequenceFreely e l read inner indent) := by
  intro p c q going
  simp only [readSequenceFreely, hbyte, Bool.false_eq_true, if_false, bind_eq_ok, Prod.exists,
    Cursor.countFreely_eq_ok, readContainer_eq_ok, false_and, exists_false, or_false]
  constructor
  · intro h
    obtain ⟨n, d, ⟨hn, hd, hlimit⟩, children, h, rfl⟩ := h
    refine ⟨_, d, children, ⟨_, ⟨n, hn, hlimit, rfl⟩, rfl⟩, hd, Nat.zero_le _, ?_, rfl⟩
    rwa [going] at h
  · intro h
    obtain ⟨o, d, children, ⟨_, ⟨n, hn, hlimit, rfl⟩, rfl⟩, hd, -, h, rfl⟩ := h
    exact ⟨n, d, ⟨hn, hd, hlimit⟩, children, by rwa [going], rfl⟩

theorem isBranch_readArrayFreely {length : UInt32} (hbyte : e.types.isByte inner = false) :
    IsBranch indent (Unchecked (ArrayOpening l.maxSequenceLength (e.minSize inner) length.toNat
        (read inner .plain (indent + 1))))
      noUnknown (readArrayFreely e l read length inner indent) := by
  intro p c q going
  have hp : p = ⟨p.cursor, false⟩ := Place.ext rfl going
  simp only [readArrayFreely, hbyte, Bool.false_eq_true, if_false, false_and, exists_false, or_false]
  constructor
  · intro h
    split at h
    · cases h
    · next hlimit =>
      obtain ⟨children, ho, rfl⟩ := readContainer_eq_ok.1 h
      exact ⟨_, p.cursor, children, ⟨_, ⟨fun hs => by omega, rfl⟩, rfl⟩, .refl _, Nat.zero_le _,
        hp ▸ ho, rfl⟩
  · intro h
    obtain ⟨o, d, children, ⟨_, ⟨hlimit, rfl⟩, rfl⟩, hd, -, h, rfl⟩ := h
    obtain rfl := (Cursor.Consumes.refl _).unique hd
    rw [if_neg (by omega)]
    exact readContainer_eq_ok.2 ⟨children, by rw [hp]; exact h, rfl⟩

end

/-! ### One reader for another -/

/-- What one reader accepts with cards of a kind, the other accepts with the same cards. -/
def Refines (P : List Card → Prop) (r s : ReadCard) : Prop :=
  ∀ p c q, p.halted = false → r p = .ok (c, q) → P [c] → s p = .ok (c, q)

/-- What holds of a tree of cards holds of its parts. -/
def Hereditary (P : List Card → Prop) : Prop :=
  ∀ c rest, P (c :: rest) → P [c] ∧ P c.children ∧ P rest

theorem hereditary_unknownOutside : Hereditary Card.UnknownOutside := by
  intro c rest h
  obtain ⟨hc, hchildren, hrest⟩ := Card.UnknownOutside.cons.1 h
  exact ⟨Card.UnknownOutside.cons.2 ⟨hc, hchildren, by simp [Card.UnknownOutside]⟩, hchildren, hrest⟩

section

variable {P : List Card → Prop} {r s : ReadValue} (hP : Hereditary P)
  (hreads : ∀ id hint indent, Refines P (r id hint indent) (s id hint indent))

include hP hreads

theorem Refines.readField (hint : Option Hint) (indent : Nat) (f : Field) :
    Refines P (readField r hint indent f) (readField s hint indent f) := by
  intro p c q going h hc
  cases hf : f.name with
  | none =>
    simp only [Review.readField, hf] at h ⊢
    exact hreads _ _ _ p c q going h hc
  | some name =>
    simp only [Review.readField, hf, bind_eq_ok, Prod.exists, pure_eq_ok, Prod.mk.injEq] at h ⊢
    obtain ⟨v, p', h, rfl, rfl⟩ := h
    exact ⟨v, _, hreads _ _ _ p v _ going h (hP _ _ hc).2.1, rfl, rfl⟩

theorem Refines.inOrder {fields : List Field} {hint : Option Hint} {indent : Nat} {p q : Place}
    {cards : List Card} (h : InOrder (fields.map (Review.readField r hint indent)) p cards q)
    (hcards : P cards) : InOrder (fields.map (Review.readField s hint indent)) p cards q := by
  induction fields generalizing p cards with
  | nil => exact h
  | cons f fields ih =>
    cases h with
    | halted ended => exact .halted ended
    | read going first others =>
      obtain ⟨hc, -, hrest⟩ := hP _ _ hcards
      exact .read going (Refines.readField hP hreads hint indent f _ _ _ going first hc)
        (ih others hrest)

end

section

variable {e : Entry} {l : Limits} {levels indent : Nat} {id : TypeId} {hint : Hint} {t : TypeEntry}

/-- Either a type has no parts to read, or both readers of it are branches with its openings. -/
theorem definition_cases (e : Entry) (l : Limits) (strict free : ReadValue) (t : TypeEntry)
    (hint : Hint) (indent : Nat) :
    (∀ p, readDefinition e l strict t.name t.definition hint indent p =
      readDefinitionFreely e l free t.name t.definition hint indent p) ∨
    ∃ unknown, IsBranch indent (OpensAs e l strict t hint indent) unknown
        (readDefinition e l strict t.name t.definition hint indent) ∧
      IsBranch indent (Unchecked (OpensAs e l free t hint indent)) unknown
        (readDefinitionFreely e l free t.name t.definition hint indent) := by
  cases hd : t.definition with
  | primitive p => exact .inl fun p => rfl
  | compact inner => exact .inl fun p => rfl
  | sequence inner =>
    cases hb : e.types.isByte inner with
    | true =>
      refine .inl fun p => ?_
      simp only [readDefinition, readDefinitionFreely, readSequenceFreely, readSequence, hb, if_true]
    | false =>
      exact .inr ⟨_, (isBranch_readSequence hb).congr (opens_sequence hd),
        (isBranch_readSequenceFreely hb).congr (unchecked_congr (opens_sequence hd))⟩
  | array length inner =>
    cases hb : e.types.isByte inner with
    | true =>
      refine .inl fun p => ?_
      simp only [readDefinition, readDefinitionFreely, readArrayFreely, readArray, hb, if_true]
    | false =>
      exact .inr ⟨_, (isBranch_readArray hb).congr (opens_array hd),
        (isBranch_readArrayFreely hb).congr (unchecked_congr (opens_array hd))⟩
  | tuple ts =>
    refine .inr ⟨_, isBranch_readContainer.congr (opens_tuple hd), isBranch_readContainer.congr
      fun o => (opens_tuple hd o).trans (unchecked_iff (fun o ho => ?_) o).symm⟩
    rw [(opens_tuple hd o).2 ho]
  | composite fields =>
    refine .inr ⟨_, isBranch_readContainer.congr (opens_composite hd), isBranch_readContainer.congr
      fun o => (opens_composite hd o).trans (unchecked_iff (fun o ho => ?_) o).symm⟩
    rw [(opens_composite hd o).2 ho]
  | variant variants =>
    refine .inr ⟨_, isBranch_readVariant.congr (opens_variant hd), isBranch_readVariant.congr
      fun o => (opens_variant hd o).trans (unchecked_iff (fun o ho => ?_) o).symm⟩
    obtain ⟨index, v, -, rfl⟩ := (opens_variant hd o).2 ho
    rfl

/-- So it is with types: those that are shown whole have no parts to read. -/
theorem type_cases (e : Entry) (l : Limits) (strict free : ReadValue) (id : TypeId) (hint : Hint)
    (indent : Nat) :
    (∀ p, readType e l strict id hint indent p = readTypeFreely e l free id hint indent p) ∨
    ∃ t unknown, IsBranch indent (OpensAs e l strict t hint indent) unknown
        (readType e l strict id hint indent) ∧
      IsBranch indent (Unchecked (OpensAs e l free t hint indent)) unknown
        (readTypeFreely e l free id hint indent) := by
  cases ht : e.type? id with
  | none => exact .inl fun p => by simp only [readType, readTypeFreely, Entry.lookup, ht, DecodeFailure.ofRegistry]
  | some t =>
    by_cases hwhole : (t.name = "AccountId32" ∨ t.name = "H256") ∧ e.types.byteArray? id = some 32
    · refine .inl fun p => ?_
      simp only [readTypeFreely, ht, if_pos hwhole]
      simp only [readType, Entry.lookup, ht]
      obtain ⟨ha | hh, hbytes⟩ := hwhole
      · rw [if_pos ⟨ha, hbytes⟩, if_pos ⟨ha, hbytes⟩]
      · have hne : ¬ (t.name = "AccountId32" ∧ e.types.byteArray? id = some 32) := by simp [hh]
        rw [if_neg hne, if_neg hne, if_pos ⟨hh, hbytes⟩, if_pos ⟨hh, hbytes⟩]
    · have hstrict : readType e l strict id hint indent =
          readDefinition e l strict t.name t.definition hint indent := by
        funext p
        simp only [readType, Entry.lookup, ht]
        rw [if_neg (by tauto), if_neg (by tauto)]
      have hfree : readTypeFreely e l free id hint indent =
          readDefinitionFreely e l free t.name t.definition hint indent := by
        funext p
        simp only [readTypeFreely, ht, if_neg hwhole]
      rw [hstrict, hfree]
      exact (definition_cases e l strict free t hint indent).imp_right fun h => ⟨t, h⟩

/-- Without the check, a type accepts at least what it accepts with it. -/
theorem refines_freely_of_opens {unknown : Bytes → String → Prop} {r s : ReadCard}
    {strict free : ReadValue}
    (hreads : ∀ id hint indent, Refines (fun _ => True) (strict id hint indent) (free id hint indent))
    (hr : IsBranch indent (OpensAs e l strict t hint indent) unknown r)
    (hs : IsBranch indent (Unchecked (OpensAs e l free t hint indent)) unknown s) :
    Refines (fun _ => True) r s := by
  intro p c q going h _
  refine (hs p c q going).2 (((hr p c q going).1 h).imp_left fun h => ?_)
  obtain ⟨o, d, children, ⟨head, count, admits, few, rfl⟩, hd, -, hparts, rfl⟩ := h
  exact ⟨_, d, children, ⟨_, ⟨head, count, admits, few, rfl⟩, rfl⟩, hd, Nat.zero_le _,
    Refines.inOrder (fun _ _ _ => ⟨trivial, trivial, trivial⟩) hreads hparts trivial, rfl⟩

/-- With the check, a type accepts what it accepts without, where the parts of
sequences and arrays are values: these take the bytes that the check asks for. -/
theorem refines_strictly_of_opens {unknown : Bytes → String → Prop} {r s : ReadCard}
    {free : ReadValue}
    (hreads : ∀ id hint indent,
      Refines Card.UnknownOutside (free id hint indent) (readValue e l levels id hint indent))
    (hr : IsBranch indent (Unchecked (OpensAs e l free t hint indent)) unknown r)
    (hs : IsBranch indent (OpensAs e l (readValue e l levels) t hint indent) unknown s) :
    Refines Card.UnknownOutside r s := by
  intro p c q going h outside
  rcases (hr p c q going).1 h with
    ⟨_, d, children, ⟨_, ⟨head, count, admits, few, rfl⟩, rfl⟩, hd, -, hparts, rfl⟩ | hunknown
  · obtain ⟨hlist, hchildren, -⟩ := Card.UnknownOutside.cons.1 outside
    have hstrict := Refines.inOrder hereditary_unknownOutside hreads hparts hchildren
    refine (hs p _ q going).2 (.inl ⟨_, d, children, ⟨head, count, admits, few, rfl⟩, hd, ?_,
      hstrict, rfl⟩)
    by_cases hhead : head = .sequence ∨ head = .array
    · have hknown : Card.NoUnknown children := hlist (by rcases hhead with rfl | rfl <;> rfl)
      have goes : q.halted = false := by
        refine (hstrict.going_iff (fun r hr => ?_) rfl).2 hknown
        obtain ⟨f, -, rfl⟩ := List.mem_map.1 hr
        exact (ValueReader.readField (valueReader e l levels) _ _ f).tellsEnd
      obtain ⟨parts, haccepted, hb, -⟩ := (inOrder_fields (accepts_readValue e l levels) rfl goes).1 hstrict
      have hsum := Datum.sum_minSize_le (forall₂_accepted.1 haccepted).1
      rw [openingOf, if_pos hhead, d.remaining_eq, hb.rest, List.length_append]
      exact Nat.le_add_right_of_le hsum
    · rw [openingOf, if_neg hhead]
      exact Nat.zero_le _
  · exact (hs p c q going).2 (.inr hunknown)

theorem readValueFreely_succ_eq_ok {n : Nat} {p : Place} {x : Card × Place} :
    readValueFreely e l (n + 1) id hint indent p = .ok x ↔
      readTypeFreely e l (readValueFreely e l n) id hint indent p = .ok x := by
  rw [readValueFreely]
  split
  · next h => rw [h]
  · next h => simp [h]

theorem refines_freely (e : Entry) (l : Limits) (levels : Nat) (id : TypeId) (hint : Hint)
    (indent : Nat) :
    Refines (fun _ => True) (readValue e l levels id hint indent)
      (readValueFreely e l levels id hint indent) := by
  induction levels generalizing id hint indent with
  | zero =>
    intro p c q _ h
    simp [readValue] at h
  | succ n ih =>
    intro p c q going h hc
    rw [readValue_succ_eq_ok] at h
    rw [readValueFreely_succ_eq_ok]
    rcases type_cases e l (readValue e l n) (readValueFreely e l n) id hint indent with
      same | ⟨t, unknown, hstrict, hfree⟩
    · rwa [← same]
    · exact refines_freely_of_opens ih hstrict hfree p c q going h hc

theorem refines_strictly (e : Entry) (l : Limits) (levels : Nat) (id : TypeId) (hint : Hint)
    (indent : Nat) :
    Refines Card.UnknownOutside (readValueFreely e l levels id hint indent)
      (readValue e l levels id hint indent) := by
  induction levels generalizing id hint indent with
  | zero =>
    intro p c q _ h
    simp [readValueFreely] at h
  | succ n ih =>
    intro p c q going h hc
    rw [readValueFreely_succ_eq_ok] at h
    rw [readValue_succ_eq_ok]
    rcases type_cases e l (readValue e l n) (readValueFreely e l n) id hint indent with
      same | ⟨t, unknown, hstrict, hfree⟩
    · rwa [same]
    · exact refines_strictly_of_opens ih hfree hstrict p c q going h hc

end

/-- The check accepts nothing that decoding without it would refuse. -/
theorem decodeValueFreely_of_decodeValue {e : Entry} {l : Limits} {payload : Bytes} {id : TypeId}
    {cards : List Card} (h : decodeValue e l payload id = .ok cards) :
    decodeValueFreely e l payload id = .ok cards := by
  simp only [decodeValue, decodeValueFreely, bind_eq_ok, Prod.exists] at h ⊢
  obtain ⟨c, q, hr, h⟩ := h
  exact ⟨c, q, refines_freely e l _ id .plain 0 _ c q rfl hr trivial, h⟩

/-- The check refuses nothing that decoding without it shows, as long as unknown
indices stand outside of sequences and arrays. -/
theorem decodeValue_of_freely (e : Entry) (l : Limits) (payload : Bytes) (id : TypeId)
    (cards : List Card) (h : decodeValueFreely e l payload id = .ok cards)
    (outside : Card.UnknownOutside cards) : decodeValue e l payload id = .ok cards := by
  simp only [decodeValue, decodeValueFreely, bind_eq_ok, Prod.exists] at h ⊢
  obtain ⟨c, q, hr, h⟩ := h
  split at h
  · next hend =>
    obtain rfl := pure_eq_ok.1 h
    refine ⟨c, q, refines_strictly e l _ id .plain 0 _ c q rfl hr outside, ?_⟩
    rw [if_pos hend]
    rfl
  · cases h

/-- The small network, with sequences of calls. -/
def callsMetadata : Metadata :=
  { sampleMetadata with types := sampleMetadata.types.push ⟨"", .sequence 1⟩ }

def callsEntry : Entry where
  network := .fit 32 [7]
  metadata := callsMetadata
  minSizes := #[1, 2, 1]
  fault_eq := by decide
  sizes_eq := by
    have hsizes : callsMetadata.types.sizes = #[some 1, some 2, some 1] := by decide
    simp [TypeTable.minSizes, hsizes, List.findIdx?_cons]

/-- A sequence of one call is decoded either way. -/
theorem decodeValue_of_freely_calls :
    ∃ cards, decodeValueFreely callsEntry {} [4, 0, 5] 2 = .ok cards ∧ Card.UnknownOutside cards ∧
      decodeValue callsEntry {} [4, 0, 5] 2 = .ok cards := by
  let cards : List Card := [⟨.sequence, "1 items", 0, ⟨0, 1⟩, [⟨.variant, "remark", 1, ⟨1, 2⟩,
    [⟨.fieldName, "byte", 2, ⟨2, 2⟩, [⟨.number, "5", 3, ⟨2, 3⟩, []⟩]⟩]⟩]⟩]
  have hshown : decodeValueFreely callsEntry {} [4, 0, 5] 2 = .ok cards := rfl
  have outside : Card.UnknownOutside cards := by
    simp [cards, Card.UnknownOutside, Card.NoUnknown]
  exact ⟨cards, hshown, outside, decodeValue_of_freely _ _ _ _ _ hshown outside⟩

/-- An unknown index in a sequence is refused by the check, not shown: behind it there
are fewer bytes than any call takes. -/
theorem length_check_hides_unknown_index :
    ¬ ∀ (e : Entry) (l : Limits) (payload : Bytes) (id : TypeId) (cards : List Card),
      decodeValueFreely e l payload id = .ok cards → decodeValue e l payload id = .ok cards := by
  intro h
  have hshown : decodeValueFreely callsEntry {} [4, 9] 2 =
      .ok [⟨.sequence, "1 items", 0, ⟨0, 1⟩, [⟨.unknownVariant, "unknown variant 9", 1, ⟨1, 2⟩,
        [⟨.raw, "0x", 2, ⟨2, 2⟩, []⟩]⟩]⟩] := rfl
  have hrefused : decodeValue callsEntry {} [4, 9] 2 = .error ⟨.lengthOverrun 1 1, 0, some 2⟩ := rfl
  have hdecoded := h callsEntry {} [4, 9] 2 _ hshown
  rw [hrefused] at hdecoded
  cases hdecoded

end Review

end ColdSigner
