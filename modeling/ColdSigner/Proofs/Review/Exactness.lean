import ColdSigner.Proofs.Review.TypeShapes

/-! Reading is exact.

Reading a type accepts the encodings of its values and nothing else, as far as the
limits on nesting and on parts without bytes allow, and shows their cards. By
induction on the levels it holds of `readValue`, with one step for each shape that a
type has: a leaf accepts the values it shows (`ShowsValues`), and a branch those whose
head is one of its openings, over parts that are read exactly. -/
namespace ColdSigner

open Review

/-- A value of a type of fewer than so many levels, within the limits. -/
structure Datum.Accepted (e : Entry) (l : Limits) (levels : Nat) (v : Datum) (id : TypeId) : Prop where
  type : v.HasType e.types id
  depth : v.nesting e id < levels
  capped : v.Capped l.maxSequenceLength

/-- Cards that show no unknown index. -/
def Card.NoUnknown (cards : List Card) : Prop :=
  ∀ c ∈ Card.allListed cards, c.kind ≠ .unknownVariant

theorem Card.NoUnknown.cons {c : Card} {rest : List Card} :
    Card.NoUnknown (c :: rest) ↔ Card.NoUnknown [c] ∧ Card.NoUnknown rest := by
  simp only [NoUnknown, allListed_cons, allListed_nil, List.append_nil, List.forall_mem_cons,
    List.forall_mem_append, and_assoc]

namespace Review

/-- A reader that goes on accepts the encodings of values, and shows their cards. -/
def Accepts (e : Entry) (l : Limits) (levels : Nat) (id : TypeId) (hint : Hint) (indent : Nat)
    (read : ReadCard) : Prop :=
  ∀ p q c, p.halted = false → q.halted = false → (read p = .ok (c, q) ↔
    ∃ v : Datum, v.Accepted e l levels id ∧ p.cursor.Consumes v.encode q.cursor ∧
      c = v.card e id hint indent p.cursor.offset)

variable {e : Entry} {l : Limits} {levels indent : Nat} {id : TypeId} {hint : Hint} {t : TypeEntry}
  {read : ReadValue}

theorem Accepts.congr {r s : ReadCard} (h : Accepts e l levels id hint indent r)
    (same : ∀ p x, r p = .ok x ↔ s p = .ok x) : Accepts e l levels id hint indent s :=
  fun p q c going goes => (same p (c, q)).symm.trans (h p q c going goes)

/-- A reader that never succeeds is exact for a type without values. -/
theorem Accepts.never {r : ReadCard} (fails : ∀ p x, r p ≠ .ok x)
    (none : ∀ v : Datum, ¬ v.HasType e.types id) : Accepts e l levels id hint indent r := by
  intro p q c _ _
  constructor
  · exact fun h => absurd h (fails p _)
  · intro h
    obtain ⟨v, hv, -⟩ := h
    exact absurd hv.type (none v)

theorem Accepts.leaf {shows : Shows} {r : ReadCard} (reads : IsLeaf indent shows r)
    (values : ShowsValues e l id hint shows) : Accepts e l (levels + 1) id hint indent r := by
  intro p q c going goes
  -- Every value that comes next is read, and shown in its card.
  have hread (v : Datum) (hv : v.HasType e.types id) (hb : p.cursor.Consumes v.encode q.cursor) :
      r p = .ok (v.card e id hint indent p.cursor.offset, q) := by
    obtain ⟨-, kind, value, hshows, hcard⟩ := values.shown v hv
    refine (reads p _ q).2 ⟨_, kind, value, hshows, hb, goes.trans going.symm, ?_⟩
    rw [hcard, hb.offset]
  constructor
  · intro h
    obtain ⟨b, kind, value, hshows, hb, -, -⟩ := (reads p c q).1 h
    obtain ⟨v, htype, hcapped, rfl⟩ := values.encoded b kind value hshows
    refine ⟨v, ⟨htype, ?_, hcapped⟩, hb, ?_⟩
    · rw [(values.shown v htype).1]
      exact Nat.succ_pos levels
    · rw [hread v htype hb] at h
      exact (Prod.mk.inj (Except.ok.inj h)).1.symm
  · intro h
    obtain ⟨v, hv, hb, rfl⟩ := h
    exact hread v hv.type hb

/-! ### Parts -/

theorem InOrder.going {readers : List ReadCard} {p q : Place} {cards : List Card}
    (h : InOrder readers p cards q) (goes : q.halted = false) : p.halted = false := by
  cases h with
  | done => exact goes
  | halted => exact goes
  | read going => exact going

section

variable (hread : ∀ id hint indent, Accepts e l levels id hint indent (read id hint indent))

include hread

/-- A field is read as its value is. -/
theorem readField_eq_ok {f : Field} {h : Option Hint} {p q : Place} {c : Card}
    (going : p.halted = false) (goes : q.halted = false) :
    readField read h indent f p = .ok (c, q) ↔
      ∃ v : Datum, v.Accepted e l levels f.type ∧ p.cursor.Consumes v.encode q.cursor ∧
        c = Datum.fieldCard e v f h indent p.cursor.offset := by
  cases hf : f.name with
  | none =>
    simp only [readField, Datum.fieldCard, hf]
    exact hread _ _ _ p q c going goes
  | some name =>
    simp only [readField, Datum.fieldCard, hf, bind_eq_ok, Prod.exists, pure_eq_ok, Prod.mk.injEq]
    constructor
    · intro h
      obtain ⟨card, p', h, rfl, rfl⟩ := h
      obtain ⟨v, hv, hb, rfl⟩ := (hread _ _ _ p p' card going goes).1 h
      exact ⟨v, hv, hb, rfl⟩
    · intro h
      obtain ⟨v, hv, hb, rfl⟩ := h
      exact ⟨_, q, (hread _ _ _ p q _ going goes).2 ⟨v, hv, hb, rfl⟩, rfl, rfl⟩

/-- Fields are read one after another as the values that fill them are. -/
theorem inOrder_fields {fields : List Field} {h : Option Hint} {p q : Place} {cards : List Card}
    (going : p.halted = false) (goes : q.halted = false) :
    InOrder (fields.map (readField read h indent)) p cards q ↔
      ∃ parts : List Datum,
        List.Forall₂ (fun v f => v.Accepted e l levels f.type) parts fields ∧
        p.cursor.Consumes (Datum.encodeAll parts) q.cursor ∧
        cards = Datum.cards e parts fields h indent p.cursor.offset := by
  induction fields generalizing p cards with
  | nil =>
    constructor
    · intro h
      cases h with
      | done => exact ⟨[], .nil, by simpa using .refl _, by simp⟩
      | halted ended => exact absurd ended (by simp [going])
    · intro h
      obtain ⟨parts, hparts, hb, rfl⟩ := h
      cases hparts
      rw [Datum.encodeAll_nil] at hb
      obtain rfl : p = q := Place.ext ((Cursor.Consumes.refl _).unique hb) (going.trans goes.symm)
      rw [Datum.cards_nil]
      exact .done p
  | cons f fields ih =>
    constructor
    · intro h
      cases h with
      | halted ended => exact absurd ended (by simp [going])
      | read _ first others =>
        have between := others.going goes
        obtain ⟨v, hv, hb, rfl⟩ := (readField_eq_ok hread going between).1 first
        obtain ⟨parts, hparts, hrest, rfl⟩ := (ih between).1 others
        refine ⟨v :: parts, .cons hv hparts, ?_, ?_⟩
        · rw [Datum.encodeAll_cons]
          exact hb.trans hrest
        · rw [Datum.cards_cons, hb.offset]
    · intro h
      obtain ⟨parts, hparts, hb, rfl⟩ := h
      obtain ⟨v, parts, hv, hrest, rfl⟩ := List.forall₂_cons_right_iff.1 hparts
      rw [Datum.encodeAll_cons] at hb
      obtain ⟨d, hd, hb⟩ := hb.split
      rw [Datum.cards_cons, ← hd.offset]
      exact .read going ((readField_eq_ok hread going rfl (q := ⟨d, false⟩)).2 ⟨v, hv, hd, rfl⟩)
        ((ih rfl).2 ⟨parts, hrest, hb, rfl⟩)

end

/-! ### Values over parts -/

theorem forall₂_accepted {parts : List Datum} {fields : List Field} :
    List.Forall₂ (fun v f => Datum.Accepted e l levels v f.type) parts fields ↔
      Datum.Fill e.types parts fields ∧ Datum.nestingAll e parts fields ≤ levels ∧
        Datum.AllCapped l.maxSequenceLength parts := by
  constructor
  · intro h
    induction h with
    | nil => exact ⟨.nil, by simp, by simp⟩
    | cons hv _ ih =>
      obtain ⟨fill, hnesting, hcapped⟩ := ih
      refine ⟨.cons hv.type fill, ?_, by simp [hv.capped, hcapped]⟩
      rw [Datum.nestingAll_cons]
      exact Nat.max_le.2 ⟨hv.depth, hnesting⟩
  · intro h
    obtain ⟨fill, hnesting, hcapped⟩ := h
    induction fill with
    | nil => exact .nil
    | cons hv _ ih =>
      rw [Datum.nestingAll_cons] at hnesting
      obtain ⟨hdepth, hnesting⟩ := Nat.max_le.1 hnesting
      obtain ⟨hfirst, hcapped⟩ := Datum.allCapped_cons.1 hcapped
      exact .cons ⟨hv, hdepth, hfirst⟩ (ih hnesting hcapped)

/-- A value with cards for its parts is accepted when these are, one level below. -/
theorem accepted_mk {head : Head} {parts : List Datum} (type : e.type? id = some t)
    (whole : e.whole? id = none) :
    Datum.Accepted e l (levels + 1) ⟨head, parts⟩ id ↔
      t.definition.Admits e.types head parts.length ∧
        ((head = .sequence ∨ head = .array) →
          (∀ f ∈ t.definition.fields head parts.length, e.minSize f.type = 0) →
          parts.length ≤ l.maxSequenceLength) ∧
        List.Forall₂ (fun v f => Datum.Accepted e l levels v f.type) parts
          (t.definition.fields head parts.length) := by
  have hof : Datum.HasType e.types ⟨head, parts⟩ id ↔ _ ∧ _ :=
    Datum.hasType_of_definition (Entry.definition?_of_type? type)
  rw [forall₂_accepted]
  constructor
  · intro h
    obtain ⟨htype, hdepth, hcapped⟩ := h
    obtain ⟨admits, fill⟩ := hof.1 htype
    obtain ⟨hfew, hcapped⟩ := Datum.capped_mk.1 hcapped
    rw [Datum.encodeAll_eq_nil_iff fill] at hfew
    rw [Datum.nesting_parts type whole] at hdepth
    exact ⟨admits, hfew, fill, Nat.le_of_lt_succ hdepth, hcapped⟩
  · intro h
    obtain ⟨admits, hfew, fill, hnesting, hcapped⟩ := h
    rw [← Datum.encodeAll_eq_nil_iff fill] at hfew
    refine ⟨hof.2 ⟨admits, fill⟩, ?_, Datum.capped_mk.2 ⟨hfew, hcapped⟩⟩
    rw [Datum.nesting_parts type whole]
    exact Nat.lt_succ_of_le hnesting

theorem Accepts.branch {unknown : Bytes → String → Prop} {r : ReadCard}
    (type : e.type? id = some t) (whole : e.whole? id = none)
    (hread : ∀ id hint indent, Accepts e l levels id hint indent (read id hint indent))
    (reads : IsBranch indent (OpensAs e l read t hint indent) unknown r) :
    Accepts e l (levels + 1) id hint indent r := by
  intro p q c going goes
  rw [reads p c q going]
  constructor
  · intro h
    rcases h with ⟨o, d, children, ⟨head, count, admits, hfew, rfl⟩, hd, -, hparts, rfl⟩ |
        ⟨_, _, _, -, -, hended, -⟩
    · obtain ⟨parts, haccepted, hb, rfl⟩ := (inOrder_fields hread rfl goes).1 hparts
      obtain rfl : parts.length = count := haccepted.length_eq.trans admits.length_fields
      refine ⟨⟨head, parts⟩, (accepted_mk type whole).2 ⟨admits, hfew, haccepted⟩, ?_, ?_⟩
      · rw [Datum.encode_mk]
        exact hd.trans hb
      · have hoffset : d.offset = p.cursor.offset + (head.encode parts.length).length := hd.offset
        rw [Datum.card_parts type whole, ← hoffset]
        rfl
    · exact absurd hended.2 (by simp [goes])
  · intro h
    obtain ⟨⟨head, parts⟩, hv, hb, rfl⟩ := h
    obtain ⟨admits, hfew, haccepted⟩ := (accepted_mk type whole).1 hv
    rw [Datum.encode_mk] at hb
    obtain ⟨d, hd, hrest⟩ := hb.split
    refine .inl ⟨openingOf e read t hint indent head parts.length, d, _,
      ⟨head, _, admits, hfew, rfl⟩, hd, ?_,
      (inOrder_fields hread rfl goes).2 ⟨parts, haccepted, hrest, rfl⟩, ?_⟩
    · have hsum := Datum.sum_minSize_le (forall₂_accepted.1 haccepted).1
      rw [d.remaining_eq, hrest.rest, List.length_append]
      simp only [openingOf]
      split <;> omega
    · rw [Datum.card_parts type whole, ← hd.offset]
      rfl

/-! ### Types -/

/-- Reading a type is exact when reading its parts is. -/
theorem accepts_readType
    (hread : ∀ id hint indent, Accepts e l levels id hint indent (read id hint indent)) :
    Accepts e l (levels + 1) id hint indent (readType e l read id hint indent) := by
  cases typeShape e id hint indent with
  | never empty fails => exact .never (fails l read) empty
  | leaf _ _ values reads => exact .leaf (reads l read) (values l)
  | branch type whole reads => exact .branch type whole hread (reads l read)

/-- Reading a type accepts its values, up to as many levels as there are. -/
theorem accepts_readValue (e : Entry) (l : Limits) (levels : Nat) (id : TypeId) (hint : Hint)
    (indent : Nat) : Accepts e l levels id hint indent (readValue e l levels id hint indent) := by
  induction levels generalizing id hint indent with
  | zero =>
    intro p q c _ _
    constructor
    · intro h
      simp [readValue] at h
    · intro h
      obtain ⟨v, hv, -⟩ := h
      exact absurd hv.depth (Nat.not_lt_zero _)
  | succ n ih =>
    exact Accepts.congr (accepts_readType ih) fun p x => readValue_succ_eq_ok.symm

/-! ### Where the reading ends -/

/-- A reader ends the reading when it shows an unknown index, and only then. -/
def TellsEnd (read : ReadCard) : Prop :=
  ∀ p c q, p.halted = false → read p = .ok (c, q) → (q.halted = false ↔ Card.NoUnknown [c])

theorem InOrder.going_iff {readers : List ReadCard} {p q : Place} {cards : List Card}
    (h : InOrder readers p cards q) (hreaders : ∀ r ∈ readers, TellsEnd r)
    (going : p.halted = false) : q.halted = false ↔ Card.NoUnknown cards := by
  induction h with
  | done => simp [going, Card.NoUnknown]
  | halted ended => exact absurd ended (by simp [going])
  | @read r rest p p' q c cards _ first others ih =>
    rw [Card.NoUnknown.cons]
    have hfirst := hreaders _ (List.mem_cons_self ..) p c p' going first
    cases hp : p'.halted with
    | false => simp only [← hfirst, hp, ih (fun s hs => hreaders s (List.mem_cons_of_mem _ hs)) hp,
        true_and]
    | true =>
      -- Nothing follows a reading that has ended.
      have hq : q.halted ≠ false := fun goes => by simp [others.going goes] at hp
      simp only [← hfirst, hp, hq, Bool.true_eq_false, false_and]

theorem ValueReader.tellsEnd {read : ReadCard} (h : ValueReader e indent read) : TellsEnd read := by
  induction h with
  | never fails => exact fun p c q _ hr => absurd hr (fails p (c, q))
  | leaf form reads =>
    intro p c q going hr
    obtain ⟨b, kind, value, hshows, -, hq, rfl⟩ := (reads p c q).1 hr
    simp [Card.NoUnknown, hq, going, (form.kind_ne hshows).1]
  | branch form reads parts ih =>
    intro p c q going hr
    rcases (reads p c q going).1 hr with
      ⟨o, d, children, ho, -, -, hparts, rfl⟩ | ⟨head, label, d, -, -, hended, rfl⟩
    · rw [hparts.going_iff (ih o ho) rfl]
      simp [Card.NoUnknown, (form.kind_ne ho).1]
    · simp [Card.NoUnknown, unknownCard, hended.2]

/-- Decoding accepts the encodings of values within the limits, and shows their cards;
what else it accepts shows an unknown index. -/
theorem decodeValue_exact (e : Entry) (l : Limits) (payload : Bytes) (id : TypeId)
    (cards : List Card) :
    decodeValue e l payload id = .ok cards ∧ Card.NoUnknown cards ↔
      ∃ v : Datum, v.HasType e.types id ∧ v.encode = payload ∧ v.nesting e id ≤ l.maxDepth ∧
        v.Capped l.maxSequenceLength ∧ cards = [v.card e id .plain 0 0] := by
  have hexact := accepts_readValue e l (l.maxDepth + 1) id .plain 0 ⟨.start payload, false⟩
  have htells := (valueReader e l (l.maxDepth + 1) id .plain 0).tellsEnd ⟨.start payload, false⟩
  simp only [decodeValue, bind_eq_ok, Prod.exists]
  constructor
  · intro h
    obtain ⟨⟨c, q, hr, h⟩, hknown⟩ := h
    split at h
    · next hend =>
      obtain rfl := pure_eq_ok.1 h
      have goes := (htells c q rfl hr).2 hknown
      obtain ⟨v, hv, hb, rfl⟩ := (hexact q c rfl goes).1 hr
      refine ⟨v, hv.type, ?_, Nat.le_of_lt_succ hv.depth, hv.capped, rfl⟩
      have hrest := hb.rest
      rw [Cursor.remaining_eq_zero.1 hend, List.append_nil] at hrest
      exact hrest.symm
    · cases h
  · intro h
    obtain ⟨v, htype, rfl, hdepth, hcapped, rfl⟩ := h
    obtain ⟨d, hd, hrest⟩ := Cursor.exists_consumes (c := .start v.encode) (List.append_nil _).symm
    have hr := (hexact ⟨d, false⟩ _ rfl rfl).2
      ⟨v, ⟨htype, Nat.lt_succ_of_le hdepth, hcapped⟩, hd, rfl⟩
    refine ⟨⟨_, _, hr, ?_⟩, (htells _ _ rfl hr).1 rfl⟩
    rw [if_pos (Cursor.remaining_eq_zero.2 hrest)]
    rfl

end Review

end ColdSigner
