import ColdSigner.Proofs.Review.ValueCards

/-! How the values of a type are read.

A type has one shape, whatever the limits and whatever reads its parts: it has no
values, or all of its values are leaves, or its reader is a branch over the heads
that its definition admits. The limits enter only through the openings of a branch,
where they cap parts without bytes. What holds of the values of all types is proved
for these shapes, and two ways to read one type are compared by them. -/
namespace ColdSigner.Review

variable {e : Entry} {l : Limits} {indent : Nat} {id : TypeId} {hint : Hint} {t : TypeEntry}
  {read : ReadValue}

/-! ### Heads -/

/-- The opening of a type by a head over so many parts. -/
def openingOf (e : Entry) (read : ReadValue) (t : TypeEntry) (hint : Hint) (indent : Nat)
    (head : Head) (count : Nat) : Opening where
  head := head.encode count
  kind := (t.face e.specs hint head count).1
  value := (t.face e.specs hint head count).2
  parts := (t.definition.fields head count).map (readField read (t.partHint hint) (indent + 1))
  need :=
    if head = .sequence ∨ head = .array then
      ((t.definition.fields head count).map fun f => e.minSize f.type).sum
    else 0

/-- The openings of a type: its heads, with few parts where these take no bytes. -/
def OpensAs (e : Entry) (l : Limits) (read : ReadValue) (t : TypeEntry) (hint : Hint) (indent : Nat)
    (o : Opening) : Prop :=
  ∃ head count, t.definition.Admits e.types head count ∧
    ((head = .sequence ∨ head = .array) →
      (∀ f ∈ t.definition.fields head count, e.minSize f.type = 0) →
      count ≤ l.maxSequenceLength) ∧
    o = openingOf e read t hint indent head count

section

variable {inner : TypeId}

theorem opens_tuple {ts : List TypeId} (hd : t.definition = .tuple ts) (o : Opening) :
    o = ⟨[], .tuple, t.name, ts.map fun t => read t .plain (indent + 1), 0⟩ ↔
      OpensAs e l read t hint indent o := by
  have hopening : openingOf e read t hint indent .record ts.length =
      ⟨[], .tuple, t.name, ts.map fun t => read t .plain (indent + 1), 0⟩ := by
    simp only [openingOf, TypeEntry.face, TypeEntry.partHint, TypeDef.fields, Head.encode, hd,
      List.map_map, reduceCtorEq, or_self, if_false]
    rfl
  constructor
  · rintro rfl
    exact ⟨.record, ts.length, hd ▸ .tuple ts, by simp, hopening.symm⟩
  · rintro ⟨head, count, admits, -, rfl⟩
    rw [hd] at admits
    cases admits
    exact hopening

theorem opens_composite {fields : List Field} (hd : t.definition = .composite fields) (o : Opening) :
    o = ⟨[], .composite, t.name, fields.map (readField read none (indent + 1)), 0⟩ ↔
      OpensAs e l read t hint indent o := by
  have hopening : openingOf e read t hint indent .record fields.length =
      ⟨[], .composite, t.name, fields.map (readField read none (indent + 1)), 0⟩ := by
    simp only [openingOf, TypeEntry.face, TypeEntry.partHint, TypeDef.fields, Head.encode, hd,
      reduceCtorEq, or_self, if_false]
  constructor
  · rintro rfl
    exact ⟨.record, fields.length, hd ▸ .composite fields, by simp, hopening.symm⟩
  · rintro ⟨head, count, admits, -, rfl⟩
    rw [hd] at admits
    cases admits
    exact hopening

theorem opens_variant {variants : List Variant} (hd : t.definition = .variant variants) (o : Opening) :
    VariantOpening variants (variantKind t.name hint).1
        (fun v => v.fields.map (readField read
          (if (variantKind t.name hint).1 = .pallet then some Hint.call else none) (indent + 1))) o ↔
      OpensAs e l read t hint indent o := by
  have hselected (index : UInt8) :
      selected? variants index = variants.find? (·.index == index) := by
    refine congrArg (variants.find? ·) (funext fun v => ?_)
    rw [Bool.eq_iff_iff, beq_iff_eq, beq_iff_eq, UInt8.toNat_inj]
  have hopening (index : UInt8) (v : Variant) (hv : variants.find? (·.index == index) = some v) :
      openingOf e read t hint indent (.variant index) v.fields.length =
        ⟨[index], (variantKind t.name hint).1, v.name, v.fields.map (readField read
          (if (variantKind t.name hint).1 = .pallet then some Hint.call else none)
          (indent + 1)), 0⟩ := by
    simp only [openingOf, TypeEntry.face, TypeEntry.partHint, TypeDef.fields, Head.encode, hd, hv,
      Option.map_some, Option.getD_some, reduceCtorEq, or_self, if_false]
  constructor
  · rintro ⟨index, v, hv, rfl⟩
    rw [hselected] at hv
    exact ⟨.variant index, v.fields.length, hd ▸ .variant hv, by simp, (hopening index v hv).symm⟩
  · rintro ⟨head, count, admits, -, rfl⟩
    rw [hd] at admits
    cases admits with
    | @variant _ index v hv => exact ⟨index, v, (hselected index).trans hv, hopening index v hv⟩

/-- Of parts of one type, either none or all may take no bytes. -/
theorem few_replicate (n : Nat) :
    (e.minSize inner = 0 → n ≤ l.maxSequenceLength) ↔
      ((∀ f ∈ List.replicate n (Field.ofType inner), e.minSize f.type = 0) →
        n ≤ l.maxSequenceLength) := by
  cases n with
  | zero => simp
  | succ n => simp [Field.ofType]

theorem opens_sequence (hd : t.definition = .sequence inner) (o : Opening) :
    SequenceOpening l.maxSequenceLength (e.minSize inner) (read inner .plain (indent + 1)) o ↔
      OpensAs e l read t hint indent o := by
  have hopening (n : Nat) : openingOf e read t hint indent .sequence n =
      ⟨Wire.Compact.encode n, .sequence, itemCount n,
        List.replicate n (read inner .plain (indent + 1)), n * e.minSize inner⟩ := by
    simp only [openingOf, TypeEntry.face, TypeEntry.partHint, TypeDef.fields, Head.encode, hd,
      List.map_replicate, List.sum_replicate_nat, true_or, if_true]
    rfl
  constructor
  · rintro ⟨n, short, few, rfl⟩
    refine ⟨.sequence, n, hd ▸ .sequence inner short, fun _ => ?_, (hopening n).symm⟩
    rw [hd]
    exact (few_replicate n).1 few
  · rintro ⟨head, count, admits, few, rfl⟩
    rw [hd] at admits few
    cases admits with
    | sequence _ short =>
      exact ⟨count, short, (few_replicate count).2 (few (.inl rfl)), hopening count⟩

theorem opens_array {length : UInt32} (hd : t.definition = .array length inner) (o : Opening) :
    ArrayOpening l.maxSequenceLength (e.minSize inner) length.toNat
        (read inner .plain (indent + 1)) o ↔
      OpensAs e l read t hint indent o := by
  have hopening : openingOf e read t hint indent .array length.toNat =
      ⟨[], .sequence, itemCount length.toNat,
        List.replicate length.toNat (read inner .plain (indent + 1)),
        length.toNat * e.minSize inner⟩ := by
    simp only [openingOf, TypeEntry.face, TypeEntry.partHint, TypeDef.fields, Head.encode, hd,
      List.map_replicate, List.sum_replicate_nat, or_true, if_true]
    rfl
  constructor
  · rintro ⟨few, rfl⟩
    refine ⟨.array, length.toNat, hd ▸ .array length inner, fun _ => ?_, hopening.symm⟩
    rw [hd]
    exact (few_replicate _).1 few
  · rintro ⟨head, count, admits, few, rfl⟩
    rw [hd] at admits few
    cases admits
    exact ⟨(few_replicate _).2 (few (.inr rfl)), hopening⟩

end

/-! ### Kinds -/

/-- No variant that is declared is shown as an unknown index or as raw bytes. -/
theorem variantKind_ne (typeName : String) (hint : Hint) :
    (variantKind typeName hint).1 ≠ .unknownVariant ∧ (variantKind typeName hint).1 ≠ .raw := by
  unfold variantKind
  split
  · simp
  · split <;> simp

/-- No value is shown so. -/
theorem face_kind_ne (t : TypeEntry) (specs : NetworkSpecs) (hint : Hint) (head : Head) (count : Nat) :
    (t.face specs hint head count).1 ≠ .unknownVariant ∧ (t.face specs hint head count).1 ≠ .raw := by
  cases head with
  | integer width z =>
    dsimp only [TypeEntry.face]
    split
    · split
      · simp
      · exact showNumber_kind ..
    · simp
  | compact n => exact showNumber_kind ..
  | record =>
    dsimp only [TypeEntry.face]
    split <;> simp
  | variant index =>
    dsimp only [TypeEntry.face]
    split <;> exact variantKind_ne ..
  | _ => simp [TypeEntry.face]

/-! ### Shapes -/

theorem IsBranch.congr {openings openings' : Opening → Prop} {unknown : Bytes → String → Prop}
    {r : ReadCard} (h : IsBranch indent openings unknown r) (same : ∀ o, openings o ↔ openings' o) :
    IsBranch indent openings' unknown r := by
  obtain rfl : openings = openings' := funext fun o => propext (same o)
  exact h

theorem IsBranch.congr_unknown {openings : Opening → Prop} {unknown unknown' : Bytes → String → Prop}
    {r : ReadCard} (h : IsBranch indent openings unknown r)
    (same : ∀ head label, unknown head label ↔ unknown' head label) :
    IsBranch indent openings unknown' r := by
  obtain rfl : unknown = unknown' := funext fun head => funext fun label => propext (same head label)
  exact h

/-- The heads of the variants that a type does not have. -/
def UndeclaredIndex (t : TypeEntry) (hint : Hint) (head : Bytes) (label : String) : Prop :=
  ∃ variants, t.definition = .variant variants ∧
    UnknownIndex variants (variantKind t.name hint).2 head label

/-- How values of a type are read. -/
inductive TypeShape (e : Entry) (id : TypeId) (hint : Hint) (indent : Nat) : Prop where
  | never (empty : ∀ v : Datum, ¬ v.HasType e.types id)
      (fails : ∀ l read p x, readType e l read id hint indent p ≠ .ok x)
  | leaf {t : TypeEntry} {shows : Shows} (type : e.type? id = some t)
      (form : LeafForm e.specs shows) (values : ∀ l, ShowsValues e l id hint shows)
      (reads : ∀ l read, IsLeaf indent shows (readType e l read id hint indent))
  | branch {t : TypeEntry} (type : e.type? id = some t) (whole : e.whole? id = none)
      (reads : ∀ l read, IsBranch indent (OpensAs e l read t hint indent) (UndeclaredIndex t hint)
        (readType e l read id hint indent))

theorem undeclaredIndex_variant {variants : List Variant} (hd : t.definition = .variant variants)
    (head : Bytes) (label : String) :
    UnknownIndex variants (variantKind t.name hint).2 head label ↔ UndeclaredIndex t hint head label := by
  constructor
  · exact fun h => ⟨variants, hd, h⟩
  · intro h
    obtain ⟨variants', hd', h⟩ := h
    obtain rfl := TypeDef.variant.inj (hd.symm.trans hd')
    exact h

/-- A type without variants has no unknown heads. -/
theorem noUnknown_iff (hd : ∀ variants, t.definition ≠ .variant variants) (head : Bytes)
    (label : String) : noUnknown head label ↔ UndeclaredIndex t hint head label :=
  iff_of_false id fun h => by
    obtain ⟨variants, hv, -⟩ := h
    exact hd variants hv

/-- The shape of a type that is read as its definition says. -/
theorem typeShape_of_definition (type : e.type? id = some t)
    (whole : e.whole? id = e.byteParts? t.definition)
    (reads : ∀ l read, readType e l read id hint indent =
      readDefinition e l read t.name t.definition hint indent) : TypeShape e id hint indent := by
  cases hd : t.definition with
  | primitive p =>
    rw [hd] at whole
    cases hw : p.width? with
    | none =>
      obtain rfl : p = .str := by cases p <;> first | rfl | cases hw
      refine .leaf type .text (fun l => showsValues_text type whole hd) fun l read => ?_
      rw [reads, hd]
      exact isLeaf_readText
    | some n =>
      refine .leaf type (.primitive hint hw) (fun l => showsValues_primitive type whole hd hw)
        fun l read => ?_
      rw [reads, hd]
      exact isLeaf_readPrimitive hw
  | compact inner =>
    rw [hd] at whole
    cases hc : e.types.compactTarget? inner with
    | none =>
      refine .never (fun v hv => ?_) fun l read p x h => ?_
      · obtain ⟨head, parts⟩ := v
        obtain ⟨admits, -⟩ :=
          (Datum.hasType_of_definition (hd ▸ Entry.definition?_of_type? type)).1 hv
        generalize List.length parts = count at admits
        cases admits with
        | compact target sort =>
          have := TypeTable.compactTarget?_eq_some.2 ⟨target, sort⟩
          rw [hc] at this
          cases this
      · simp only [reads, hd, readDefinition, readCompact, hc, reduceCtorEq] at h
    | some target =>
      refine .leaf type (.compact hint _) (fun l => showsValues_compact type whole hd hc)
        fun l read => ?_
      rw [reads, hd]
      exact isLeaf_readCompact hc
  | sequence inner =>
    rw [hd] at whole
    cases hb : e.types.isByte inner with
    | true =>
      rw [Entry.byteParts?, if_pos hb] at whole
      refine .leaf type .counted (fun l => showsValues_counted type whole hd hb) fun l read => ?_
      rw [reads, hd]
      exact isLeaf_readSequence hb
    | false =>
      rw [Entry.byteParts?, if_neg (by simp [hb])] at whole
      refine .branch type whole fun l read => ?_
      rw [reads, hd]
      exact ((isBranch_readSequence hb).congr (opens_sequence hd)).congr_unknown
        (noUnknown_iff (by simp [hd]))
  | array length inner =>
    rw [hd] at whole
    cases hb : e.types.isByte inner with
    | true =>
      rw [Entry.byteParts?, if_pos hb] at whole
      refine .leaf type (.bytes length.toNat) (fun l => showsValues_bytes type whole hd hb)
        fun l read => ?_
      have hbytes : readType e l read id hint indent =
          fun p => readBytes .bytes Hex.show0x length.toNat p.cursor.offset indent p := by
        funext p
        simp only [reads, hd, readDefinition, readArray, hb, if_true]
      rw [hbytes]
      exact isLeaf_readBytes
    | false =>
      rw [Entry.byteParts?, if_neg (by simp [hb])] at whole
      refine .branch type whole fun l read => ?_
      rw [reads, hd]
      exact ((isBranch_readArray hb).congr (opens_array hd)).congr_unknown
        (noUnknown_iff (by simp [hd]))
  | tuple ts =>
    rw [hd] at whole
    refine .branch type whole fun l read => ?_
    rw [reads, hd]
    exact (isBranch_readContainer.congr (opens_tuple hd)).congr_unknown (noUnknown_iff (by simp [hd]))
  | composite fields =>
    rw [hd] at whole
    refine .branch type whole fun l read => ?_
    rw [reads, hd]
    exact (isBranch_readContainer.congr (opens_composite hd)).congr_unknown
      (noUnknown_iff (by simp [hd]))
  | variant variants =>
    rw [hd] at whole
    refine .branch type whole fun l read => ?_
    rw [reads, hd]
    exact (isBranch_readVariant.congr (opens_variant hd)).congr_unknown (undeclaredIndex_variant hd)

/-- Every type has a shape; accounts and hashes are leaves whatever their definition. -/
theorem typeShape (e : Entry) (id : TypeId) (hint : Hint) (indent : Nat) :
    TypeShape e id hint indent := by
  cases ht : e.type? id with
  | none =>
    refine .never (fun v hv => ?_) fun l read p x h => ?_
    · obtain ⟨definition, -, -⟩ := hv
      obtain ⟨t, htype, -⟩ := Option.map_eq_some_iff.1 definition
      rw [show e.types[id.toNat]? = none from ht] at htype
      cases htype
    · simp only [readType, Entry.lookup, ht, reduceCtorEq] at h
  | some t =>
    have hat : e.typeAt id = t := by rw [Entry.typeAt, ht, Option.getD_some]
    by_cases ha : t.name = "AccountId32" ∧ e.types.byteArray? id = some 32
    · have whole : e.whole? id = some (.id, Address.encode e.specs.addressFormat) := by
        rw [Entry.whole?, hat, if_pos ha]
      refine .leaf ht .account (fun l => showsValues_byteArray whole ha.2) fun l read => ?_
      have hbytes : readType e l read id hint indent = fun p => readBytes .id
          (Address.encode e.specs.addressFormat) 32 p.cursor.offset indent p := by
        funext p
        simp only [readType, Entry.lookup, ht, if_pos ha]
      rw [hbytes]
      exact isLeaf_readBytes
    · by_cases hh : t.name = "H256" ∧ e.types.byteArray? id = some 32
      · have whole : e.whole? id = some (.hash, Hex.show0x) := by
          rw [Entry.whole?, hat, if_neg ha, if_pos hh]
        refine .leaf ht .hash (fun l => showsValues_byteArray whole hh.2) fun l read => ?_
        have hbytes : readType e l read id hint indent =
            fun p => readBytes .hash Hex.show0x 32 p.cursor.offset indent p := by
          funext p
          simp only [readType, Entry.lookup, ht, if_neg ha, if_pos hh]
        rw [hbytes]
        exact isLeaf_readBytes
      · refine typeShape_of_definition ht ?_ fun l read => ?_
        · rw [Entry.whole?, hat, if_neg ha, if_neg hh]
        · funext p
          simp only [readType, Entry.lookup, ht, if_neg ha, if_neg hh]

end ColdSigner.Review
