import ColdSigner.Proofs.Review.Coverage
import ColdSigner.Proofs.Review.ExactFraming
import ColdSigner.Proofs.Review.LengthCheck
import ColdSigner.Proofs.Review.SingleReading

/-! Nothing is read behind an unknown index.

An index that selects nothing ends the reading at every level: no field, no item and no
element follows, however deep the index stands. What is left of the region is then shown
by one card of raw bytes, the last of all, which stands alone under the card of the index
(`EndsUnread`). That the index selects nothing is a fact about its type: `ShownAs` follows
the types of a tree of cards from its root down. -/
namespace ColdSigner

open Review

/-! ### A cursor in a payload -/

/-- The cursor stands in the payload. -/
def Cursor.Inside (payload : Bytes) (c : Cursor) : Prop := (payload.take c.stop).drop c.offset = c.rest

namespace Cursor

variable {payload b : Bytes} {c d : Cursor}

theorem inside_start (payload : Bytes) : (start payload).Inside payload :=
  List.take_of_length_le (Nat.le_refl _)

theorem inside_region (payload : Bytes) (first stop : Nat) : (region payload first stop).Inside payload :=
  rfl

/-- The bytes that a read takes stand between the cursors. -/
theorem Inside.taken (h : c.Inside payload) (hb : c.Consumes b d) :
    (payload.take d.offset).drop c.offset = b := by
  have hstop : d.offset ≤ c.stop := by
    have hd := d.bounded
    rw [hb.stop_eq] at hd
    omega
  have hlength : d.offset - c.offset = b.length := by
    rw [hb.offset]
    omega
  rw [← Nat.min_eq_left hstop, ← List.take_take, List.drop_take, h, hlength, hb.rest, List.take_left]

theorem Inside.after (h : c.Inside payload) (hb : c.Consumes b d) : d.Inside payload := by
  unfold Inside at h ⊢
  rw [hb.stop_eq, hb.offset, ← List.drop_drop, h, hb.rest, List.drop_left]

end Cursor

/-- The bytes that a card shows itself. -/
def Card.ownBytes (payload : Bytes) (c : Card) : Bytes := (payload.take c.span.stop).drop c.span.start

/-! ### The end of a region -/

/-- A card that shows an index that selects nothing: of a variant or, at the front of a call,
of a pallet. -/
def Card.IsUnknown (c : Card) : Prop :=
  c.kind = .unknownVariant ∨
    c.kind = .pallet ∧ ∃ index : UInt8, c.value = "unknown pallet " ++ toString index.toNat

/-- The only card below an unknown index shows all that stands behind it, up to the stop. -/
structure Unread (payload : Bytes) (stop : Nat) (parent raw : Card) : Prop where
  unknown : parent.IsUnknown
  below : parent.children = [raw]
  kind : raw.kind = .raw
  follows : raw.span.start = parent.span.stop
  stops : raw.span.stop = stop
  shows : raw.value = Hex.show0x (raw.ownBytes payload)

/-- The last two of the cards, parents before children, are an unknown index and what was not
read behind it; all others were read. -/
def EndsUnread (payload : Bytes) (stop : Nat) (cards : List Card) : Prop :=
  ∃ before parent raw, Unread payload stop parent raw ∧
    Card.allListed cards = before ++ [parent, raw] ∧
    ∀ c ∈ before, c.kind ≠ .unknownVariant ∧ c.kind ≠ .raw

/-- Everything was read, or the cards end with what was not: one card of raw bytes at most. -/
def EndsRegion (payload : Bytes) (stop : Nat) (cards : List Card) : Prop :=
  Card.Known cards ∨ EndsUnread payload stop cards

namespace EndsUnread

variable {payload : Bytes} {stop : Nat} {cards : List Card} {c : Card}

/-- Cards that were read may stand in front. -/
theorem cons (h : EndsUnread payload stop cards) (hc : Card.Known [c]) :
    EndsUnread payload stop (c :: cards) := by
  obtain ⟨before, parent, raw, unread, listed, known⟩ := h
  refine ⟨Card.allListed [c] ++ before, parent, raw, unread, ?_, ?_⟩
  · rw [← List.singleton_append, Card.allListed_append, listed, List.append_assoc]
  · exact fun d hd => (List.mem_append.1 hd).elim (hc d) (known d)

/-- A card of another kind may stand above. -/
theorem under (h : EndsUnread payload stop c.children) (hc : c.kind ≠ .unknownVariant ∧ c.kind ≠ .raw) :
    EndsUnread payload stop [c] := by
  obtain ⟨before, parent, raw, unread, listed, known⟩ := h
  refine ⟨c :: before, parent, raw, unread, ?_, List.forall_mem_cons.2 ⟨hc, known⟩⟩
  rw [Card.allListed_cons, Card.allListed_nil, List.append_nil, listed, List.cons_append]

/-- An unknown index with the rest of the region below it. -/
theorem of_rest {d : Cursor} {indent : Nat} (inside : d.Inside payload) (unknown : c.IsUnknown)
    (span : c.span.stop = d.offset)
    (below : c.children = [⟨.raw, Hex.show0x d.rest, indent, ⟨d.offset, d.stop⟩, []⟩]) :
    EndsUnread payload d.stop [c] := by
  refine ⟨[], c, _, ⟨unknown, below, rfl, span.symm, rfl, congrArg Hex.show0x inside.symm⟩, ?_, by simp⟩
  rw [Card.allListed_cons, below]
  simp

end EndsUnread

namespace Review

variable {e : Entry} {payload : Bytes}

/-- The cards of a reading that started at a place of a region: either it goes on, and they were
all read, or it has ended, and they end with what was not. -/
def EndsAs (payload : Bytes) (c : Cursor) (cards : List Card) (q : Place) : Prop :=
  q.halted = false ∧ Card.Known cards ∨ q.halted = true ∧ EndsUnread payload c.stop cards

theorem EndsAs.endsRegion {c : Cursor} {cards : List Card} {q : Place}
    (h : EndsAs payload c cards q) : EndsRegion payload c.stop cards :=
  h.imp And.right And.right

/-- A reader whose card ends as the reading does. -/
def EndsReading (payload : Bytes) (read : ReadCard) : Prop :=
  ∀ p c q, p.halted = false → p.cursor.Inside payload → read p = .ok (c, q) →
    EndsAs payload p.cursor [c] q

theorem InOrder.endsAs {indent : Nat} {readers : List ReadCard} {p q : Place} {cards : List Card}
    (h : InOrder readers p cards q) (lays : ∀ r ∈ readers, Lays indent r)
    (ends : ∀ r ∈ readers, EndsReading payload r) (going : p.halted = false)
    (inside : p.cursor.Inside payload) : EndsAs payload p.cursor cards q := by
  induction h with
  | done p => exact .inl ⟨going, by simp [Card.Known]⟩
  | halted ended => exact absurd ended (by simp [going])
  | read _ first others ih =>
    rw [List.forall_mem_cons] at lays ends
    obtain ⟨b, hb⟩ := (lays.1 _ _ _ going first).1
    rcases ends.1 _ _ _ going inside first with ⟨goes, known⟩ | ⟨ended, unread⟩
    · rcases ih lays.2 ends.2 goes (inside.after hb) with
        ⟨goes, others⟩ | ⟨ended, unread⟩
      · exact .inl ⟨goes, Card.Known.cons_iff.2
          ⟨(Card.Known.cons_iff.1 known).1, (Card.Known.cons_iff.1 known).2.1, others⟩⟩
      · rw [hb.stop_eq] at unread
        exact .inr ⟨ended, unread.cons known⟩
    · -- Nothing follows a reading that has ended.
      cases others with
      | done => exact .inr ⟨ended, unread⟩
      | halted => exact .inr ⟨ended, unread⟩
      | read going' => exact absurd ended (by simp [going'])

theorem ValueReader.endsReading {indent : Nat} {read : ReadCard} (h : ValueReader e indent read) :
    EndsReading payload read := by
  induction h with
  | never fails => exact fun p c q _ _ hr => absurd hr (fails p (c, q))
  | leaf form reads =>
    intro p c q going _ hr
    obtain ⟨b, kind, value, hshows, -, hq, rfl⟩ := (reads p c q).1 hr
    exact .inl ⟨hq.trans going, Card.Known.cons_iff.2
      ⟨form.kind_ne hshows, by simp [Card.Known], by simp [Card.Known]⟩⟩
  | branch form reads parts ih =>
    intro p c q going inside hr
    rcases (reads p c q going).1 hr with
      ⟨o, d, children, ho, hd, -, hparts, rfl⟩ | ⟨head, label, d, -, hd, hended, rfl⟩
    · have hends := hparts.endsAs (fun r hr => (parts o ho r hr).lays) (ih o ho) rfl (inside.after hd)
      rcases hends with ⟨goes, known⟩ | ⟨ended, unread⟩
      · exact .inl ⟨goes, Card.Known.cons_iff.2 ⟨form.kind_ne ho, known, by simp [Card.Known]⟩⟩
      · rw [show d.stop = p.cursor.stop from hd.stop_eq] at unread
        exact .inr ⟨ended, .under (c := ⟨_, _, _, _, _⟩) unread (form.kind_ne ho)⟩
    · refine .inr ⟨hended.2, ?_⟩
      rw [← hd.stop_eq]
      exact .of_rest (inside.after hd) (.inl rfl) rfl rfl

/-- The cards of a call end as its region does. -/
theorem ReadsCall.endsRegion {l : Limits} {start : Nat} {c : Cursor} {card : Card}
    (h : ReadsCall e l start c card) (inside : c.Inside payload) : EndsRegion payload c.stop [card] := by
  cases h with
  | known first selected reads callable done =>
    rw [← first.stop_eq]
    rcases (valueReader ..).endsReading _ _ _ rfl (inside.after first) reads with
      ⟨-, known⟩ | ⟨-, unread⟩
    · exact .inl (Card.Known.cons_iff.2 ⟨by simp, known, by simp [Card.Known]⟩)
    · exact .inr (.under (c := ⟨_, _, _, _, _⟩) unread (by simp))
  | @unknown index d first uncallable =>
    rw [← first.stop_eq]
    exact .inr (.of_rest (inside.after first) (.inr ⟨rfl, index, rfl⟩) rfl rfl)

end Review

/-! ### Cards along types -/

/-- Cards along the types of what they show: under the name of a field, in one card, over the
cards of the parts that a head announces, or as an index that the type does not declare. Only
raw bytes have no type. -/
inductive ShownAs (e : Entry) (payload : Bytes) : Field → Card → Prop where
  | named {f : Field} {name : String} {indent : Nat} {span : Span} {value : Card}
      (named : f.name = some name) (shown : ShownAs e payload (.ofType f.type) value) :
      ShownAs e payload f ⟨.fieldName, name, indent, span, [value]⟩
  | leaf {f : Field} {t : TypeEntry} {c : Card} (unnamed : f.name = none)
      (type : e.type? f.type = some t) (read : c.kind ≠ .unknownVariant ∧ c.kind ≠ .raw)
      (childless : c.children = []) : ShownAs e payload f c
  | parts {f : Field} {t : TypeEntry} {c : Card} {head : Head} {count : Nat} (unnamed : f.name = none)
      (type : e.type? f.type = some t) (read : c.kind ≠ .unknownVariant ∧ c.kind ≠ .raw)
      (admits : t.definition.Admits e.types head count) (own : c.ownBytes payload = head.encode count)
      (each : ∀ p ∈ (t.definition.fields head count).zip c.children, ShownAs e payload p.1 p.2)
      (few : c.children.length ≤ count) : ShownAs e payload f c
  | undeclared {f : Field} {t : TypeEntry} {variants : List Variant} {c : Card} {index : UInt8}
      {hint : Hint} (unnamed : f.name = none) (type : e.type? f.type = some t)
      (definition : t.definition = .variant variants) (kind : c.kind = .unknownVariant)
      (own : c.ownBytes payload = [index])
      (label : c.value = "unknown " ++ (variantKind t.name hint).2 ++ " " ++ toString index.toNat)
      (absent : ∀ v ∈ variants, v.index ≠ index) : ShownAs e payload f c

/-- Without a name, a field shows its value alone. -/
theorem ShownAs.of_unnamed {e : Entry} {payload : Bytes} {f : Field} {c : Card}
    (unnamed : f.name = none) (h : ShownAs e payload (.ofType f.type) c) : ShownAs e payload f c := by
  cases h with
  | named named => cases named
  | leaf _ type read childless => exact .leaf unnamed type read childless
  | parts _ type read admits own each few => exact .parts unnamed type read admits own each few
  | undeclared _ type definition kind own label absent =>
    exact .undeclared unnamed type definition kind own label absent

namespace Review

variable {e : Entry} {payload : Bytes} {l : Limits} {levels indent : Nat} {id : TypeId} {hint : Hint}

/-- A reader of cards along a type. -/
def ReadsType (e : Entry) (payload : Bytes) (f : Field) (read : ReadCard) : Prop :=
  ∀ p c q, p.halted = false → p.cursor.Inside payload → read p = .ok (c, q) → ShownAs e payload f c

section

variable {read : ReadValue}
  (hread : ∀ id hint indent, ReadsType e payload (.ofType id) (read id hint indent))

include hread

theorem readsType_readField (hint : Option Hint) (indent : Nat) (f : Field) :
    ReadsType e payload f (readField read hint indent f) := by
  intro p c q going inside hr
  cases hf : f.name with
  | none =>
    simp only [readField, hf] at hr
    exact .of_unnamed hf (hread _ _ _ p c q going inside hr)
  | some name =>
    simp only [readField, hf, bind_eq_ok, Prod.exists, pure_eq_ok, Prod.mk.injEq] at hr
    obtain ⟨value, p', hr, rfl, rfl⟩ := hr
    exact .named hf (hread _ _ _ p value p' going inside hr)

/-- The cards of fields in turn show them, as many as were read. -/
theorem InOrder.shownAs (values : ∀ id hint indent, ValueReader e indent (read id hint indent))
    {fields : List Field} {hint : Option Hint} {p q : Place} {cards : List Card}
    (h : InOrder (fields.map (readField read hint indent)) p cards q)
    (inside : p.cursor.Inside payload) :
    (∀ x ∈ fields.zip cards, ShownAs e payload x.1 x.2) ∧ cards.length ≤ fields.length := by
  induction fields generalizing p cards with
  | nil =>
    cases h <;> simp
  | cons f fields ih =>
    cases h with
    | halted => simp
    | read going first others =>
      obtain ⟨b, hb⟩ := ((ValueReader.readField values hint indent f).lays _ _ _ going first).1
      obtain ⟨each, few⟩ := ih others (inside.after hb)
      refine ⟨?_, Nat.succ_le_succ few⟩
      rw [List.zip_cons_cons, List.forall_mem_cons]
      exact ⟨readsType_readField hread hint indent f _ _ _ going inside first, each⟩

theorem readsType_readType (values : ∀ id hint indent, ValueReader e indent (read id hint indent)) :
    ReadsType e payload (.ofType id) (readType e l read id hint indent) := by
  intro p c q going inside hr
  cases typeShape e id hint indent with
  | never _ fails => exact absurd hr (fails l read p (c, q))
  | leaf type form _ reads =>
    obtain ⟨b, kind, value, hshows, -, -, rfl⟩ := (reads l read p c q).1 hr
    exact .leaf rfl type (form.kind_ne hshows) rfl
  | branch type _ reads =>
    rcases (reads l read p c q going).1 hr with
      ⟨o, d, children, ⟨head, count, admits, -, rfl⟩, hd, -, hparts, rfl⟩ |
        ⟨head, label, d, ⟨variants, definition, index, absent, rfl, rfl⟩, hd, -, rfl⟩
    · obtain ⟨each, few⟩ := InOrder.shownAs hread values hparts (inside.after hd)
      rw [admits.length_fields] at few
      exact .parts rfl type (face_kind_ne ..) admits (inside.taken hd) each few
    · refine .undeclared rfl type definition rfl (inside.taken hd) rfl fun v hv hindex => ?_
      have := List.find?_eq_none.1 absent v hv
      simp [hindex] at this

end

/-- The cards of a value follow its type. -/
theorem readsType_readValue (e : Entry) (payload : Bytes) (l : Limits) (levels : Nat) (id : TypeId)
    (hint : Hint) (indent : Nat) :
    ReadsType e payload (.ofType id) (readValue e l levels id hint indent) := by
  induction levels generalizing id hint indent with
  | zero =>
    intro p c q _ _ hr
    simp [readValue] at hr
  | succ levels ih =>
    intro p c q going inside hr
    rw [readValue_succ_eq_ok] at hr
    exact readsType_readType ih (valueReader e l levels) p c q going inside hr

/-- The card of a call shows a pallet over a call of it, or an index without a pallet that has calls. -/
inductive ShownAsCall (e : Entry) (payload call : Bytes) : Card → Prop where
  | known {index : UInt8} {arguments : Bytes} {pallet : Pallet} {calls : TypeId} {span : Span}
      {method : Card} (front : call = index :: arguments) (selected : e.pallet? index = some pallet)
      (callable : pallet.calls = some calls) (shown : ShownAs e payload (.ofType calls) method) :
      ShownAsCall e payload call ⟨.pallet, pallet.name, 0, span, [method]⟩
  | unknown {index : UInt8} {rest : Bytes} {span : Span} {raw : Card} (front : call = index :: rest)
      (uncallable : (e.pallet? index).bind (·.calls) = none) (kind : raw.kind = .raw) :
      ShownAsCall e payload call ⟨.pallet, "unknown pallet " ++ toString index.toNat, 0, span, [raw]⟩

theorem ReadsCall.shownAs {start : Nat} {c : Cursor} {card : Card} (h : ReadsCall e l start c card)
    (inside : c.Inside payload) : ShownAsCall e payload c.rest card := by
  cases h with
  | known first selected reads callable done =>
    exact .known first.rest selected callable
      (readsType_readValue e payload l _ _ _ _ _ _ _ rfl (inside.after first) reads)
  | unknown first uncallable => exact .unknown first.rest uncallable rfl

/-- Behind an unknown index nothing is read: what is left of the region is shown by the last
card, as raw bytes below the card of the index, and the index is none of its type. -/
theorem nothing_read_behind_unknown_index :
    (∀ (e : Entry) (l : Limits) (payload : Bytes) (id : TypeId) (cards : List Card),
      decodeValue e l payload id = .ok cards →
        EndsRegion payload payload.length cards ∧
          ∃ card, cards = [card] ∧ ShownAs e payload (.ofType id) card) ∧
    ∀ (source : MetadataSource) (l : Limits) (payload : Bytes) (review : Review),
      decodeKind .transaction payload source l = .ok review →
        ∃ t : Transaction, t.Accepted source l ∧ payload = t.encode ∧ review = t.review ∧
          EndsRegion payload t.callStop [t.callCard] ∧
          ShownAsCall t.entry payload t.call t.callCard := by
  constructor
  · intro e l payload id cards h
    simp only [decodeValue, bind_eq_ok, Prod.exists] at h
    obtain ⟨card, q, hr, h⟩ := h
    split at h
    · obtain rfl := pure_eq_ok.1 h
      have inside := Cursor.inside_start payload
      exact ⟨((valueReader ..).endsReading _ _ _ rfl inside hr).endsRegion, card, rfl,
        readsType_readValue e payload l _ _ _ _ _ _ _ rfl inside hr⟩
    · cases h
  · intro source l payload review h
    obtain ⟨t, ht, rfl, rfl, -⟩ := exists_of_decodeKind h
    have inside : (Cursor.across t.callStart t.call).Inside t.encode := by
      rw [← t.region_call]
      exact Cursor.inside_region ..
    have ends := ht.call.endsRegion inside
    rw [show (Cursor.across t.callStart t.call).stop = t.callStop from t.callStop_eq.symm] at ends
    exact ⟨t, ht, rfl, rfl, ends, ht.call.shownAs inside⟩

/-- Of three calls the second is unknown, and nothing is read of the third. -/
theorem calls_end_unread :
    (∃ cards, decodeValue callsEntry {} [12, 0, 5, 9, 1, 2, 3] 2 = .ok cards ∧ ¬ Card.Known cards ∧
      EndsRegion [12, 0, 5, 9, 1, 2, 3] 7 cards) ∧
      decodeKind .transaction sampleTransaction.encode sampleRegistry.source {} =
          .ok sampleTransaction.review ∧
        ∃ t : Transaction, sampleTransaction.encode = t.encode ∧
          ShownAsCall t.entry t.encode t.call t.callCard := by
  obtain ⟨values, transactions⟩ := nothing_read_behind_unknown_index
  have hshown : decodeValue callsEntry {} [12, 0, 5, 9, 1, 2, 3] 2 =
      .ok [⟨.sequence, "3 items", 0, ⟨0, 1⟩,
        [⟨.variant, "remark", 1, ⟨1, 2⟩, [⟨.fieldName, "byte", 2, ⟨2, 2⟩, [⟨.number, "5", 3, ⟨2, 3⟩, []⟩]⟩]⟩,
          ⟨.unknownVariant, "unknown variant 9", 1, ⟨3, 4⟩, [⟨.raw, "0x010203", 2, ⟨4, 7⟩, []⟩]⟩]⟩] := rfl
  obtain ⟨t, -, hencode, -, -, shown⟩ := transactions _ _ _ _ decodeKind_sampleTransaction
  refine ⟨⟨_, hshown, ?_, (values _ _ _ _ _ hshown).1⟩, decodeKind_sampleTransaction, t, hencode,
    hencode ▸ shown⟩
  simp [Card.Known]

end Review

end ColdSigner
