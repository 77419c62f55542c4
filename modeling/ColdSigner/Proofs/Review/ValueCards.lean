import ColdSigner.Proofs.Review.Disclosure
import ColdSigner.Proofs.Schema.Datum

/-! The card of a value.

`Datum.card` is what a value of a type shows. Accounts, hashes and byte strings are
shown whole, in one card; other values are shown over the cards of their parts, each
one level deeper. The readers of leaves accept the bytes of values that are shown in
one card, and show them so. -/
namespace ColdSigner

open Review

namespace Entry

/-- The type; what is no type counts as the empty tuple. -/
def typeAt (e : Entry) (id : TypeId) : TypeEntry := (e.type? id).getD ⟨"", .tuple []⟩

/-- How the parts of byte strings are shown. -/
def byteParts? (e : Entry) : TypeDef → Option (CardKind × (Bytes → String))
  | .sequence inner => if e.types.isByte inner then some (.bytes, Hex.show0x) else none
  | .array _ inner => if e.types.isByte inner then some (.bytes, Hex.show0x) else none
  | _ => none

/-- How the bytes of the parts are shown, for types whose values are shown whole. -/
def whole? (e : Entry) (id : TypeId) : Option (CardKind × (Bytes → String)) :=
  let t := e.typeAt id
  if t.name = "AccountId32" ∧ e.types.byteArray? id = some 32 then
    some (.id, Address.encode e.specs.addressFormat)
  else if t.name = "H256" ∧ e.types.byteArray? id = some 32 then some (.hash, Hex.show0x)
  else e.byteParts? t.definition

end Entry

/-- The kind and value of a card over so many parts. -/
def TypeEntry.face (t : TypeEntry) (specs : NetworkSpecs) (hint : Hint) :
    Head → Nat → CardKind × String
  | .bool b, _ => (.bool, if b then "true" else "false")
  | .char c, _ => (.char, String.ofList [c])
  | .text s, _ => (.text, s)
  | .integer _ z, _ =>
    match t.definition with
    | .primitive p => if p.isSigned then (.number, toString z) else showNumber specs hint z.toNat
    | _ => (.number, toString z)
  | .compact n, _ => showNumber specs hint n
  | .sequence, count => (.sequence, itemCount count)
  | .array, count => (.sequence, itemCount count)
  | .record, _ =>
    match t.definition with
    | .tuple _ => (.tuple, t.name)
    | _ => (.composite, t.name)
  | .variant index, _ =>
    match t.definition with
    | .variant variants =>
      ((variantKind t.name hint).1, ((variants.find? (·.index == index)).map (·.name)).getD "")
    | _ => ((variantKind t.name hint).1, "")

/-- What the values of a type say about how to show their parts. -/
def TypeEntry.partHint (t : TypeEntry) (hint : Hint) : Option Hint :=
  match t.definition with
  | .variant _ => if (variantKind t.name hint).1 = .pallet then some .call else none
  | _ => none

namespace Datum

mutual

/-- The card of a value that begins at an offset. -/
def card (e : Entry) : Datum → TypeId → Hint → Nat → Nat → Card
  | ⟨head, parts⟩, id, hint, indent, offset =>
    let t := e.typeAt id
    let next := offset + (head.encode parts.length).length
    match e.whole? id with
    | some (kind, render) =>
      ⟨kind, render (encodeAll parts), indent, ⟨offset, next + (encodeAll parts).length⟩, []⟩
    | none =>
      ⟨(t.face e.specs hint head parts.length).1, (t.face e.specs hint head parts.length).2, indent,
        ⟨offset, next⟩, cards e parts (t.definition.fields head parts.length) (t.partHint hint)
          (indent + 1) next⟩

/-- The cards of values that fill fields; a field with a name has a card of its own. -/
def cards (e : Entry) : List Datum → List Field → Option Hint → Nat → Nat → List Card
  | v :: rest, f :: fields, hint, indent, offset =>
    (match f.name with
      | none => v.card e f.type (hint.getD (.ofField f)) indent offset
      | some name => ⟨.fieldName, name, indent, ⟨offset, offset⟩,
          [v.card e f.type (hint.getD (.ofField f)) (indent + 1) offset]⟩) ::
      cards e rest fields hint indent (offset + v.encode.length)
  | _, _, _, _, _ => []

end

mutual

/-- How deep a value of a type is nested; what is shown whole has no levels below. -/
def nesting (e : Entry) : Datum → TypeId → Nat
  | ⟨head, parts⟩, id =>
    if (e.whole? id).isSome then 0
    else nestingAll e parts ((e.typeAt id).definition.fields head parts.length)

def nestingAll (e : Entry) : List Datum → List Field → Nat
  | v :: rest, f :: fields => max (nesting e v f.type + 1) (nestingAll e rest fields)
  | _, _ => 0

end

variable {e : Entry} {id : TypeId} {hint : Hint} {indent offset : Nat} {head : Head}
  {parts : List Datum}

theorem card_whole {kind : CardKind} {render : Bytes → String}
    (whole : e.whole? id = some (kind, render)) :
    card e ⟨head, parts⟩ id hint indent offset =
      ⟨kind, render (encodeAll parts), indent,
        ⟨offset, offset + (encode ⟨head, parts⟩).length⟩, []⟩ := by
  rw [card, whole, encode_mk, List.length_append, Nat.add_assoc]

theorem card_parts {t : TypeEntry} (type : e.type? id = some t) (whole : e.whole? id = none) :
    card e ⟨head, parts⟩ id hint indent offset =
      ⟨(t.face e.specs hint head parts.length).1, (t.face e.specs hint head parts.length).2, indent,
        ⟨offset, offset + (head.encode parts.length).length⟩,
        cards e parts (t.definition.fields head parts.length) (t.partHint hint) (indent + 1)
          (offset + (head.encode parts.length).length)⟩ := by
  rw [card, whole, Entry.typeAt, type, Option.getD_some]

/-- The card of a value in a field. -/
def fieldCard (e : Entry) (v : Datum) (f : Field) (hint : Option Hint) (indent offset : Nat) : Card :=
  match f.name with
  | none => v.card e f.type (hint.getD (.ofField f)) indent offset
  | some name => ⟨.fieldName, name, indent, ⟨offset, offset⟩,
      [v.card e f.type (hint.getD (.ofField f)) (indent + 1) offset]⟩

@[simp] theorem cards_cons {v : Datum} {rest : List Datum} {f : Field} {fields : List Field}
    {hint : Option Hint} :
    cards e (v :: rest) (f :: fields) hint indent offset =
      fieldCard e v f hint indent offset ::
        cards e rest fields hint indent (offset + v.encode.length) := by
  rw [cards]
  rfl

@[simp] theorem cards_nil {fields : List Field} {hint : Option Hint} :
    cards e [] fields hint indent offset = [] := by
  rw [cards]
  rintro _ _ _ _ ⟨⟩

@[simp] theorem nestingAll_nil {fields : List Field} : nestingAll e [] fields = 0 := by
  rw [nestingAll]
  rintro _ _ _ _ ⟨⟩

@[simp] theorem nestingAll_cons {v : Datum} {rest : List Datum} {f : Field} {fields : List Field} :
    nestingAll e (v :: rest) (f :: fields) =
      max (nesting e v f.type + 1) (nestingAll e rest fields) := by
  rw [nestingAll]

theorem nesting_whole (whole : (e.whole? id).isSome = true) : nesting e ⟨head, parts⟩ id = 0 := by
  rw [nesting, if_pos whole]

theorem nesting_parts {t : TypeEntry} (type : e.type? id = some t) (whole : e.whole? id = none) :
    nesting e ⟨head, parts⟩ id = nestingAll e parts (t.definition.fields head parts.length) := by
  rw [nesting, whole, Entry.typeAt, type, Option.getD_some, if_neg]
  exact Bool.false_ne_true

end Datum

namespace Review

/-! ### Two's complement -/

/-- Below zero, the remainder is that of the number one round further. -/
theorem emod_eq {m z : Int} (low : -m ≤ 2 * z) (high : 2 * z < m) :
    z % m = if 0 ≤ z then z else z + m := by
  split
  · next hz => exact Int.emod_eq_of_lt hz (by omega)
  · next hz => rw [← Int.add_emod_right, Int.emod_eq_of_lt (by omega) (by omega)]

/-- A number in the range of some bytes is read back from its two's complement. -/
theorem signedNumber_ofNat {w : Nat} {z : Int} (low : -((256 ^ w : Nat) : Int) ≤ 2 * z)
    (high : 2 * z < ((256 ^ w : Nat) : Int)) :
    signedNumber (Bytes.ofNat w (z % ((256 ^ w : Nat) : Int)).toNat) = z := by
  have hmod := emod_eq low high
  have hlt : (z % ((256 ^ w : Nat) : Int)).toNat < 256 ^ w := by split at hmod <;> omega
  dsimp only [signedNumber]
  rw [Bytes.toNat_ofNat_of_lt hlt, Bytes.length_ofNat]
  change (if 2 * (z % ((256 ^ w : Nat) : Int)).toNat < 256 ^ w then _ else _ - ((256 ^ w : Nat) : Int)) = z
  split at hmod <;> split <;> omega

/-- Every byte string is the two's complement of a number in its range. -/
theorem signedNumber_spec (b : Bytes) :
    -((256 ^ b.length : Nat) : Int) ≤ 2 * signedNumber b ∧
      2 * signedNumber b < ((256 ^ b.length : Nat) : Int) ∧
      Bytes.ofNat b.length (signedNumber b % ((256 ^ b.length : Nat) : Int)).toNat = b := by
  have hlt := b.toNat_lt
  have hsigned : signedNumber b = if 2 * b.toNat < 256 ^ b.length then (b.toNat : Int)
      else b.toNat - ((256 ^ b.length : Nat) : Int) := rfl
  have hlow : -((256 ^ b.length : Nat) : Int) ≤ 2 * signedNumber b := by split at hsigned <;> omega
  have hhigh : 2 * signedNumber b < ((256 ^ b.length : Nat) : Int) := by split at hsigned <;> omega
  refine ⟨hlow, hhigh, Bytes.ofNat_eq_of_toNat rfl ?_⟩
  have hmod := emod_eq hlow hhigh
  split at hsigned <;> split at hmod <;> omega

/-! ### Leaves -/

/-- A leaf accepts the bytes of the values of a type, and shows each in one card. -/
structure ShowsValues (e : Entry) (l : Limits) (id : TypeId) (hint : Hint) (shows : Shows) :
    Prop where
  encoded : ∀ b kind value, shows b kind value →
    ∃ v : Datum, v.HasType e.types id ∧ v.Capped l.maxSequenceLength ∧ v.encode = b
  shown : ∀ v : Datum, v.HasType e.types id → v.nesting e id = 0 ∧
    ∃ kind value, shows v.encode kind value ∧ ∀ indent offset, v.card e id hint indent offset =
      ⟨kind, value, indent, ⟨offset, offset + v.encode.length⟩, []⟩

section

variable {e : Entry} {l : Limits} {id : TypeId} {hint : Hint} {t : TypeEntry}

/-- Heads without parts are shown as they are. -/
theorem showsValues_of_face {shows : Shows} (type : e.type? id = some t)
    (whole : e.whole? id = none)
    (bare : ∀ head n, t.definition.Admits e.types head n → n = 0 ∧ head ≠ .sequence ∧ head ≠ .array)
    (same : ∀ b kind value, shows b kind value ↔
      ∃ head, t.definition.Admits e.types head 0 ∧ head.encode 0 = b ∧
        t.face e.specs hint head 0 = (kind, value)) :
    ShowsValues e l id hint shows where
  encoded b kind value h := by
    obtain ⟨head, admits, rfl, -⟩ := (same b kind value).1 h
    obtain ⟨-, hsequence, harray⟩ := bare head 0 admits
    refine ⟨⟨head, []⟩, (Datum.hasType_of_definition (Entry.definition?_of_type? type)).2
      ⟨admits, ?_⟩, Datum.capped_mk.2 ⟨by simp [hsequence, harray], by simp⟩, by simp⟩
    rw [List.length_nil, List.eq_nil_of_length_eq_zero admits.length_fields]
    exact .nil
  shown v hv := by
    obtain ⟨head, parts⟩ := v
    obtain ⟨admits, -⟩ := (Datum.hasType_of_definition (Entry.definition?_of_type? type)).1 hv
    obtain rfl := List.eq_nil_of_length_eq_zero (bare head _ admits).1
    refine ⟨by rw [Datum.nesting_parts type whole, Datum.nestingAll_nil],
      (t.face e.specs hint head 0).1, (t.face e.specs hint head 0).2,
      (same _ _ _).2 ⟨head, admits, by simp, rfl⟩, fun indent offset => ?_⟩
    rw [Datum.card_parts type whole, Datum.cards_nil, Datum.encode_mk, Datum.encodeAll_nil,
      List.append_nil, List.length_nil]

theorem showsValues_text (type : e.type? id = some t) (whole : e.whole? id = none)
    (hd : t.definition = .primitive .str) : ShowsValues e l id hint ShowsText := by
  refine showsValues_of_face type whole (fun head n h => ?_) fun b kind value => ?_
  · rw [hd] at h
    cases h <;> simp
  rw [hd]
  constructor
  · intro h
    obtain ⟨rfl, short, rfl⟩ := h
    exact ⟨.text value, .text value short, rfl, rfl⟩
  · intro h
    obtain ⟨head, admits, rfl, hface⟩ := h
    cases admits with
    | text s short =>
      obtain ⟨rfl, rfl⟩ := Prod.mk.inj hface
      exact ⟨rfl, short, rfl⟩
    | unsigned sort => cases sort
    | signed sort => cases sort

theorem isUnsigned_iff {p : Primitive} {n : Nat} (width : p.width? = some n) :
    p.isUnsigned = true ↔ p.isSigned = false ∧ p ≠ .bool ∧ p ≠ .char := by
  cases p <;> simp_all [Primitive.isUnsigned, Primitive.isSigned, Primitive.width?]

theorem encode_unsigned {w n : Nat} (h : n < 256 ^ w) (count : Nat) :
    (Head.integer w n).encode count = Bytes.ofNat w n := by
  have hmod : (n : Int) % ((256 ^ w : Nat) : Int) = n := Int.emod_eq_of_lt (by omega) (by omega)
  rw [Head.encode, hmod, Int.toNat_natCast]

theorem showsValues_primitive {p : Primitive} {n : Nat} (type : e.type? id = some t)
    (whole : e.whole? id = none) (hd : t.definition = .primitive p) (width : p.width? = some n) :
    ShowsValues e l id hint (ShowsPrimitive e.specs hint p n) := by
  refine showsValues_of_face type whole (fun head n h => ?_) fun b kind value => ?_
  · rw [hd] at h
    cases h <;> simp
  rw [hd]
  constructor
  · intro h
    obtain ⟨rfl, hshow⟩ := h
    by_cases hbool : p = .bool
    · subst hbool
      obtain ⟨x, rfl⟩ := List.length_eq_one_iff.1 (Option.some.inj width).symm
      rcases showPrimitive_bool hshow with ⟨h0, hs⟩ | ⟨h1, hs⟩
      · refine ⟨.bool false, .bool false, ?_, hs.symm⟩
        exact Bytes.toNat_injective rfl h0.symm
      · refine ⟨.bool true, .bool true, ?_, hs.symm⟩
        exact Bytes.toNat_injective rfl h1.symm
    · by_cases hchar : p = .char
      · subst hchar
        obtain ⟨c, hc, hs⟩ := showPrimitive_char hshow
        refine ⟨.char c, .char c, ?_, hs.symm⟩
        exact Bytes.ofNat_eq_of_toNat (Option.some.inj width).symm hc.symm
      · cases hsigned : p.isSigned with
        | true =>
          obtain ⟨low, high, hencode⟩ := signedNumber_spec b
          refine ⟨.integer _ _, .signed hsigned width low high, hencode, ?_⟩
          rw [showPrimitive_signed _ hsigned] at hshow
          rw [← Except.ok.inj hshow, TypeEntry.face, hd]
          simp only [hsigned, if_true]
        | false =>
          have hlt := b.toNat_lt
          refine ⟨_, .unsigned ((isUnsigned_iff width).2 ⟨hsigned, hbool, hchar⟩) width hlt, ?_, ?_⟩
          · rw [encode_unsigned hlt, Bytes.ofNat_toNat]
          · rw [showPrimitive_unsigned _ hsigned hbool hchar] at hshow
            rw [← Except.ok.inj hshow, TypeEntry.face, hd]
            simp [hsigned]
  · intro h
    obtain ⟨head, admits, rfl, hface⟩ := h
    cases admits with
    | bool b =>
      obtain rfl := Option.some.inj width
      cases b
      · exact ⟨rfl, congrArg Except.ok hface⟩
      · exact ⟨rfl, congrArg Except.ok hface⟩
    | char c =>
      obtain rfl := Option.some.inj width
      have hc : c.toNat < 256 ^ 4 := c.val.toNat_lt
      have hvalid : c.toNat.isValidChar := c.valid
      refine ⟨Bytes.length_ofNat .., ?_⟩
      rw [Head.encode, showPrimitive, Bytes.toNat_ofNat_of_lt hc, if_pos hvalid, Char.ofNat_toNat]
      exact congrArg Except.ok hface
    | text => cases width
    | unsigned sort hwidth fits =>
      obtain rfl := Option.some.inj (width.symm.trans hwidth)
      obtain ⟨hsigned, hbool, hchar⟩ := (isUnsigned_iff width).1 sort
      rw [encode_unsigned fits]
      refine ⟨Bytes.length_ofNat .., ?_⟩
      rw [showPrimitive_unsigned _ hsigned hbool hchar, Bytes.toNat_ofNat_of_lt fits]
      rw [TypeEntry.face, hd] at hface
      simpa [hsigned] using hface
    | signed sort hwidth low high =>
      obtain rfl := Option.some.inj (width.symm.trans hwidth)
      refine ⟨Bytes.length_ofNat .., ?_⟩
      rw [showPrimitive_signed _ sort, Head.encode, signedNumber_ofNat low high]
      rw [TypeEntry.face, hd] at hface
      simpa [sort] using hface

theorem showsValues_compact {inner : TypeId} {p : Primitive} (type : e.type? id = some t)
    (whole : e.whole? id = none) (hd : t.definition = .compact inner)
    (target : e.types.compactTarget? inner = some p) :
    ShowsValues e l id hint (ShowsCompact e.specs hint (256 ^ p.width?.getD 16)) := by
  refine showsValues_of_face type whole (fun head n h => ?_) fun b kind value => ?_
  · rw [hd] at h
    cases h
    simp
  rw [hd]
  obtain ⟨leads, sort⟩ := TypeTable.compactTarget?_eq_some.1 target
  obtain ⟨w, width, hw⟩ : ∃ w, p.width? = some w ∧ w ≤ 16 := by
    cases p <;> first | exact ⟨_, rfl, by decide⟩ | cases sort
  rw [width, Option.getD_some]
  constructor
  · intro h
    obtain ⟨n, -, hlimit, rfl, hshow⟩ := h
    exact ⟨.compact n, .compact leads sort width hlimit, rfl, hshow⟩
  · intro h
    obtain ⟨head, admits, rfl, hface⟩ := h
    cases admits with
    | @compact _ q w' n leads' sort' width' fits =>
      have target' := TypeTable.compactTarget?_eq_some.2 ⟨leads', sort'⟩
      obtain rfl := Option.some.inj (target.symm.trans target')
      obtain rfl := Option.some.inj (width.symm.trans width')
      exact ⟨n, Nat.lt_of_lt_of_le fits (Nat.pow_le_pow_right (by decide) hw), fits, rfl, hface⟩

/-- Values that are shown whole show the bytes of their parts. -/
theorem showsValues_of_whole {shows : Shows} {shown : CardKind} {render : Bytes → String}
    (whole : e.whole? id = some (shown, render))
    (encoded : ∀ b kind value, shows b kind value →
      ∃ v : Datum, v.HasType e.types id ∧ v.Capped l.maxSequenceLength ∧ v.encode = b)
    (shows_encode : ∀ head parts, Datum.HasType e.types ⟨head, parts⟩ id →
      shows (head.encode parts.length ++ Datum.encodeAll parts) shown
        (render (Datum.encodeAll parts))) :
    ShowsValues e l id hint shows where
  encoded := encoded
  shown v hv := by
    obtain ⟨head, parts⟩ := v
    refine ⟨Datum.nesting_whole (by rw [whole, Option.isSome_some]), _, _, ?_,
      fun indent offset => Datum.card_whole whole⟩
    rw [Datum.encode_mk]
    exact shows_encode head parts hv

theorem showsValues_bytes {inner : TypeId} {length : UInt32} (type : e.type? id = some t)
    (whole : e.whole? id = some (.bytes, Hex.show0x)) (hd : t.definition = .array length inner)
    (hbyte : e.types.isByte inner = true) :
    ShowsValues e l id hint (ShowsBytes .bytes Hex.show0x length.toNat) := by
  have definition := hd ▸ Entry.definition?_of_type? type
  refine showsValues_of_whole whole (fun b kind value h => ?_) fun head parts h => ?_
  · refine ⟨⟨.array, b.map .byte⟩, (Datum.hasType_bytes definition hbyte).2 ⟨b, h.1, rfl⟩,
      Datum.capped_byte b, ?_⟩
    rw [Datum.encode_mk, Datum.encodeAll_byte, Head.encode, List.nil_append]
  · obtain ⟨b, hb, hv⟩ := (Datum.hasType_bytes definition hbyte).1 h
    obtain ⟨rfl, rfl⟩ := Datum.mk.inj hv
    rw [Datum.encodeAll_byte]
    exact ⟨hb, rfl, rfl⟩

theorem showsValues_counted {inner : TypeId} (type : e.type? id = some t)
    (whole : e.whole? id = some (.bytes, Hex.show0x)) (hd : t.definition = .sequence inner)
    (hbyte : e.types.isByte inner = true) : ShowsValues e l id hint ShowsCounted := by
  have definition := hd ▸ Entry.definition?_of_type? type
  refine showsValues_of_whole whole (fun b kind value h => ?_) fun head parts h => ?_
  · obtain ⟨d, hl, rfl, -, -⟩ := h
    refine ⟨⟨.sequence, d.map .byte⟩, (Datum.hasType_counted definition hbyte).2 ⟨d, hl, rfl⟩,
      Datum.capped_byte d, ?_⟩
    rw [Datum.encode_mk, Datum.encodeAll_byte, List.length_map, Head.encode]
  · obtain ⟨d, hd, hv⟩ := (Datum.hasType_counted definition hbyte).1 h
    obtain ⟨rfl, rfl⟩ := Datum.mk.inj hv
    rw [Datum.encodeAll_byte, List.length_map, Head.encode]
    exact ⟨d, hd, rfl, rfl, rfl⟩

theorem showsValues_byteArray {shown : CardKind} {render : Bytes → String}
    (whole : e.whole? id = some (shown, render)) (harray : e.types.byteArray? id = some 32) :
    ShowsValues e l id hint (ShowsBytes shown render 32) := by
  obtain ⟨hlength, hexists⟩ := Datum.hasType_byteArray harray
  refine showsValues_of_whole whole (fun b kind value h => ?_) fun head parts h => ?_
  · obtain ⟨head, parts, htype, rfl, hcapped⟩ := hexists b h.1
    refine ⟨⟨head, parts⟩, htype, hcapped _, ?_⟩
    rw [Datum.encode_mk, (hlength _ _ htype).1, List.nil_append]
  · obtain ⟨hhead, hl⟩ := hlength _ _ h
    rw [hhead, List.nil_append]
    exact ⟨hl, rfl, rfl⟩

end

end Review

end ColdSigner
