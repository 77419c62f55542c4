import ColdSigner.Metadata.Entry
import ColdSigner.Proofs.Schema.Chains
import ColdSigner.Proofs.Schema.Passes
import ColdSigner.Proofs.Wire.CompactForm
import Mathlib.Algebra.Order.BigOperators.Group.List
import Mathlib.Algebra.Order.Group.Nat
import Mathlib.Data.List.Forall2

/-! Values of types, and their bytes.

A value is a head over the values of its parts, whatever its type. `HasType` says
which values a type of a table has, and `encode` is their one encoding. A value
takes at least the least number of bytes of its type, and none where that is zero. -/
namespace ColdSigner

/-- What a value is, apart from its parts. -/
inductive Head where
  | bool (b : Bool)
  | char (c : Char)
  | text (s : String)
  /-- An integer in so many bytes. -/
  | integer (width : Nat) (z : Int)
  | compact (n : Nat)
  | sequence
  | array
  /-- A tuple or a composite. -/
  | record
  | variant (index : UInt8)
  deriving DecidableEq, Repr

/-- A value with its parts. -/
inductive Datum where
  | mk (head : Head) (parts : List Datum)

/-- The bytes in front of so many parts. A negative number is written in two's complement. -/
def Head.encode : Head → Nat → Bytes
  | .bool b, _ => [if b then 1 else 0]
  | .char c, _ => Bytes.ofNat 4 c.toNat
  | .text s, _ => Wire.Compact.encode (Bytes.ofText s).length ++ Bytes.ofText s
  | .integer width z, _ => Bytes.ofNat width (z % ((256 ^ width : Nat) : Int)).toNat
  | .compact n, _ => Wire.Compact.encode n
  | .sequence, count => Wire.Compact.encode count
  | .array, _ => []
  | .record, _ => []
  | .variant index, _ => [index]

mutual

def Datum.encode : Datum → Bytes
  | ⟨head, parts⟩ => head.encode parts.length ++ Datum.encodeAll parts

def Datum.encodeAll : List Datum → Bytes
  | [] => []
  | v :: rest => v.encode ++ Datum.encodeAll rest

end

namespace Datum

@[simp] theorem encode_mk (head : Head) (parts : List Datum) :
    encode ⟨head, parts⟩ = head.encode parts.length ++ encodeAll parts := by rw [encode]

@[simp] theorem encodeAll_nil : encodeAll [] = [] := by rw [encodeAll]

@[simp] theorem encodeAll_cons (v : Datum) (rest : List Datum) :
    encodeAll (v :: rest) = v.encode ++ encodeAll rest := by rw [encodeAll]

end Datum

/-! ### Types of values -/

/-- A part that is told by its place alone. -/
def Field.ofType (t : TypeId) : Field := ⟨none, none, t⟩

/-- The fields that so many parts below a head fill. -/
def TypeDef.fields : TypeDef → Head → Nat → List Field
  | .sequence t, _, count => List.replicate count (.ofType t)
  | .array _ t, _, count => List.replicate count (.ofType t)
  | .tuple ts, _, _ => ts.map .ofType
  | .composite fields, _, _ => fields
  | .variant variants, .variant index, _ =>
    ((variants.find? (·.index == index)).map (·.fields)).getD []
  | _, _, _ => []

/-- A definition has values with this head over so many parts. Lengths are compact
integers, so they stay below the largest of these. -/
inductive TypeDef.Admits (types : TypeTable) : TypeDef → Head → Nat → Prop where
  | bool (b : Bool) : Admits types (.primitive .bool) (.bool b) 0
  | char (c : Char) : Admits types (.primitive .char) (.char c) 0
  | text (s : String) (short : (Bytes.ofText s).length < 256 ^ 16) :
      Admits types (.primitive .str) (.text s) 0
  | unsigned {p : Primitive} {w n : Nat} (sort : p.isUnsigned = true) (width : p.width? = some w)
      (fits : n < 256 ^ w) : Admits types (.primitive p) (.integer w n) 0
  | signed {p : Primitive} {w : Nat} {z : Int} (sort : p.isSigned = true) (width : p.width? = some w)
      (low : -((256 ^ w : Nat) : Int) ≤ 2 * z) (high : 2 * z < ((256 ^ w : Nat) : Int)) :
      Admits types (.primitive p) (.integer w z) 0
  | compact {t : TypeId} {p : Primitive} {w n : Nat} (target : types.Leads t (.primitive p))
      (sort : p.isUnsigned = true) (width : p.width? = some w) (fits : n < 256 ^ w) :
      Admits types (.compact t) (.compact n) 0
  | sequence (t : TypeId) {count : Nat} (short : count < 256 ^ 16) :
      Admits types (.sequence t) .sequence count
  | array (length : UInt32) (t : TypeId) : Admits types (.array length t) .array length.toNat
  | tuple (ts : List TypeId) : Admits types (.tuple ts) .record ts.length
  | composite (fields : List Field) : Admits types (.composite fields) .record fields.length
  | variant {variants : List Variant} {index : UInt8} {v : Variant}
      (declared : variants.find? (·.index == index) = some v) :
      Admits types (.variant variants) (.variant index) v.fields.length

/-- The type of a value; each part has that of the field it fills. -/
inductive Datum.HasType (types : TypeTable) : Datum → TypeId → Prop where
  | intro {id : TypeId} {d : TypeDef} {head : Head} {parts : List Datum}
      (definition : types.definition? id = some d) (admits : d.Admits types head parts.length)
      (each : ∀ p ∈ parts.zip (d.fields head parts.length), HasType types p.1 p.2.type) :
      HasType types ⟨head, parts⟩ id

/-- Values that fill fields, one each. -/
abbrev Datum.Fill (types : TypeTable) (parts : List Datum) (fields : List Field) : Prop :=
  List.Forall₂ (fun v f => Datum.HasType types v f.type) parts fields

mutual

/-- Where the parts of a sequence or an array take no bytes, there are `limit` of them at most. -/
def Datum.Capped (limit : Nat) : Datum → Prop
  | ⟨head, parts⟩ =>
    ((head = .sequence ∨ head = .array) → Datum.encodeAll parts = [] → parts.length ≤ limit) ∧
      Datum.AllCapped limit parts

def Datum.AllCapped (limit : Nat) : List Datum → Prop
  | [] => True
  | v :: rest => v.Capped limit ∧ Datum.AllCapped limit rest

end

variable {types : TypeTable} {d : TypeDef} {head : Head} {id t : TypeId} {v : Datum}

theorem TypeDef.Admits.length_fields {count : Nat} (h : d.Admits types head count) :
    (d.fields head count).length = count := by
  cases h with
  | sequence => exact List.length_replicate ..
  | array => exact List.length_replicate ..
  | tuple ts => exact List.length_map ..
  | composite => rfl
  | variant declared => simp only [fields, declared, Option.map_some, Option.getD_some]
  | _ => rfl

theorem Entry.definition?_of_type? {e : Entry} {id : TypeId} {t : TypeEntry}
    (h : e.type? id = some t) : e.types.definition? id = some t.definition := by
  rw [TypeTable.definition?, show e.types[id.toNat]? = some t from h, Option.map_some]

namespace Datum

theorem capped_mk {limit : Nat} {parts : List Datum} :
    Capped limit ⟨head, parts⟩ ↔
      ((head = .sequence ∨ head = .array) → encodeAll parts = [] → parts.length ≤ limit) ∧
        AllCapped limit parts := by
  rw [Capped]

@[simp] theorem allCapped_nil (limit : Nat) : AllCapped limit [] := by rw [AllCapped]; trivial

@[simp] theorem allCapped_cons {limit : Nat} {rest : List Datum} :
    AllCapped limit (v :: rest) ↔ v.Capped limit ∧ AllCapped limit rest := by rw [AllCapped]

/-- A value is of a type when its head is, and its parts are of the types of the fields. -/
theorem hasType_mk {parts : List Datum} :
    HasType types ⟨head, parts⟩ id ↔
      ∃ d, types.definition? id = some d ∧ d.Admits types head parts.length ∧
        Fill types parts (d.fields head parts.length) := by
  constructor
  · intro h
    obtain ⟨definition, admits, each⟩ := h
    exact ⟨_, definition, admits,
      List.forall₂_iff_zip.2 ⟨admits.length_fields.symm, fun hp => each _ hp⟩⟩
  · intro h
    obtain ⟨d, definition, admits, each⟩ := h
    exact .intro definition admits fun p hp => (List.forall₂_iff_zip.1 each).2 hp

/-! ### The least size of a type -/

/-- A head has the bytes of a shape of its definition, and no part of the shape is missing below it. -/
theorem exists_shape {count : Nat} (h : d.Admits types head count) :
    ∃ bytes parts, d.Shape bytes parts ∧ bytes ≤ (head.encode count).length ∧
      parts.Sublist ((d.fields head count).map (·.type)) := by
  have compact_pos (n : Nat) : 1 ≤ (Wire.Compact.encode n).length :=
    List.length_pos_iff.2 (Wire.Compact.encode_ne_nil n)
  cases h with
  | bool => exact ⟨1, [], .primitive .bool, Nat.le_refl _, .slnil⟩
  | char => exact ⟨4, [], .primitive .char, Nat.le_refl _, .slnil⟩
  | text s =>
    refine ⟨1, [], .primitive .str, ?_, .slnil⟩
    rw [Head.encode, List.length_append]
    exact Nat.le_add_right_of_le (compact_pos _)
  | unsigned _ width => exact ⟨_, [], .primitive _, by simp [Head.encode, width], .slnil⟩
  | signed _ width => exact ⟨_, [], .primitive _, by simp [Head.encode, width], .slnil⟩
  | compact => exact ⟨1, [], .compact _, compact_pos _, .slnil⟩
  | sequence => exact ⟨1, [], .sequence _, compact_pos _, List.nil_sublist _⟩
  | array length t =>
    refine ⟨0, _, .array length t, Nat.zero_le _, ?_⟩
    rw [TypeDef.fields, List.map_replicate]
    exact .refl _
  | tuple ts =>
    refine ⟨0, ts, .tuple ts, Nat.zero_le _, ?_⟩
    rw [TypeDef.fields, List.map_map]
    exact (List.map_id ts).symm ▸ .refl _
  | composite fields => exact ⟨0, _, .composite fields, Nat.zero_le _, .refl _⟩
  | variant declared =>
    refine ⟨1, _, .variant (List.mem_of_find?_eq_some declared), Nat.le_refl _, ?_⟩
    rw [TypeDef.fields, declared]
    exact .refl _

theorem forall₂_right {α β : Type} {as : List α} {bs : List β} {p : β → Prop}
    (h : List.Forall₂ (fun _ b => p b) as bs) : ∀ b ∈ bs, p b := by
  induction h with
  | nil => simp
  | cons hb _ ih => exact List.forall_mem_cons.2 ⟨hb, ih⟩

theorem sum_least_le {parts : List Datum} {fields : List Field}
    (h : List.Forall₂ (fun v f => types.least f.type ≤ v.encode.length) parts fields) :
    ((fields.map (·.type)).map types.least).sum ≤ (encodeAll parts).length := by
  induction h with
  | nil => exact Nat.zero_le _
  | cons hv _ ih =>
    simp only [List.map_cons, List.sum_cons, encodeAll_cons, List.length_append]
    exact Nat.add_le_add hv ih

/-- A head over parts takes as many bytes as its definition has at least, if each part takes
as many as its type. -/
theorem least_le_of_parts {parts : List Datum} (admits : d.Admits types head parts.length)
    (hparts : List.Forall₂ (fun v f => (∃ n, types.Takes f.type n) ∧
      types.least f.type ≤ v.encode.length) parts (d.fields head parts.length)) :
    (∃ n, d.Spans types n) ∧ d.least types ≤ (encode ⟨head, parts⟩).length := by
  obtain ⟨bytes, ts, shape, hbytes, hsub⟩ := exists_shape admits
  have hvalues : ∀ t ∈ ts, types.Takes t (types.least t) := by
    intro t ht
    obtain ⟨f, hf, rfl⟩ := List.mem_map.1 (hsub.subset ht)
    obtain ⟨n, hn⟩ := forall₂_right (p := fun f => ∃ n, types.Takes f.type n)
      (hparts.imp fun _ _ hp => hp.1) f hf
    exact hn.least
  have spans : d.Spans types (bytes + (ts.map types.least).sum) := ⟨_, _, _, shape, hvalues, rfl⟩
  refine ⟨⟨_, spans⟩, ?_⟩
  have hleast : d.least types ≤ bytes + (ts.map types.least).sum := Nat.sInf_le spans
  have hsum := (hsub.map types.least).sum_le_sum fun _ _ => Nat.zero_le _
  have hbelow := sum_least_le (hparts.imp fun _ _ hp => hp.2)
  rw [encode_mk, List.length_append]
  omega

/-- A value takes as many bytes as its type has at least. -/
theorem HasType.least_le (h : v.HasType types id) :
    (∃ n, types.Takes id n) ∧ types.least id ≤ v.encode.length := by
  induction h with
  | @intro id d head parts definition admits each ih =>
    simp only [TypeTable.takes_of_definition definition, TypeTable.least_of_definition definition]
    exact least_le_of_parts admits
      (List.forall₂_iff_zip.2 ⟨admits.length_fields.symm, fun hp => ih _ hp⟩)

/-- A shape without bytes has all parts of a value, and its head has no bytes either. -/
theorem admits_of_shape_zero {ts : List TypeId} {count : Nat} (shape : d.Shape 0 ts)
    (admits : d.Admits types head count) :
    head.encode count = [] ∧ (d.fields head count).map (·.type) = ts := by
  generalize hzero : 0 = bytes at shape
  cases shape with
  | primitive p => cases p <;> cases hzero
  | array length t =>
    cases admits
    exact ⟨rfl, by rw [TypeDef.fields, List.map_replicate]; rfl⟩
  | tuple ts =>
    cases admits
    exact ⟨rfl, by rw [TypeDef.fields, List.map_map]; exact List.map_id ts⟩
  | composite fields =>
    cases admits
    exact ⟨rfl, rfl⟩
  | compact => cases hzero
  | sequence => cases hzero
  | variant => cases hzero
  | noVariant => cases hzero

theorem encodeAll_eq_nil {parts : List Datum} :
    encodeAll parts = [] ↔ ∀ v ∈ parts, v.encode = [] := by
  induction parts with
  | nil => simp
  | cons v rest ih => rw [encodeAll_cons, List.append_eq_nil_iff, ih, List.forall_mem_cons]

/-- A type with a value that takes no bytes has no other values. -/
theorem HasType.encode_eq_nil (h : v.HasType types id) (hzero : types.least id = 0) :
    v.encode = [] := by
  induction h with
  | @intro id d head parts definition admits each ih =>
    have htakes := (HasType.intro definition admits each).least_le.1.choose_spec.least
    rw [hzero] at htakes
    generalize hn : 0 = n at htakes
    obtain ⟨definition', shape, size, takes⟩ := htakes
    obtain rfl := Option.some.inj (definition.symm.trans definition')
    obtain ⟨rfl, hsum⟩ := Nat.add_eq_zero_iff.1 hn.symm
    obtain ⟨hhead, rfl⟩ := admits_of_shape_zero shape admits
    have hleast (f : Field) (hf : f ∈ d.fields head parts.length) : types.least f.type = 0 := by
      have hmem := List.mem_map_of_mem (f := (·.type)) hf
      have hsize := List.sum_eq_zero_iff.1 hsum _ (List.mem_map_of_mem (f := size) hmem)
      exact Nat.le_zero.1 (hsize ▸ (takes _ hmem).least_le)
    rw [encode_mk, hhead, List.nil_append, encodeAll_eq_nil]
    have hparts : List.Forall₂ (fun v _ => v.encode = []) parts (d.fields head parts.length) :=
      List.forall₂_iff_zip.2 ⟨admits.length_fields.symm, fun hp =>
        ih _ hp (hleast _ (List.of_mem_zip hp).2)⟩
    exact forall₂_right hparts.flip

theorem minSize_eq {e : Entry} (definition : e.types.definition? id = some d) :
    e.minSize id = min (e.types.least id) TypeTable.maxSize :=
  (TypeTable.least_of_minSizes e.sizes_eq definition).2

theorem HasType.minSize_le {e : Entry} (h : v.HasType e.types id) :
    e.minSize id ≤ v.encode.length := by
  have hle := h.least_le.2
  obtain ⟨definition, -, -⟩ := h
  rw [minSize_eq definition]
  omega

/-- The least size tells whether values take bytes at all. -/
theorem HasType.minSize_eq_zero {e : Entry} (h : v.HasType e.types id) :
    e.minSize id = 0 ↔ v.encode = [] := by
  constructor
  · intro hzero
    refine h.encode_eq_nil ?_
    obtain ⟨definition, -, -⟩ := h
    rw [minSize_eq definition] at hzero
    have hmax : TypeTable.maxSize = 18446744073709551615 := rfl
    omega
  · intro hnil
    have hle := h.minSize_le
    rw [hnil] at hle
    exact Nat.le_zero.1 hle

theorem sum_minSize_le {e : Entry} {parts : List Datum} {fields : List Field}
    (fill : Fill e.types parts fields) :
    (fields.map fun f => e.minSize f.type).sum ≤ (encodeAll parts).length := by
  induction fill with
  | nil => exact Nat.zero_le _
  | cons hv _ ih =>
    simp only [List.map_cons, List.sum_cons, encodeAll_cons, List.length_append]
    exact Nat.add_le_add hv.minSize_le ih

/-- The least sizes tell whether values that fill fields take bytes. -/
theorem encodeAll_eq_nil_iff {e : Entry} {parts : List Datum} {fields : List Field}
    (fill : Fill e.types parts fields) :
    encodeAll parts = [] ↔ ∀ f ∈ fields, e.minSize f.type = 0 := by
  induction fill with
  | nil => simp
  | cons hv _ ih =>
    rw [encodeAll_cons, List.append_eq_nil_iff, List.forall_mem_cons, ih, hv.minSize_eq_zero]

/-! ### Bytes as values -/

def byte (x : UInt8) : Datum := ⟨.integer 1 x.toNat, []⟩

@[simp] theorem encode_byte (x : UInt8) : (byte x).encode = [x] := by
  have hx := x.toNat_lt
  rw [byte, encode_mk, encodeAll_nil, List.append_nil, Head.encode]
  refine Bytes.ofNat_eq_of_toNat rfl ?_
  show x.toNat + 256 * 0 = _
  omega

@[simp] theorem encodeAll_byte (b : Bytes) : encodeAll (b.map byte) = b := by
  induction b with
  | nil => simp
  | cons x rest ih => simp [ih]

theorem allCapped_byte (limit : Nat) (b : Bytes) : AllCapped limit (b.map byte) := by
  induction b with
  | nil => simp
  | cons x rest ih => simp [ih, byte, capped_mk]

theorem hasType_byte (hbyte : types.isByte t = true) : v.HasType types t ↔ ∃ x, v = byte x := by
  have definition : types.definition? t = some (.primitive .u8) := by
    simpa [TypeTable.isByte] using hbyte
  constructor
  · intro h
    obtain ⟨definition', admits, -⟩ := h
    obtain rfl := Option.some.inj (definition.symm.trans definition')
    generalize hcount : List.length _ = count at admits
    cases admits with
    | @unsigned _ w n _ width fits =>
      obtain rfl := Option.some.inj width
      obtain rfl := List.length_eq_zero_iff.1 hcount
      exact ⟨UInt8.ofNat n, by rw [byte, UInt8.toNat_ofNat_of_lt' fits]⟩
    | signed sort => cases sort
  · intro h
    obtain ⟨x, rfl⟩ := h
    refine .intro definition (.unsigned rfl rfl ?_) (by simp)
    exact x.toNat_lt

/-- The parts of a byte string. -/
theorem fill_byte (hbyte : types.isByte t = true) {parts : List Datum} {n : Nat} :
    Fill types parts (List.replicate n (.ofType t)) ↔
      ∃ b : Bytes, b.length = n ∧ parts = b.map byte := by
  induction n generalizing parts with
  | zero => simp [List.length_eq_zero_iff]
  | succ n ih =>
    simp only [List.replicate_succ, List.forall₂_cons_right_iff, ih, hasType_byte hbyte,
      show (Field.ofType t).type = t from rfl]
    constructor
    · intro h
      obtain ⟨_, _, ⟨x, rfl⟩, ⟨b, rfl, rfl⟩, rfl⟩ := h
      exact ⟨x :: b, rfl, rfl⟩
    · intro h
      obtain ⟨b, hl, rfl⟩ := h
      obtain ⟨x, b, rfl⟩ := List.exists_cons_of_length_eq_add_one hl
      exact ⟨_, _, ⟨x, rfl⟩, ⟨b, Nat.succ.inj hl, rfl⟩, rfl⟩

/-- The value of a type with one definition. -/
theorem hasType_of_definition (definition : types.definition? id = some d) {parts : List Datum} :
    HasType types ⟨head, parts⟩ id ↔
      d.Admits types head parts.length ∧ Fill types parts (d.fields head parts.length) := by
  rw [hasType_mk]
  constructor
  · intro h
    obtain ⟨d', definition', h⟩ := h
    obtain rfl := Option.some.inj (definition.symm.trans definition')
    exact h
  · exact fun h => ⟨d, definition, h⟩

theorem hasType_bytes {length : UInt32} (definition : types.definition? id = some (.array length t))
    (hbyte : types.isByte t = true) :
    v.HasType types id ↔ ∃ b : Bytes, b.length = length.toNat ∧ v = ⟨.array, b.map byte⟩ := by
  obtain ⟨head, parts⟩ := v
  rw [hasType_of_definition definition]
  constructor
  · intro h
    obtain ⟨admits, fill⟩ := h
    generalize hcount : List.length parts = count at admits fill
    cases admits
    obtain ⟨b, hb, rfl⟩ := (fill_byte hbyte).1 fill
    exact ⟨b, hb, rfl⟩
  · intro h
    obtain ⟨b, hb, h⟩ := h
    obtain ⟨rfl, rfl⟩ := mk.inj h
    refine ⟨?_, (fill_byte hbyte).2 ⟨b, by rw [List.length_map], rfl⟩⟩
    rw [List.length_map, hb]
    exact .array length t

theorem hasType_counted (definition : types.definition? id = some (.sequence t))
    (hbyte : types.isByte t = true) :
    v.HasType types id ↔ ∃ b : Bytes, b.length < 256 ^ 16 ∧ v = ⟨.sequence, b.map byte⟩ := by
  obtain ⟨head, parts⟩ := v
  rw [hasType_of_definition definition]
  constructor
  · intro h
    obtain ⟨admits, fill⟩ := h
    generalize hcount : List.length parts = count at admits fill
    cases admits with
    | sequence _ short =>
      obtain ⟨b, rfl, rfl⟩ := (fill_byte hbyte).1 fill
      exact ⟨b, short, rfl⟩
  · intro h
    obtain ⟨b, hb, h⟩ := h
    obtain ⟨rfl, rfl⟩ := mk.inj h
    refine ⟨.sequence t ?_, (fill_byte hbyte).2 ⟨b, by rw [List.length_map], rfl⟩⟩
    rwa [List.length_map]

theorem capped_byte {limit : Nat} (b : Bytes) : Capped limit ⟨head, b.map byte⟩ := by
  refine capped_mk.2 ⟨fun _ hnil => ?_, allCapped_byte limit b⟩
  rw [encodeAll_byte] at hnil
  simp [hnil]

/-- The value of a wrapper holds that of the type inside. -/
theorem hasType_wrapper {inner : TypeId} (definition : types.definition? id = some d)
    (wraps : d.inner? = some inner) :
    v.HasType types id ↔ ∃ w, v = ⟨.record, [w]⟩ ∧ w.HasType types inner := by
  obtain ⟨f, rfl, hone, hfields⟩ : ∃ f : Field, f.type = inner ∧
      (∀ head n, d.Admits types head n ↔ head = .record ∧ n = 1) ∧ d.fields .record 1 = [f] := by
    unfold TypeDef.inner? at wraps
    split at wraps
    · next f =>
      refine ⟨f, Option.some.inj wraps, fun head n => ⟨fun h => ?_, ?_⟩, rfl⟩
      · cases h
        exact ⟨rfl, rfl⟩
      · rintro ⟨rfl, rfl⟩
        exact .composite [f]
    · next t =>
      refine ⟨.ofType t, Option.some.inj wraps, fun head n => ⟨fun h => ?_, ?_⟩, rfl⟩
      · cases h
        exact ⟨rfl, rfl⟩
      · rintro ⟨rfl, rfl⟩
        exact .tuple [t]
    · cases wraps
  constructor
  · intro h
    obtain ⟨head, parts⟩ := v
    obtain ⟨admits, fill⟩ := (hasType_of_definition definition).1 h
    obtain ⟨rfl, hlength⟩ := (hone head _).1 admits
    rw [hlength, hfields] at fill
    cases fill with
    | cons hw hrest =>
      cases hrest
      exact ⟨_, rfl, hw⟩
  · intro h
    obtain ⟨w, rfl, h⟩ := h
    refine (hasType_of_definition definition).2 ⟨(hone _ _).2 ⟨rfl, rfl⟩, ?_⟩
    rw [List.length_singleton, hfields]
    exact .cons h .nil

/-- The values of a wrapped byte string are the byte strings of its length. -/
theorem hasType_byteArray {n : UInt32} (h : types.byteArray? id = some n) :
    (∀ head parts, HasType types ⟨head, parts⟩ id →
      head.encode parts.length = [] ∧ (encodeAll parts).length = n.toNat) ∧
      ∀ b : Bytes, b.length = n.toNat → ∃ head parts, HasType types ⟨head, parts⟩ id ∧
        encodeAll parts = b ∧ ∀ limit, Capped limit ⟨head, parts⟩ := by
  obtain ⟨t, leads, hbyte⟩ := TypeTable.byteArray?_eq_some.1 h
  clear h
  generalize hd : TypeDef.array n t = target at leads
  induction leads with
  | stop definition =>
    subst hd
    refine ⟨fun head parts hv => ?_, fun b hb => ?_⟩
    · obtain ⟨b, hb, hv⟩ := (hasType_bytes definition hbyte).1 hv
      obtain ⟨rfl, rfl⟩ := mk.inj hv
      exact ⟨rfl, by rwa [encodeAll_byte]⟩
    · exact ⟨.array, b.map byte, (hasType_bytes definition hbyte).2 ⟨b, hb, rfl⟩, encodeAll_byte b,
        fun limit => capped_byte b⟩
  | wrapper definition wraps _ ih =>
    obtain ⟨hlength, hexists⟩ := ih hd
    refine ⟨fun head parts hv => ?_, fun b hb => ?_⟩
    · obtain ⟨⟨inside, below⟩, hw, htype⟩ := (hasType_wrapper definition wraps).1 hv
      obtain ⟨rfl, rfl⟩ := mk.inj hw
      obtain ⟨hhead, hbelow⟩ := hlength inside below htype
      exact ⟨rfl, by simpa [hhead] using hbelow⟩
    · obtain ⟨inside, below, htype, rfl, hcapped⟩ := hexists b hb
      obtain ⟨hhead, -⟩ := hlength inside below htype
      refine ⟨.record, [⟨inside, below⟩], (hasType_wrapper definition wraps).2 ⟨_, rfl, htype⟩, ?_,
        fun limit => capped_mk.2 ⟨by simp, by simp [hcapped limit]⟩⟩
      simp [hhead]

end Datum

end ColdSigner
