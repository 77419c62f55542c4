import ColdSigner.Proofs.Metadata.Consistency
import ColdSigner.Proofs.Schema.Datum

/-! The least sizes are the lengths of shortest values.

`least_sizes_exact` relates what the passes over a table find to the values of its types: the
sizes exist exactly when every type has a value, and each is the length of the shortest
one. The least size of a type is told by its shapes; a shape of a consistent definition
is the head of a value of so many bytes (`exists_head`), so every size comes from a value.

An enumeration without variants has no value, but counts as one byte. It is read here as
an enumeration of one variant without fields, which has the same shapes. -/
namespace ColdSigner

variable {types : TypeTable} {d : TypeDef} {id : TypeId} {head : Nat} {parts : List TypeId}

/-- A value of a definition: its parts fill the fields below its head. -/
def TypeDef.HasValue (types : TypeTable) (d : TypeDef) : Datum → Prop
  | ⟨head, parts⟩ => d.Admits types head parts.length ∧
      Datum.Fill types parts (d.fields head parts.length)

theorem Datum.hasType_iff_hasValue {v : Datum} :
    v.HasType types id ↔ ∃ d, types.definition? id = some d ∧ d.HasValue types v := by
  obtain ⟨head, parts⟩ := v
  exact hasType_mk

/-- A value of a definition takes as many bytes as this has at least. -/
theorem TypeDef.HasValue.least_le {v : Datum} (h : d.HasValue types v) :
    (∃ n, d.Spans types n) ∧ d.least types ≤ v.encode.length := by
  obtain ⟨head, parts⟩ := v
  obtain ⟨admits, fill⟩ := h
  exact Datum.least_le_of_parts admits (fill.imp fun _ _ h => h.least_le)

/-! ### A value for every shape -/

theorem Primitive.exists_head (p : Primitive) :
    ∃ h : Head, (TypeDef.primitive p).Admits types h 0 ∧ (h.encode 0).length = p.width?.getD 1 := by
  cases p with
  | bool => exact ⟨.bool false, .bool false, rfl⟩
  | char => exact ⟨.char 'a', .char 'a', rfl⟩
  | str => exact ⟨.text "", .text "" (by decide), rfl⟩
  | u8 | u16 | u32 | u64 | u128 =>
    exact ⟨.integer _ (0 : Nat), .unsigned rfl rfl (by decide), Bytes.length_ofNat ..⟩
  | i8 | i16 | i32 | i64 | i128 =>
    exact ⟨.integer _ 0, .signed rfl rfl (by decide) (by decide), Bytes.length_ofNat ..⟩

/-- The variant that is declared under its own index. -/
theorem find?_index {variants : List Variant} (distinct : (variants.map (·.index)).Nodup)
    {v : Variant} (declared : v ∈ variants) :
    variants.find? (·.index == v.index) = some v := by
  induction variants with
  | nil => cases declared
  | cons w rest ih =>
    rw [List.map_cons, List.nodup_cons] at distinct
    rw [List.find?_cons]
    cases hw : w.index == v.index with
    | true =>
      rcases List.mem_cons.1 declared with rfl | hrest
      · rfl
      · exact absurd (List.mem_map.2 ⟨v, hrest, (eq_of_beq hw).symm⟩) distinct.1
    | false =>
      rcases List.mem_cons.1 declared with rfl | hrest
      · exact absurd hw (by simp)
      · exact ih distinct.2 hrest

/-- Every shape of a consistent definition is the head of a value, over fields of the parts. -/
theorem TypeDef.Shape.exists_head (shape : d.Shape head parts) (consistent : d.Consistent types)
    (declared : d ≠ .variant []) :
    ∃ h : Head, d.Admits types h parts.length ∧
      (d.fields h parts.length).map (·.type) = parts ∧ (h.encode parts.length).length = head := by
  cases shape with
  | primitive p =>
    obtain ⟨h, admits, hlength⟩ := @Primitive.exists_head types p
    exact ⟨h, admits, by cases admits <;> rfl, hlength⟩
  | compact t =>
    obtain ⟨p, hp⟩ := Option.isSome_iff_exists.1 (consistent.integer t rfl)
    obtain ⟨leads, unsigned⟩ := TypeTable.compactTarget?_eq_some.1 hp
    obtain ⟨w, hw⟩ : ∃ w, p.width? = some w := by
      cases p with
      | str => cases unsigned
      | _ => exact ⟨_, rfl⟩
    exact ⟨.compact 0, .compact leads unsigned hw (Nat.pow_pos (by decide)), rfl, rfl⟩
  | sequence t => exact ⟨.sequence, .sequence t (by decide), rfl, rfl⟩
  | array length t =>
    refine ⟨.array, ?_, ?_, rfl⟩
    · rw [List.length_replicate]
      exact .array length t
    · rw [TypeDef.fields, List.length_replicate, List.map_replicate]
      rfl
  | tuple =>
    refine ⟨.record, .tuple parts, ?_, rfl⟩
    rw [TypeDef.fields, List.map_map]
    exact List.map_id parts
  | composite fields =>
    refine ⟨.record, ?_, rfl, rfl⟩
    rw [List.length_map]
    exact .composite fields
  | @variant v variants hv =>
    have hfind := find?_index (consistent.distinct _ rfl) hv
    refine ⟨.variant v.index, ?_, ?_, rfl⟩
    · rw [List.length_map]
      exact .variant hfind
    · rw [TypeDef.fields, hfind]
      rfl
  | noVariant => exact absurd rfl declared

/-- Values of the types of fields fill these. -/
theorem Datum.exists_fill {fields : List Field} {size : TypeId → Nat}
    (each : ∀ f ∈ fields, ∃ v : Datum, v.HasType types f.type ∧ v.encode.length = size f.type) :
    ∃ vs, Fill types vs fields ∧ (encodeAll vs).length = ((fields.map (·.type)).map size).sum := by
  induction fields with
  | nil => exact ⟨[], .nil, rfl⟩
  | cons f rest ih =>
    rw [List.forall_mem_cons] at each
    obtain ⟨⟨v, hv, hlength⟩, hrest⟩ := each
    obtain ⟨vs, fill, hsum⟩ := ih hrest
    refine ⟨v :: vs, .cons hv fill, ?_⟩
    rw [encodeAll_cons, List.length_append, hlength, hsum, List.map_cons, List.map_cons,
      List.sum_cons]

/-- A shape whose parts have values has one itself. -/
theorem TypeDef.Shape.exists_value {size : TypeId → Nat} (shape : d.Shape head parts)
    (consistent : d.Consistent types) (declared : d ≠ .variant [])
    (each : ∀ t ∈ parts, ∃ v : Datum, v.HasType types t ∧ v.encode.length = size t) :
    ∃ v, d.HasValue types v ∧ v.encode.length = head + (parts.map size).sum := by
  obtain ⟨h, admits, hfields, hlength⟩ := shape.exists_head consistent declared
  obtain ⟨vs, fill, hsum⟩ := @Datum.exists_fill types (d.fields h parts.length) size fun f hf =>
    each f.type (hfields ▸ List.mem_map_of_mem hf)
  have hcount : vs.length = parts.length := fill.length_eq.trans admits.length_fields
  refine ⟨⟨h, vs⟩, ⟨?_, ?_⟩, ?_⟩
  · rwa [hcount]
  · rwa [hcount]
  · rw [Datum.encode_mk, List.length_append, hcount, hlength, hsum, hfields]

section

variable (consistent : ∀ t ∈ types, t.definition.Consistent types)
  (declared : ∀ t ∈ types, t.definition ≠ .variant [])

include consistent declared

/-- Whatever a type can take, one of its values takes. -/
theorem TypeTable.Takes.exists_value {n : Nat} (h : types.Takes id n) :
    ∃ v : Datum, v.HasType types id ∧ v.encode.length = n := by
  induction h with
  | @intro id d head parts definition shape size each ih =>
    obtain ⟨t, type, rfl⟩ := Option.map_eq_some_iff.1 definition
    have mem := Array.mem_iff_getElem?.2 ⟨_, type⟩
    obtain ⟨v, hv, hlength⟩ := shape.exists_value (consistent t mem) (declared t mem) ih
    exact ⟨v, Datum.hasType_iff_hasValue.2 ⟨_, definition, hv⟩, hlength⟩

/-- Whatever a definition of the table can take, one of its values takes. -/
theorem TypeDef.Spans.exists_value {t : TypeEntry} (mem : t ∈ types) {n : Nat}
    (h : t.definition.Spans types n) :
    ∃ v, t.definition.HasValue types v ∧ v.encode.length = n := by
  obtain ⟨head, parts, size, shape, each, rfl⟩ := h
  exact shape.exists_value (consistent t mem) (declared t mem) fun t ht =>
    (each t ht).exists_value consistent declared

end

/-! ### Enumerations without variants -/

/-- In place of no variants, one without fields. -/
def TypeDef.inhabit : TypeDef → TypeDef
  | .variant [] => .variant [⟨0, "", []⟩]
  | d => d

/-- A table whose enumerations all have variants. -/
def TypeTable.inhabit (types : TypeTable) : TypeTable :=
  types.map fun t => { t with definition := t.definition.inhabit }

namespace TypeDef

theorem inhabit_cases (d : TypeDef) :
    (d = .variant [] ∧ d.inhabit = .variant [⟨0, "", []⟩]) ∨ (d ≠ .variant [] ∧ d.inhabit = d) := by
  cases d with
  | variant variants =>
    cases variants with
    | nil => exact .inl ⟨rfl, rfl⟩
    | cons v rest => exact .inr ⟨by simp, rfl⟩
  | _ => exact .inr ⟨nofun, rfl⟩

theorem inhabit_ne (d : TypeDef) : d.inhabit ≠ .variant [] := by
  rcases d.inhabit_cases with ⟨-, h⟩ | ⟨hd, h⟩
  · rw [h]
    simp
  · rwa [h]

/-- The variant that is added has the shape that counts for none. -/
theorem shape_inhabit : d.inhabit.Shape head parts ↔ d.Shape head parts := by
  rcases d.inhabit_cases with ⟨rfl, h⟩ | ⟨-, h⟩
  · rw [h]
    constructor
    · intro hs
      cases hs with
      | variant hv =>
        obtain rfl := List.mem_singleton.1 hv
        exact .noVariant
    · intro hs
      cases hs with
      | variant hv => cases hv
      | noVariant => exact .variant (List.mem_singleton.2 rfl)
  · rw [h]

theorem inner?_inhabit (d : TypeDef) : d.inhabit.inner? = d.inner? := by
  rcases d.inhabit_cases with ⟨rfl, h⟩ | ⟨-, h⟩
  · rfl
  · rw [h]

theorem references_inhabit (d : TypeDef) : d.inhabit.references = d.references := by
  rcases d.inhabit_cases with ⟨rfl, h⟩ | ⟨-, h⟩
  · rfl
  · rw [h]

end TypeDef

namespace TypeTable

theorem definition?_inhabit :
    types.inhabit.definition? id = (types.definition? id).map TypeDef.inhabit := by
  rw [definition?, definition?, inhabit, Array.getElem?_map, Option.map_map, Option.map_map]
  rfl

theorem has_inhabit : types.inhabit.has id = types.has id := by
  rw [has, has, inhabit, Array.size_map]

theorem takes_inhabit {n : Nat} : types.inhabit.Takes id n ↔ types.Takes id n := by
  constructor
  · intro h
    induction h with
    | intro definition shape size _ ih =>
      rw [definition?_inhabit, Option.map_eq_some_iff] at definition
      obtain ⟨d, definition, rfl⟩ := definition
      exact .intro definition (TypeDef.shape_inhabit.1 shape) size ih
  · intro h
    induction h with
    | intro definition shape size _ ih =>
      refine .intro ?_ (TypeDef.shape_inhabit.2 shape) size ih
      rw [definition?_inhabit, definition, Option.map_some]

theorem spans_inhabit {n : Nat} : d.inhabit.Spans types.inhabit n ↔ d.Spans types n := by
  simp only [TypeDef.Spans, TypeDef.shape_inhabit, takes_inhabit]

theorem least_inhabit : d.inhabit.least types.inhabit = d.least types := by
  simp only [TypeDef.least, spans_inhabit]

theorem Leads.inhabit {target : TypeDef} (h : types.Leads id target) :
    types.inhabit.Leads id target.inhabit := by
  induction h with
  | stop definition bare =>
    refine .stop ?_ ((TypeDef.inner?_inhabit _).trans bare)
    rw [definition?_inhabit, definition, Option.map_some]
  | wrapper definition wraps _ ih =>
    refine .wrapper ?_ ((TypeDef.inner?_inhabit _).trans wraps) ih
    rw [definition?_inhabit, definition, Option.map_some]

theorem consistent_inhabit (h : d.Consistent types) : d.inhabit.Consistent types.inhabit := by
  refine ⟨fun t ht => ?_, fun t ht => ?_, fun variants hv => ?_⟩
  · rw [has_inhabit]
    exact h.resolves t (d.references_inhabit ▸ ht)
  · rcases d.inhabit_cases with ⟨-, hd⟩ | ⟨-, hd⟩
    · rw [hd] at ht
      cases ht
    · obtain ⟨p, hp⟩ := Option.isSome_iff_exists.1 (h.integer t (hd ▸ ht))
      obtain ⟨leads, unsigned⟩ := compactTarget?_eq_some.1 hp
      exact Option.isSome_iff_exists.2 ⟨p, compactTarget?_eq_some.2 ⟨leads.inhabit, unsigned⟩⟩
  · rcases d.inhabit_cases with ⟨-, hd⟩ | ⟨-, hd⟩
    · obtain rfl := TypeDef.variant.inj (hd.symm.trans hv)
      exact List.nodup_singleton _
    · exact h.distinct variants (hd ▸ hv)

/-- A definition takes some bytes exactly when it has a value of so many, and at least those
of its shortest value. -/
theorem exists_shortest (consistent : ∀ t ∈ types, t.definition.Consistent types)
    {t : TypeEntry} (mem : t ∈ types) (h : ∃ n, t.definition.Spans types n) :
    ∃ v : Datum, t.definition.inhabit.HasValue types.inhabit v ∧
      v.encode.length = t.definition.least types ∧
      ∀ w, t.definition.inhabit.HasValue types.inhabit w → v.encode.length ≤ w.encode.length := by
  have hall {P : TypeDef → Prop} (hP : ∀ t ∈ types, P t.definition.inhabit) :
      ∀ t ∈ types.inhabit, P t.definition := by
    intro t ht
    obtain ⟨t, mem, rfl⟩ := Array.mem_map.1 ht
    exact hP t mem
  have hspans : t.definition.inhabit.Spans types.inhabit (t.definition.least types) :=
    spans_inhabit.2 (Nat.sInf_mem h)
  obtain ⟨v, hv, hlength⟩ := TypeDef.Spans.exists_value
    (t := { t with definition := t.definition.inhabit })
    (hall (P := (·.Consistent types.inhabit)) fun t mem => consistent_inhabit (consistent t mem))
    (hall (P := (· ≠ .variant [])) fun t _ => t.definition.inhabit_ne)
    (Array.mem_map_of_mem mem) hspans
  refine ⟨v, hv, hlength, fun w hw => ?_⟩
  rw [hlength, ← least_inhabit]
  exact hw.least_le.2

/-- The sizes of a consistent table are found exactly when each type has a value. Each is then
the length of a shortest value, as far as it can be counted. Passes over the table end in
time: another one would change nothing. -/
theorem least_sizes_exact {m : Metadata} (valid : m.fault? = none) :
    ((∃ sizes, m.types.minSizes = .ok sizes) ↔
      ∀ t ∈ m.types, ∃ v : Datum, t.definition.inhabit.HasValue m.types.inhabit v) ∧
    (∀ sizes, m.types.minSizes = .ok sizes → sizes.size = m.types.size ∧
      ∀ (i : Nat) (t : TypeEntry), m.types[i]? = some t →
        ∃ v : Datum, t.definition.inhabit.HasValue m.types.inhabit v ∧
        (∀ w : Datum, t.definition.inhabit.HasValue m.types.inhabit w →
          v.encode.length ≤ w.encode.length) ∧
        sizes[i]? = some (min v.encode.length (UInt64.size - 1))) ∧
    m.types.pass m.types.sizes = (m.types.sizes, false) := by
  have consistent := (Metadata.fault?_eq_none.1 valid).types
  refine ⟨⟨fun h t mem => ?_, fun h => ?_⟩, fun sizes h => ?_, pass_sizes⟩
  · obtain ⟨sizes, h⟩ := h
    obtain ⟨v, hv, -⟩ := exists_shortest consistent mem ((minSizes_eq_ok.1 h).1 t mem)
    exact ⟨v, hv⟩
  · refine ⟨_, minSizes_eq_ok.2 ⟨fun t mem => ?_, rfl⟩⟩
    obtain ⟨v, hv⟩ := h t mem
    obtain ⟨n, hn⟩ := hv.least_le.1
    exact ⟨n, spans_inhabit.1 hn⟩
  · obtain ⟨hvalues, rfl⟩ := minSizes_eq_ok.1 h
    refine ⟨Array.size_map, fun i t type => ?_⟩
    have mem := Array.mem_iff_getElem?.2 ⟨i, type⟩
    obtain ⟨v, hv, hlength, hshortest⟩ := exists_shortest consistent mem (hvalues t mem)
    refine ⟨v, hv, hshortest, ?_⟩
    rw [Array.getElem?_map, type, hlength]
    rfl

/-- A list of bytes, with the type of its links in front of that of its elements. -/
def listMetadata : Metadata where
  specVersion := 1
  specs := ⟨"List", 42, 10, "UNIT", .ed25519⟩
  types := #[⟨"List", .variant [⟨0, "cons", [⟨none, none, 1⟩, ⟨none, none, 0⟩]⟩, ⟨1, "nil", []⟩]⟩,
    ⟨"u8", .primitive .u8⟩]
  pallets := []

theorem minSizes_listMetadata : listMetadata.types.minSizes = .ok #[1, 1] := by
  have hfound : listMetadata.types.sizes = #[some 1, some 1] := by decide
  simp [minSizes, hfound, List.findIdx?_cons]

theorem listMetadata_sizes_exact : listMetadata.fault? = none ∧
    ∀ t ∈ listMetadata.types, ∃ v : Datum,
      t.definition.inhabit.HasValue listMetadata.types.inhabit v :=
  ⟨by decide, (least_sizes_exact (by decide)).1.1 ⟨_, minSizes_listMetadata⟩⟩

end TypeTable

end ColdSigner
