import ColdSigner.Metadata.Entry
import Mathlib.Data.List.Nodup

/-! What metadata without fault guarantees.

`fault?_eq_none` says exactly when nothing is found wrong: every reference of a
definition leads to a type of the table, an unsigned integer stands behind every
compact form, the indices of variants and of pallets are distinct, and the calls of a
pallet are variants of the table. -/
namespace ColdSigner

/-- A definition that agrees with the table it stands in. -/
structure TypeDef.Consistent (types : TypeTable) (d : TypeDef) : Prop where
  resolves : ∀ t ∈ d.references, types.has t = true
  integer : ∀ t, d = .compact t → (types.compactTarget? t).isSome = true
  distinct : ∀ variants, d = .variant variants → (variants.map (·.index)).Nodup

/-- The calls of a pallet are variants of the table, where it has any. -/
def Pallet.Callable (types : TypeTable) (p : Pallet) : Prop :=
  ∀ calls, p.calls = some calls → ∃ variants, types.definition? calls = some (.variant variants)

namespace Metadata

/-- Metadata whose parts agree with each other. -/
structure Consistent (m : Metadata) : Prop where
  types : ∀ t ∈ m.types, t.definition.Consistent m.types
  callable : ∀ p ∈ m.pallets, p.Callable m.types
  distinct : (m.pallets.map (·.index)).Nodup

variable {types : TypeTable}

theorem firstRepeat_eq_none {seen xs : List UInt8} :
    firstRepeat seen xs = none ↔ xs.Nodup ∧ ∀ x ∈ xs, x ∉ seen := by
  induction xs generalizing seen with
  | nil => simp [firstRepeat]
  | cons x rest ih =>
    rw [firstRepeat]
    by_cases hx : x ∈ seen
    · simp [hx]
    · rw [if_neg hx, ih, List.nodup_cons]
      grind

theorem typeFault?_eq_none {i : Nat} {d : TypeDef} :
    typeFault? types i d = none ↔ d.Consistent types := by
  have hresolves : d.references.find? (!types.has ·) = none ↔
      ∀ t ∈ d.references, types.has t = true := by simp
  unfold typeFault?
  cases hr : d.references.find? (!types.has ·) with
  | some r =>
    refine iff_of_false nofun fun h => ?_
    rw [hresolves.2 h.resolves] at hr
    cases hr
  | none =>
    have hrefs := hresolves.1 hr
    cases d with
    | compact t =>
      dsimp only
      constructor
      · intro h
        refine ⟨hrefs, fun t' ht => ?_, nofun⟩
        obtain rfl := TypeDef.compact.inj ht
        simpa [Option.isSome_iff_ne_none] using h
      · intro h
        simpa [Option.isSome_iff_ne_none] using h.integer t rfl
    | variant variants =>
      dsimp only
      rw [Option.map_eq_none_iff, firstRepeat_eq_none]
      constructor
      · intro h
        refine ⟨hrefs, nofun, fun variants' hv => ?_⟩
        obtain rfl := TypeDef.variant.inj hv
        exact h.1
      · exact fun h => ⟨h.distinct _ rfl, fun _ _ => List.not_mem_nil⟩
    | _ => exact iff_of_true rfl ⟨hrefs, nofun, nofun⟩

theorem typesFault?_eq_none :
    typesFault? types = none ↔ ∀ t ∈ types, t.definition.Consistent types := by
  simp only [typesFault?, List.findSome?_eq_none_iff, List.mem_range, Array.mem_iff_getElem?]
  constructor
  · intro h t ht
    obtain ⟨i, hi⟩ := ht
    have hplace := h i (Array.getElem?_eq_some_iff.1 hi).1
    rw [hi, Option.bind_some] at hplace
    exact typeFault?_eq_none.1 hplace
  · intro h i hi
    rw [Array.getElem?_eq_getElem hi, Option.bind_some]
    exact typeFault?_eq_none.2 (h _ ⟨i, Array.getElem?_eq_getElem hi⟩)

theorem palletFault?_eq_none {seen : List UInt8} {p : Pallet} :
    palletFault? types seen p = none ↔ p.index ∉ seen ∧ p.Callable types := by
  rw [palletFault?, Pallet.Callable]
  by_cases hp : p.index ∈ seen
  · simp [hp]
  · rw [if_neg hp]
    cases hcalls : p.calls with
    | none => simp [hp]
    | some calls =>
      cases hd : types.definition? calls with
      | none => simp [hp, hd]
      | some d => cases d <;> simp [hp, hd]

theorem palletsFault?_eq_none {seen : List UInt8} {pallets : List Pallet} :
    palletsFault? types seen pallets = none ↔
      (∀ p ∈ pallets, p.Callable types) ∧ (pallets.map (·.index)).Nodup ∧
        ∀ p ∈ pallets, p.index ∉ seen := by
  induction pallets generalizing seen with
  | nil => simp [palletsFault?]
  | cons p rest ih =>
    rw [palletsFault?, Option.orElse_eq_orElse, Option.orElse_eq_or, Option.or_eq_none_iff,
      palletFault?_eq_none, ih, List.map_cons, List.nodup_cons]
    grind

/-- Nothing is found wrong with metadata exactly when its parts agree. -/
theorem fault?_eq_none {m : Metadata} : m.fault? = none ↔ m.Consistent := by
  rw [fault?, Option.orElse_eq_orElse, Option.orElse_eq_or, Option.or_eq_none_iff,
    typesFault?_eq_none, palletsFault?_eq_none]
  constructor
  · rintro ⟨htypes, hcalls, hdistinct, -⟩
    exact ⟨htypes, hcalls, hdistinct⟩
  · intro h
    exact ⟨h.types, h.callable, h.distinct, fun _ _ => List.not_mem_nil⟩

end Metadata

/-- Metadata that was accepted is consistent. -/
theorem Entry.consistent (e : Entry) : e.metadata.Consistent :=
  Metadata.fault?_eq_none.1 e.fault_eq

end ColdSigner
