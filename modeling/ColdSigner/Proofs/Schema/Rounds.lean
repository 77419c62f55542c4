import ColdSigner.Schema.Basic
import Mathlib.Data.Finset.Card
import Mathlib.Order.Monotone.Basic

/-! Rounds over a type table.

Some facts about types come to light in rounds, each of which builds on the one
before. `Rounds.known_after_size` says when as many rounds as there are types are
enough: when a round that finds nothing is not followed by one that does. -/
namespace ColdSigner.TypeTable

variable {types : TypeTable}

/-- What is known of types after so many rounds lasts, and a round that finds nothing
is the last one to find anything. -/
structure Rounds (types : TypeTable) (P : Nat → TypeId → Prop) : Prop where
  inside : ∀ n id, P n id → id.toNat < types.size
  kept : ∀ n id, P n id → P (n + 1) id
  settled : ∀ n, (∀ id, P (n + 1) id → P n id) → ∀ id, P (n + 2) id → P (n + 1) id

theorem of_le_of_kept {P : Nat → TypeId → Prop} (kept : ∀ n id, P n id → P (n + 1) id) {n m : Nat}
    {id : TypeId} (hle : n ≤ m) (hP : P n id) : P m id := by
  induction hle with
  | refl => exact hP
  | step _ ih => exact kept _ id ih

/-- What some round tells of each of finitely many types, one round tells of all. -/
theorem exists_round {P : Nat → TypeId → Prop} (kept : ∀ n id, P n id → P (n + 1) id)
    {ids : List TypeId} (h : ∀ t ∈ ids, ∃ n, P n t) : ∃ n, ∀ t ∈ ids, P n t := by
  induction ids with
  | nil => exact ⟨0, by simp⟩
  | cons t ids ih =>
    rw [List.forall_mem_cons] at h
    obtain ⟨⟨n, hn⟩, hrest⟩ := h
    obtain ⟨m, hm⟩ := ih hrest
    refine ⟨max n m, List.forall_mem_cons.2 ⟨of_le_of_kept kept (Nat.le_max_left ..) hn, ?_⟩⟩
    exact fun u hu => of_le_of_kept kept (Nat.le_max_right ..) (hm u hu)

/-- The types that are known after so many rounds, by their places in the table. -/
noncomputable def found (types : TypeTable) (P : Nat → TypeId → Prop) (n : Nat) : Finset Nat :=
  @Finset.filter _ (fun i => ∃ id : TypeId, id.toNat = i ∧ P n id) (Classical.decPred _)
    (Finset.range types.size)

theorem mem_found {P : Nat → TypeId → Prop} {n i : Nat} :
    i ∈ found types P n ↔ i < types.size ∧ ∃ id : TypeId, id.toNat = i ∧ P n id := by
  simp only [found, Finset.mem_filter, Finset.mem_range]

namespace Rounds

variable {P : Nat → TypeId → Prop} {n m : Nat} {id : TypeId}

theorem toNat_mem_found (h : Rounds types P) : id.toNat ∈ found types P n ↔ P n id := by
  simp only [mem_found, UInt32.toNat_inj]
  constructor
  · rintro ⟨-, _, rfl, hP⟩
    exact hP
  · intro hP
    exact ⟨h.inside n id hP, id, rfl, hP⟩

theorem found_subset (h : Rounds types P) (hP : ∀ id, P n id → P m id) :
    found types P n ⊆ found types P m := by
  intro i hi
  obtain ⟨-, id, rfl, hid⟩ := mem_found.1 hi
  exact h.toNat_mem_found.2 (hP id hid)

theorem of_le (h : Rounds types P) (hle : n ≤ m) (hP : P n id) : P m id :=
  of_le_of_kept h.kept hle hP

theorem of_card_eq (h : Rounds types P) (hle : n ≤ m)
    (same : (found types P n).card = (found types P m).card) (hP : P m id) : P n id := by
  have hfound : found types P n = found types P m :=
    Finset.eq_of_subset_of_card_le (h.found_subset fun _ => h.of_le hle) same.ge
  rw [← h.toNat_mem_found, hfound, h.toNat_mem_found]
  exact hP

/-- As many rounds as there are types are enough. -/
theorem known_after_size (h : Rounds types P) (hP : P n id) : P types.size id := by
  have monotone : Monotone fun n => (found types P n).card := fun n m hle =>
    Finset.card_le_card (h.found_subset fun _ => h.of_le hle)
  have bounded (n : Nat) : (found types P n).card ≤ types.size := by
    have hcard := Finset.card_le_card fun i (hi : i ∈ found types P n) =>
      Finset.mem_range.2 (mem_found.1 hi).1
    rwa [Finset.card_range] at hcard
  have stays (n : Nat) (same : (found types P n).card = (found types P (n + 1)).card) :
      (found types P (n + 1)).card = (found types P (n + 2)).card := by
    have hlast := h.settled n fun _ => h.of_card_eq (Nat.le_succ n) same
    exact Nat.le_antisymm (monotone (Nat.le_succ _)) (Finset.card_le_card (h.found_subset hlast))
  rcases Nat.le_total n types.size with hle | hle
  · exact h.of_le hle hP
  · exact h.of_card_eq hle (Nat.stabilises_of_monotone monotone bounded stays hle).symm hP

end Rounds

theorem lt_size_of_definition? {id : TypeId} {d : TypeDef} (h : types.definition? id = some d) :
    id.toNat < types.size := by
  obtain ⟨t, ht, -⟩ := Option.map_eq_some_iff.1 h
  exact (Array.getElem?_eq_some_iff.1 ht).1

end ColdSigner.TypeTable
