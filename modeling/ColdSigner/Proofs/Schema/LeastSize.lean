import ColdSigner.Proofs.Schema.Rounds
import ColdSigner.Schema.Size
import Mathlib.Algebra.Ring.Nat
import Mathlib.Order.Lattice.Nat

/-! The least sizes of types.

A short value of a type has bytes of its own and short values of other types as its
parts; `Takes` says how many bytes it can take, and `least` is the smallest of these
numbers. The least size of a type rests on those of the parts of a shortest value, so
these sizes come to light in rounds (`Settled`), of which there are no more than types. -/
namespace ColdSigner

/-- The shortest values of a definition: the bytes of their own and the types of their parts. -/
inductive TypeDef.Shape : TypeDef → Nat → List TypeId → Prop where
  | primitive (p : Primitive) : Shape (.primitive p) (p.width?.getD 1) []
  | compact (t : TypeId) : Shape (.compact t) 1 []
  | sequence (t : TypeId) : Shape (.sequence t) 1 []
  | array (length : UInt32) (t : TypeId) :
      Shape (.array length t) 0 (List.replicate length.toNat t)
  | tuple (types : List TypeId) : Shape (.tuple types) 0 types
  | composite (fields : List Field) : Shape (.composite fields) 0 (fields.map (·.type))
  | variant {v : Variant} {variants : List Variant} (declared : v ∈ variants) :
      Shape (.variant variants) 1 (v.fields.map (·.type))
  /-- An index alone, where no variant is declared. -/
  | noVariant : Shape (.variant []) 1 []

namespace TypeTable

/-- A type has a value of so many bytes, with parts of one type of one size. -/
inductive Takes (types : TypeTable) : TypeId → Nat → Prop where
  | intro {id : TypeId} {d : TypeDef} {head : Nat} {parts : List TypeId}
      (definition : types.definition? id = some d) (shape : d.Shape head parts)
      (size : TypeId → Nat) (each : ∀ t ∈ parts, Takes types t (size t)) :
      Takes types id (head + (parts.map size).sum)

/-- The bytes that the shortest value of a type takes. -/
noncomputable def least (types : TypeTable) (id : TypeId) : Nat := sInf {n | Takes types id n}

end TypeTable

/-- A definition has a value of so many bytes, with parts of one type of one size. -/
def TypeDef.Spans (types : TypeTable) (d : TypeDef) (n : Nat) : Prop :=
  ∃ head parts size, d.Shape head parts ∧ (∀ t ∈ parts, types.Takes t (size t)) ∧
    n = head + (parts.map size).sum

/-- The bytes that the shortest value of a definition takes. -/
noncomputable def TypeDef.least (types : TypeTable) (d : TypeDef) : Nat := sInf {n | d.Spans types n}

namespace TypeTable

variable {types : TypeTable} {id : TypeId} {d : TypeDef} {head : Nat} {parts : List TypeId}

theorem takes_iff {n : Nat} :
    Takes types id n ↔ ∃ d, types.definition? id = some d ∧ d.Spans types n := by
  constructor
  · intro h
    obtain ⟨definition, shape, size, each⟩ := h
    exact ⟨_, definition, _, _, size, shape, each, rfl⟩
  · intro h
    obtain ⟨d, definition, head, parts, size, shape, each, rfl⟩ := h
    exact .intro definition shape size each

theorem takes_of_definition {n : Nat} (definition : types.definition? id = some d) :
    Takes types id n ↔ d.Spans types n := by
  simp only [takes_iff, definition, Option.some.injEq, exists_eq_left']

theorem least_of_definition (definition : types.definition? id = some d) :
    types.least id = d.least types := by
  simp only [least, TypeDef.least, takes_of_definition definition]

theorem Takes.least_le {n : Nat} (h : Takes types id n) : types.least id ≤ n :=
  Nat.sInf_le h

theorem Takes.least {n : Nat} (h : Takes types id n) : Takes types id (types.least id) :=
  Nat.sInf_mem ⟨n, h⟩

/-- A shape with least parts gives a value. -/
theorem least_le_of_shape (definition : types.definition? id = some d) (shape : d.Shape head parts)
    (each : ∀ t ∈ parts, ∃ n, Takes types t n) :
    types.least id ≤ head + (parts.map types.least).sum :=
  Takes.least_le <| .intro definition shape types.least fun t ht =>
    let ⟨_, h⟩ := each t ht
    h.least

theorem sum_le_sum {f g : TypeId → Nat} (h : ∀ t ∈ parts, f t ≤ g t) :
    (parts.map f).sum ≤ (parts.map g).sum := by
  induction parts with
  | nil => exact Nat.le_refl _
  | cons t parts ih =>
    rw [List.forall_mem_cons] at h
    simp only [List.map_cons, List.sum_cons]
    exact Nat.add_le_add h.1 (ih h.2)

/-- Summands that are no less one by one, and no more together, are equal. -/
theorem eq_of_sum_le {f g : TypeId → Nat} (h : ∀ t ∈ parts, f t ≤ g t)
    (hsum : (parts.map g).sum ≤ (parts.map f).sum) : ∀ t ∈ parts, g t = f t := by
  induction parts with
  | nil => simp
  | cons t parts ih =>
    rw [List.forall_mem_cons] at h
    simp only [List.map_cons, List.sum_cons] at hsum
    have hrest := sum_le_sum h.2
    rw [List.forall_mem_cons]
    exact ⟨by omega, ih h.2 (by omega)⟩

/-! ### Rounds

The least size of a type rests on those of the parts of a shortest value. A type is
settled a round after all of them. -/

/-- Round `n` settles the least size of a type. -/
def Settled (types : TypeTable) : Nat → TypeId → Prop
  | 0, _ => False
  | n + 1, id => ∃ d head parts, types.definition? id = some d ∧ d.Shape head parts ∧
      (∀ t ∈ parts, Settled types n t) ∧ head + (parts.map types.least).sum ≤ types.least id

theorem Settled.succ {n : Nat} (h : Settled types n id) : Settled types (n + 1) id := by
  induction n generalizing id with
  | zero => exact h.elim
  | succ n ih =>
    obtain ⟨d, head, parts, hd, hs, hparts, hle⟩ := h
    exact ⟨d, head, parts, hd, hs, fun t ht => ih (hparts t ht), hle⟩

theorem Settled.mono {n m : Nat} (hle : n ≤ m) (h : Settled types n id) : Settled types m id :=
  of_le_of_kept (fun _ _ => Settled.succ) hle h

/-- A type that has a shortest value is settled by some round. -/
theorem Takes.settled {n : Nat} (h : Takes types id n) (hleast : n = types.least id) :
    ∃ k, Settled types k id := by
  induction h with
  | @intro id d head parts definition shape size each ih =>
    have hparts : ∀ t ∈ parts, size t = types.least t := by
      refine eq_of_sum_le (fun t ht => (each t ht).least_le) ?_
      have := least_le_of_shape definition shape fun t ht => ⟨_, each t ht⟩
      omega
    obtain ⟨k, hk⟩ := exists_round (fun _ _ => Settled.succ) fun t ht => ih t ht (hparts t ht)
    refine ⟨k + 1, d, head, parts, definition, shape, hk, ?_⟩
    rw [← hleast, List.map_congr_left hparts]

/-- As many rounds as there are types settle every type that has a value. -/
theorem Takes.settled_size {n : Nat} (h : Takes types id n) : Settled types types.size id := by
  obtain ⟨k, hk⟩ := h.least.settled rfl
  refine Rounds.known_after_size (P := Settled types)
    ⟨?inside, fun n id => Settled.succ, ?settled⟩ hk
  case inside =>
    intro n id h
    cases n with
    | zero => exact h.elim
    | succ n =>
      obtain ⟨d, -, -, hd, -⟩ := h
      exact lt_size_of_definition? hd
  case settled =>
    intro n nothing id h
    obtain ⟨d, head, parts, hd, hs, hparts, hle⟩ := h
    exact ⟨d, head, parts, hd, hs, fun t ht => nothing t (hparts t ht), hle⟩

end TypeTable

end ColdSigner
