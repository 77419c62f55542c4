import ColdSigner.Proofs.Schema.Rounds
import ColdSigner.Schema.Wrapper
import Mathlib.Data.Fintype.Card

/-! Chains of wrappers.

A wrapper has one type inside, so one chain leads behind each type. It ends at a definition
that is no wrapper or at a reference out of the table, or else it goes round and never ends.
Each type of a chain that ends is a number of steps away from the end that is its own
(`Chain.length_unique`), so the chain visits no type twice and has at most as many steps as
there are types (`Chain.length_le_size`). The looks that `unwrap?` takes are thus enough to come
to the end of it. -/
namespace ColdSigner

theorem TypeDef.inner?_eq_some {d : TypeDef} {inner : TypeId} :
    d.inner? = some inner ↔
      (∃ f, d = .composite [f] ∧ f.type = inner) ∨ d = .tuple [inner] := by
  cases d with
  | composite fields => rcases fields with _ | ⟨f, _ | ⟨g, rest⟩⟩ <;> simp [inner?]
  | tuple parts => rcases parts with _ | ⟨t, _ | ⟨u, rest⟩⟩ <;> simp [inner?]
  | _ => simp [inner?]

namespace TypeTable

variable {types : TypeTable} {id t u : TypeId} {d target : TypeDef} {k j n : Nat}

/-! ### Chains -/

/-- A number of steps leads from one type to another. A step goes from a composite of one
field, or from a tuple of one type, to the type inside. -/
inductive Chain (types : TypeTable) : Nat → TypeId → TypeId → Prop where
  | here (id : TypeId) : Chain types 0 id id
  | composite {k : Nat} {id t : TypeId} {f : Field}
      (definition : types.definition? id = some (.composite [f])) (rest : Chain types k f.type t) :
      Chain types (k + 1) id t
  | tuple {k : Nat} {id t inner : TypeId}
      (definition : types.definition? id = some (.tuple [inner])) (rest : Chain types k inner t) :
      Chain types (k + 1) id t

/-- A chain ends at a type from which no step goes on. -/
def Ends (types : TypeTable) (t : TypeId) : Prop := ∀ u, ¬Chain types 1 t u

theorem chain_zero : Chain types 0 id t ↔ id = t := by
  constructor
  · rintro ⟨⟩
    rfl
  · rintro rfl
    exact .here id

theorem chain_succ : Chain types (k + 1) id t ↔
    ∃ d inner, types.definition? id = some d ∧ d.inner? = some inner ∧ Chain types k inner t := by
  constructor
  · intro h
    cases h with
    | composite definition rest => exact ⟨_, _, definition, rfl, rest⟩
    | tuple definition rest => exact ⟨_, _, definition, rfl, rest⟩
  · rintro ⟨d, inner, definition, wraps, rest⟩
    obtain ⟨f, rfl, rfl⟩ | rfl := TypeDef.inner?_eq_some.1 wraps
    · exact .composite definition rest
    · exact .tuple definition rest

theorem ends_iff : Ends types t ↔ ∀ d, types.definition? t = some d → d.inner? = none := by
  simp only [Ends, chain_succ, chain_zero, not_exists, not_and]
  constructor
  · intro h d definition
    exact Option.eq_none_iff_forall_ne_some.2 fun inner wraps => h inner d inner definition wraps rfl
  · intro h u d inner definition wraps _
    rw [h d definition] at wraps
    cases wraps

theorem Ends.length_eq_zero (ends : Ends types id) (h : Chain types k id t) : k = 0 := by
  cases k with
  | zero => rfl
  | succ k =>
    obtain ⟨d, inner, definition, wraps, -⟩ := chain_succ.1 h
    rw [ends_iff.1 ends d definition] at wraps
    cases wraps

/-- All chains from a type to an end have one length. -/
theorem Chain.length_unique (ends : Ends types t) (h : Chain types k id t)
    (h' : Chain types j id t) : k = j := by
  induction k generalizing id j with
  | zero =>
    obtain rfl := chain_zero.1 h
    exact (ends.length_eq_zero h').symm
  | succ k ih =>
    cases j with
    | zero =>
      obtain rfl := chain_zero.1 h'
      exact ends.length_eq_zero h
    | succ j =>
      obtain ⟨d, inner, definition, wraps, rest⟩ := chain_succ.1 h
      obtain ⟨d', inner', definition', wraps', rest'⟩ := chain_succ.1 h'
      obtain rfl := Option.some.inj (definition.symm.trans definition')
      obtain rfl := Option.some.inj (wraps.symm.trans wraps')
      rw [ih rest rest']

/-- A chain passes types at every smaller distance from its last one. -/
theorem Chain.exists_suffix (h : Chain types k id t) (hle : j ≤ k) : ∃ u, Chain types j u t := by
  induction k generalizing id with
  | zero =>
    obtain rfl := Nat.le_zero.1 hle
    exact ⟨id, h⟩
  | succ k ih =>
    obtain heq | hlt := Nat.eq_or_lt_of_le hle
    · exact ⟨id, heq ▸ h⟩
    · obtain ⟨-, inner, -, -, rest⟩ := chain_succ.1 h
      exact ih rest (Nat.le_of_lt_succ hlt)

/-- A chain that ends has no more steps than there are types. -/
theorem Chain.length_le_size (ends : Ends types t) (h : Chain types k id t) : k ≤ types.size := by
  have hpassed (i : Fin k) : ∃ u, Chain types (i + 1) u t := h.exists_suffix i.isLt
  choose passed chain using hpassed
  have inside (i : Fin k) : (passed i).toNat < types.size := by
    obtain ⟨d, -, definition, -⟩ := chain_succ.1 (chain i)
    exact lt_size_of_definition? definition
  -- Two places of the chain are of different types, since these are not equally far from its end.
  have apart : Function.Injective fun i => (⟨(passed i).toNat, inside i⟩ : Fin types.size) := by
    intro i j heq
    have hsame : passed i = passed j := UInt32.toNat_inj.1 (Fin.mk.inj heq)
    have hlength := Chain.length_unique ends (chain i) (hsame ▸ chain j)
    exact Fin.ext (Nat.succ.inj hlength)
  simpa using Fintype.card_le_of_injective _ apart

/-! ### Looking behind wrappers -/

theorem unwrapWithin_stop {id : TypeId} {d : TypeDef} (n : Nat)
    (definition : types.definition? id = some d) (bare : d.inner? = none) :
    types.unwrapWithin (n + 1) id = some d := by
  simp only [unwrapWithin, definition, bare]

theorem unwrapWithin_wrapper {id inner : TypeId} {d : TypeDef} (n : Nat)
    (definition : types.definition? id = some d) (wraps : d.inner? = some inner) :
    types.unwrapWithin (n + 1) id = types.unwrapWithin n inner := by
  simp only [unwrapWithin, definition, wraps]

/-- More looks than a chain has steps come to its end. -/
theorem unwrapWithin_of_chain (ends : Ends types t) (h : Chain types k id t) (hn : k < n) :
    types.unwrapWithin n id = types.definition? t := by
  induction k generalizing id n with
  | zero =>
    obtain rfl := chain_zero.1 h
    obtain ⟨m, rfl⟩ := Nat.exists_eq_succ_of_ne_zero (Nat.ne_zero_of_lt hn)
    cases definition : types.definition? id with
    | none => simp only [unwrapWithin, definition]
    | some d => exact unwrapWithin_stop m definition (ends_iff.1 ends d definition)
  | succ k ih =>
    obtain ⟨m, rfl⟩ := Nat.exists_eq_succ_of_ne_zero (Nat.ne_zero_of_lt hn)
    obtain ⟨d, inner, definition, wraps, rest⟩ := chain_succ.1 h
    rw [unwrapWithin_wrapper m definition wraps]
    exact ih rest (Nat.lt_of_succ_lt_succ hn)

/-- Through wrappers, a type leads to a definition that is none. -/
inductive Leads (types : TypeTable) : TypeId → TypeDef → Prop where
  | stop {id : TypeId} {d : TypeDef} (definition : types.definition? id = some d)
      (bare : d.inner? = none) : Leads types id d
  | wrapper {id inner : TypeId} {d target : TypeDef} (definition : types.definition? id = some d)
      (wraps : d.inner? = some inner) (rest : Leads types inner target) : Leads types id target

theorem leads_iff : Leads types id target ↔
    ∃ k t, Chain types k id t ∧ types.definition? t = some target ∧ target.inner? = none := by
  constructor
  · intro h
    induction h with
    | stop definition bare => exact ⟨0, _, .here _, definition, bare⟩
    | wrapper definition wraps _ ih =>
      obtain ⟨k, t, chain, found⟩ := ih
      exact ⟨k + 1, t, chain_succ.2 ⟨_, _, definition, wraps, chain⟩, found⟩
  · rintro ⟨k, t, chain, definition, bare⟩
    induction k generalizing id with
    | zero =>
      obtain rfl := chain_zero.1 chain
      exact .stop definition bare
    | succ k ih =>
      obtain ⟨d, inner, definition', wraps, rest⟩ := chain_succ.1 chain
      exact .wrapper definition' wraps (ih rest)

theorem ends_of_definition (definition : types.definition? t = some d) (bare : d.inner? = none) :
    Ends types t := by
  refine ends_iff.2 fun d' definition' => ?_
  obtain rfl := Option.some.inj (definition.symm.trans definition')
  exact bare

theorem leads_of_unwrapWithin (h : types.unwrapWithin n id = some target) :
    Leads types id target := by
  induction n generalizing id with
  | zero => cases h
  | succ n ih =>
    cases definition : types.definition? id with
    | none =>
      simp only [unwrapWithin, definition] at h
      cases h
    | some d =>
      cases wraps : d.inner? with
      | none =>
        rw [unwrapWithin_stop n definition wraps] at h
        obtain rfl := Option.some.inj h
        exact .stop definition wraps
      | some inner =>
        rw [unwrapWithin_wrapper n definition wraps] at h
        exact .wrapper definition wraps (ih h)

/-- More looks than there are types find whatever is behind wrappers. -/
theorem unwrapWithin_eq_some (hn : types.size < n) :
    types.unwrapWithin n id = some target ↔ Leads types id target := by
  constructor
  · exact leads_of_unwrapWithin
  · intro h
    obtain ⟨k, t, chain, definition, bare⟩ := leads_iff.1 h
    have ends := ends_of_definition definition bare
    have hk : k < n := Nat.lt_of_le_of_lt (chain.length_le_size ends) hn
    rw [unwrapWithin_of_chain ends chain hk, definition]

theorem unwrap?_eq_some : types.unwrap? id = some target ↔ Leads types id target :=
  unwrapWithin_eq_some (Nat.lt_succ_self _)

theorem compactTarget?_eq_some {id : TypeId} {p : Primitive} :
    types.compactTarget? id = some p ↔ Leads types id (.primitive p) ∧ p.isUnsigned = true := by
  rw [← unwrap?_eq_some, compactTarget?]
  split
  · next q hq =>
    rw [hq, Option.some.injEq, TypeDef.primitive.injEq]
    split
    · next hu => grind
    · next hu => grind
  · next hother => grind

theorem byteArray?_eq_some {id : TypeId} {n : UInt32} :
    types.byteArray? id = some n ↔
      ∃ t, Leads types id (.array n t) ∧ types.isByte t = true := by
  simp only [← unwrap?_eq_some, byteArray?]
  split
  · next length t ht => grind
  · next hother => grind

/-! ### The bound -/

/-- An unsigned integer is found behind exactly the types from which some number of steps leads
to it, and so is an array of bytes. A chain that ends, in the table or out of it, has at most as
many steps as there are types, so `unwrap?` follows it to its end, and no larger bound finds
anything else. -/
theorem unwrapping_exact (types : TypeTable) (id : TypeId) :
    (∀ p, types.compactTarget? id = some p ↔
        p.isUnsigned = true ∧
          ∃ k t, Chain types k id t ∧ types.definition? t = some (.primitive p)) ∧
      (∀ length, types.byteArray? id = some length ↔
        ∃ k t byte, Chain types k id t ∧ types.definition? t = some (.array length byte) ∧
          types.definition? byte = some (.primitive .u8)) ∧
      (∀ k t, Chain types k id t → Ends types t →
        k ≤ types.size ∧ types.unwrap? id = types.definition? t) ∧
      ∀ n, types.size < n → types.unwrapWithin n id = types.unwrap? id := by
  refine ⟨fun p => ?integer, fun length => ?bytes, fun k t chain ends => ?ended, fun n hn => ?more⟩
  case integer =>
    rw [compactTarget?_eq_some, leads_iff, and_comm]
    simp only [TypeDef.inner?, and_true]
  case bytes =>
    simp only [byteArray?_eq_some, leads_iff, isByte, beq_iff_eq, TypeDef.inner?, and_true]
    constructor
    · rintro ⟨byte, ⟨k, t, chain, definition⟩, hbyte⟩
      exact ⟨k, t, byte, chain, definition, hbyte⟩
    · rintro ⟨k, t, byte, chain, definition, hbyte⟩
      exact ⟨byte, ⟨k, t, chain, definition⟩, hbyte⟩
  case ended =>
    have hk := chain.length_le_size ends
    exact ⟨hk, unwrapWithin_of_chain ends chain (Nat.lt_succ_of_le hk)⟩
  case more =>
    refine Option.ext fun target => ?_
    rw [unwrapWithin_eq_some hn, unwrap?_eq_some]

/-- A wrapped byte, a wrapped hash, two tuples inside each other, and a tuple of no type. -/
def wrappedTypes : TypeTable :=
  #[⟨"", .composite [⟨none, none, 1⟩]⟩, ⟨"", .tuple [2]⟩, ⟨"", .primitive .u8⟩,
    ⟨"", .composite [⟨none, none, 4⟩]⟩, ⟨"", .array 32 2⟩, ⟨"", .tuple [6]⟩, ⟨"", .tuple [5]⟩,
    ⟨"", .tuple [8]⟩]

/-- The two chains that end in the table are followed to the end, as is the one that leads out
of it, and no number of looks finds anything in a circle. -/
theorem unwrapping_of_wrapped_types :
    wrappedTypes.compactTarget? 0 = some .u8 ∧ wrappedTypes.byteArray? 3 = some 32 ∧
      wrappedTypes.unwrap? 7 = none ∧ ∀ n, 8 < n → wrappedTypes.unwrapWithin n 5 = none := by
  refine ⟨?_, ?_, ?_, fun n hn => ?_⟩
  · have chain : Chain wrappedTypes 2 0 2 := .composite rfl (.tuple rfl (.here 2))
    exact ((unwrapping_exact wrappedTypes 0).1 .u8).2 ⟨rfl, 2, 2, chain, rfl⟩
  · have chain : Chain wrappedTypes 1 3 4 := .composite rfl (.here 4)
    exact ((unwrapping_exact wrappedTypes 3).2.1 32).2 ⟨1, 4, 2, chain, rfl, rfl⟩
  · have chain : Chain wrappedTypes 1 7 8 := .tuple rfl (.here 8)
    have ends : Ends wrappedTypes 8 := ends_iff.2 nofun
    exact ((unwrapping_exact wrappedTypes 7).2.2.1 1 8 chain ends).2
  · exact ((unwrapping_exact wrappedTypes 5).2.2.2 n hn).trans (by decide)

end TypeTable

end ColdSigner
