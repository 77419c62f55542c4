import ColdSigner.Schema.Basic

/-! The least number of bytes that a value of each type takes.

The sizes are the least solution of one equation for each type, found by going
over the table again and again until nothing changes. A type that refers to itself
without a way out has no value, and so no size. -/
namespace ColdSigner.TypeTable

/-- Sizes are counted in 64 bits and stay at the largest number. -/
def maxSize : Nat := UInt64.size - 1

/-- The sizes found so far. -/
abbrev Sizes := Array (Option Nat)

/-- The sum over these types, where each has a size. -/
def total? (sizes : Sizes) (types : List TypeId) : Option Nat :=
  types.foldlM (fun acc t => (sizes.getD t.toNat none).map fun s => min (acc + s) maxSize) 0

/-- The size of a definition, given the sizes of other types. -/
def sizeOf? (sizes : Sizes) : TypeDef → Option Nat
  | .primitive p => some (p.width?.getD 1)
  | .compact _ | .sequence _ => some 1
  | .array length t =>
    if length = 0 then some 0
    else (sizes.getD t.toNat none).map fun s => min (s * length.toNat) maxSize
  | .tuple types => total? sizes types
  | .composite fields => total? sizes (fields.map (·.type))
  | .variant variants =>
    if variants.isEmpty then some 1
    else
      (variants.filterMap fun v => total? sizes (v.fields.map (·.type))).min?.map
        fun s => min (s + 1) maxSize

/-- The size of type `i` brought up to date, and whether that changed it. -/
def updateSize (types : TypeTable) (state : Sizes × Bool) (i : Nat) : Sizes × Bool :=
  match types[i]? with
  | none => state
  | some t =>
    let s := sizeOf? state.1 t.definition
    if s.isSome ∧ s ≠ state.1.getD i none then (state.1.setIfInBounds i s, true) else state

/-- One pass over the table. -/
def pass (types : TypeTable) (sizes : Sizes) : Sizes × Bool :=
  (List.range types.size).foldl (updateSize types) (sizes, false)

/-- Passes until nothing changes, `n` at most. -/
def settle (types : TypeTable) : Nat → Sizes → Sizes
  | 0, sizes => sizes
  | n + 1, sizes =>
    let (sizes, changed) := types.pass sizes
    if changed then settle types n sizes else sizes

/-- The sizes of all types; a size only shrinks once it is known, and is settled
within two passes for each type. -/
def sizes (types : TypeTable) : Sizes :=
  types.settle (2 * types.size + 2) (Array.replicate types.size none)

/-- The sizes, or the first type that has none. -/
def minSizes (types : TypeTable) : Except Nat (Array Nat) :=
  match types.sizes.findIdx? (·.isNone) with
  | some i => .error i
  | none => .ok (types.sizes.map (·.getD 0))

end ColdSigner.TypeTable
