import ColdSigner.Proofs.Access.Guard
import ColdSigner.Proofs.Schema.Passes
import ColdSigner.Proofs.Metadata.Consistency

/-! Type tables, looked at with checks.

Metadata is inspected before it is accepted, and the least sizes of its types are found. The
inspection looks back at earlier elements; the sizes are found place by place, and
are asked for by references, which must not lead out of the table. By then the inspection
has seen that none does: `build_eq` says that no check is met on the way to an entry. -/
namespace ColdSigner.Checked

open TypeTable (Sizes maxSize)

variable {ε α β : Type} {types : TypeTable}

/-! ### Wrappers -/

/-- The type inside a wrapper, the first of its parts. -/
def inner? : TypeDef → Guarded ε (Option TypeId)
  | .composite fields => do
    if fields.length = 1 then return some (← itemAt fields 0).type else return none
  | .tuple parts => do
    if parts.length = 1 then return some (← itemAt parts 0) else return none
  | _ => return none

def unwrapWithin (types : TypeTable) : Nat → TypeId → Guarded ε (Option TypeDef)
  | 0, _ => return none
  | n + 1, id =>
    match types.definition? id with
    | none => return none
    | some d => do
      match ← inner? d with
      | some inner => unwrapWithin types n inner
      | none => return some d

def compactTarget? (types : TypeTable) (id : TypeId) : Guarded ε (Option Primitive) := do
  match ← unwrapWithin types (types.size + 1) id with
  | some (.primitive p) => return if p.isUnsigned then some p else none
  | _ => return none

def byteArray? (types : TypeTable) (id : TypeId) : Guarded ε (Option UInt32) := do
  match ← unwrapWithin types (types.size + 1) id with
  | some (.array length t) => return if types.isByte t then some length else none
  | _ => return none

theorem inner?_eq (d : TypeDef) : (inner? d : Guarded ε (Option TypeId)) = .ok d.inner? := by
  cases d with
  | composite fields => rcases fields with _ | ⟨f, _ | ⟨g, rest⟩⟩ <;> rfl
  | tuple parts => rcases parts with _ | ⟨t, _ | ⟨u, rest⟩⟩ <;> rfl
  | _ => rfl

theorem unwrapWithin_eq (n : Nat) (id : TypeId) :
    (unwrapWithin types n id : Guarded ε (Option TypeDef)) = .ok (types.unwrapWithin n id) := by
  induction n generalizing id with
  | zero => rfl
  | succ n ih =>
    rw [unwrapWithin, TypeTable.unwrapWithin]
    cases types.definition? id with
    | none => rfl
    | some d =>
      dsimp only
      rw [inner?_eq, ok_bind]
      cases d.inner? with
      | some inner => exact ih inner
      | none => rfl

theorem compactTarget?_eq (id : TypeId) :
    (compactTarget? types id : Guarded ε (Option Primitive)) = .ok (types.compactTarget? id) := by
  rw [compactTarget?, unwrapWithin_eq, ok_bind, TypeTable.compactTarget?, TypeTable.unwrap?]
  cases types.unwrapWithin (types.size + 1) id with
  | none => rfl
  | some d => cases d <;> rfl

theorem byteArray?_eq (id : TypeId) :
    (byteArray? types id : Guarded ε (Option UInt32)) = .ok (types.byteArray? id) := by
  rw [byteArray?, unwrapWithin_eq, ok_bind, TypeTable.byteArray?, TypeTable.unwrap?]
  cases types.unwrapWithin (types.size + 1) id with
  | none => rfl
  | some d => cases d <;> rfl

/-! ### The inspection -/

/-- The first of the elements from place `i` on that one before it equals. -/
def firstRepeat (all : List UInt8) (i : Nat) : List UInt8 → Guarded ε (Option UInt8)
  | [] => return none
  | x :: rest => do
    if x ∈ (← slice all 0 i) then return some x else firstRepeat all (i + 1) rest

def typeFault? (types : TypeTable) (i : Nat) (d : TypeDef) :
    Guarded ε (Option Metadata.Fault) :=
  match d.references.find? (!types.has ·) with
  | some r => return some (.danglingReference i r)
  | none => do
    match d with
    | .compact inner =>
      return if (← compactTarget? types inner).isNone then some (.compactOfNonInteger i inner) else none
    | .variant variants =>
      let indices := variants.map (·.index)
      return (← firstRepeat indices 0 indices).map (.duplicateVariant i)
    | _ => return none

def typesFault? (types : TypeTable) : Guarded ε (Option Metadata.Fault) :=
  (List.range types.size).findSomeM? fun i => do
    let t ← itemAt types.toList i
    typeFault? types i t.definition

/-- What is wrong with the pallets from place `i` on. -/
def palletsFault? (types : TypeTable) (all : List Pallet) (i : Nat) :
    List Pallet → Guarded ε (Option Metadata.Fault)
  | [] => return none
  | p :: rest => do
    let before ← slice all 0 i
    match Metadata.palletFault? types (before.map (·.index)) p with
    | some f => return some f
    | none => palletsFault? types all (i + 1) rest

def fault? (m : Metadata) : Guarded ε (Option Metadata.Fault) := do
  match ← typesFault? m.types with
  | some f => return some f
  | none => palletsFault? m.types m.pallets 0 m.pallets

theorem slice_front (before rest : List α) :
    (slice (before ++ rest) 0 before.length : Guarded ε (List α)) = .ok before := by
  rw [slice_eq (Nat.zero_le _) (by rw [List.length_append]; omega), List.take_left, List.drop_zero]

theorem firstRepeat_eq (before rest : List UInt8) :
    (firstRepeat (before ++ rest) before.length rest : Guarded ε (Option UInt8)) =
      .ok (Metadata.firstRepeat before.reverse rest) := by
  induction rest generalizing before with
  | nil => rfl
  | cons x rest ih =>
    have hrest := ih (before ++ [x])
    rw [List.append_assoc, List.length_append, List.reverse_append] at hrest
    rw [firstRepeat, Metadata.firstRepeat, slice_front, ok_bind]
    by_cases hx : x ∈ before
    · rw [if_pos hx, if_pos (List.mem_reverse.2 hx)]
      rfl
    · rw [if_neg hx, if_neg (mt List.mem_reverse.1 hx)]
      exact hrest

theorem typeFault?_eq (i : Nat) (d : TypeDef) :
    (typeFault? types i d : Guarded ε (Option Metadata.Fault)) =
      .ok (Metadata.typeFault? types i d) := by
  unfold typeFault? Metadata.typeFault?
  cases d.references.find? (!types.has ·) with
  | some r => rfl
  | none =>
    cases d with
    | compact inner =>
      dsimp only
      rw [compactTarget?_eq]
      rfl
    | variant variants =>
      have hrepeat := @firstRepeat_eq ε [] (variants.map (·.index))
      rw [List.nil_append, List.length_nil] at hrepeat
      dsimp only
      rw [hrepeat]
      rfl
    | _ => rfl

theorem findSomeM?_eq {f : α → Guarded ε (Option β)} {g : α → Option β} {xs : List α}
    (h : ∀ x ∈ xs, f x = .ok (g x)) : xs.findSomeM? f = .ok (xs.findSome? g) := by
  induction xs with
  | nil => rfl
  | cons x xs ih =>
    rw [List.forall_mem_cons] at h
    rw [List.findSomeM?_cons, h.1, ok_bind, List.findSome?_cons]
    cases g x with
    | some b => rfl
    | none => exact ih h.2

theorem typesFault?_eq :
    (typesFault? types : Guarded ε (Option Metadata.Fault)) = .ok (Metadata.typesFault? types) := by
  refine findSomeM?_eq fun i hi => ?_
  have hsize := List.mem_range.1 hi
  rw [itemAt_eq (by rwa [Array.length_toList]), ok_bind, typeFault?_eq,
    Array.getElem?_eq_getElem hsize, Array.getElem_toList]
  rfl

theorem palletsFault?_eq (before rest : List Pallet) :
    (palletsFault? types (before ++ rest) before.length rest : Guarded ε (Option Metadata.Fault)) =
      .ok (Metadata.palletsFault? types (before.map (·.index)).reverse rest) := by
  induction rest generalizing before with
  | nil => rfl
  | cons p rest ih =>
    have hrest := ih (before ++ [p])
    rw [List.append_assoc, List.length_append, List.map_append, List.reverse_append] at hrest
    have hfault : Metadata.palletFault? types (before.map (·.index)) p =
        Metadata.palletFault? types (before.map (·.index)).reverse p := by
      simp only [Metadata.palletFault?, List.mem_reverse]
    rw [palletsFault?, Metadata.palletsFault?, slice_front, ok_bind, hfault]
    cases Metadata.palletFault? types (before.map (·.index)).reverse p with
    | some f => rfl
    | none => exact hrest

theorem fault?_eq (m : Metadata) :
    (fault? m : Guarded ε (Option Metadata.Fault)) = .ok m.fault? := by
  rw [fault?, Metadata.fault?, typesFault?_eq, ok_bind]
  cases Metadata.typesFault? m.types with
  | some f => rfl
  | none => exact palletsFault?_eq [] m.pallets

/-! ### Sizes -/

def sizeAt (sizes : Sizes) (t : TypeId) : Guarded ε (Option Nat) := itemAt sizes.toList t.toNat

/-- `acc` and the sizes of these types. -/
def total? (sizes : Sizes) (acc : Nat) : List TypeId → Guarded ε (Option Nat)
  | [] => return some acc
  | t :: rest => do
    match ← sizeAt sizes t with
    | some s => total? sizes (min (acc + s) maxSize) rest
    | none => return none

def sizeOf? (sizes : Sizes) : TypeDef → Guarded ε (Option Nat)
  | .primitive p => return some (p.width?.getD 1)
  | .compact _ | .sequence _ => return some 1
  | .array length t => do
    if length = 0 then return some 0
    else return (← sizeAt sizes t).map fun s => min (s * length.toNat) maxSize
  | .tuple types => total? sizes 0 types
  | .composite fields => total? sizes 0 (fields.map (·.type))
  | .variant variants => do
    if variants.isEmpty then return some 1
    else
      let totals ← variants.mapM fun v => total? sizes 0 (v.fields.map (·.type))
      return (totals.filterMap id).min?.map fun s => min (s + 1) maxSize

def updateSize (types : TypeTable) (state : Sizes × Bool) (i : Nat) :
    Guarded ε (Sizes × Bool) := do
  let t ← itemAt types.toList i
  let s ← sizeOf? state.1 t.definition
  let old ← itemAt state.1.toList i
  return if s.isSome ∧ s ≠ old then (state.1.setIfInBounds i s, true) else state

def pass (types : TypeTable) (sizes : Sizes) : Guarded ε (Sizes × Bool) :=
  (List.range types.size).foldlM (updateSize types) (sizes, false)

def settle (types : TypeTable) : Nat → Sizes → Guarded ε Sizes
  | 0, sizes => return sizes
  | n + 1, sizes => do
    let (sizes, changed) ← pass types sizes
    if changed then settle types n sizes else return sizes

def minSizes (types : TypeTable) : Guarded ε (Except Nat (Array Nat)) := do
  let sizes ← settle types (2 * types.size + 2) (Array.replicate types.size none)
  return match sizes.findIdx? (·.isNone) with
    | some i => .error i
    | none => .ok (sizes.map (·.getD 0))

variable {sizes : Sizes}

theorem itemAt_toList {i : Nat} (h : i < sizes.size) :
    (itemAt sizes.toList i : Guarded ε (Option Nat)) = .ok (sizes.getD i none) := by
  rw [itemAt_eq (by rwa [Array.length_toList]), Array.getElem_toList, Array.getD_eq_getD_getElem?,
    Array.getElem?_eq_getElem h]
  rfl

theorem total?_eq {parts : List TypeId} (h : ∀ t ∈ parts, t.toNat < sizes.size) (acc : Nat) :
    (total? sizes acc parts : Guarded ε (Option Nat)) =
      .ok (parts.foldlM (fun acc t => (sizes.getD t.toNat none).map fun s => min (acc + s) maxSize)
        acc) := by
  induction parts generalizing acc with
  | nil => rfl
  | cons t parts ih =>
    rw [List.forall_mem_cons] at h
    rw [total?, sizeAt, itemAt_toList h.1, ok_bind, List.foldlM_cons]
    cases sizes.getD t.toNat none with
    | some s => exact ih h.2 _
    | none => rfl

theorem mapM_eq {f : α → Guarded ε β} {g : α → β} {xs : List α} (h : ∀ x ∈ xs, f x = .ok (g x)) :
    xs.mapM f = .ok (xs.map g) := by
  induction xs with
  | nil => rfl
  | cons x xs ih =>
    rw [List.forall_mem_cons] at h
    rw [List.mapM_cons, h.1, ok_bind, ih h.2]
    rfl

/-- The size of a definition is found where the references lead to places. -/
theorem sizeOf?_eq {d : TypeDef} (h : ∀ t ∈ d.references, t.toNat < sizes.size) :
    (sizeOf? sizes d : Guarded ε (Option Nat)) = .ok (TypeTable.sizeOf? sizes d) := by
  cases d with
  | array length t =>
    rw [sizeOf?, TypeTable.sizeOf?, sizeAt, itemAt_toList (h t (List.mem_singleton_self t))]
    split <;> rfl
  | tuple parts => exact total?_eq h 0
  | composite fields => exact total?_eq h 0
  | variant variants =>
    have htotals : variants.mapM (fun v => total? sizes 0 (v.fields.map (·.type))) =
        (.ok (variants.map fun v => TypeTable.total? sizes (v.fields.map (·.type))) :
          Guarded ε (List (Option Nat))) :=
      mapM_eq fun v hv => total?_eq (fun t ht => h t (List.mem_flatMap.2 ⟨v, hv, ht⟩)) 0
    rw [sizeOf?, TypeTable.sizeOf?, htotals, ok_bind, List.filterMap_map]
    split <;> rfl
  | _ => rfl

section

variable (resolves : ∀ t ∈ types, ∀ r ∈ t.definition.references, types.has r = true)

include resolves

theorem updateSize_eq {state : Sizes × Bool} (hsize : state.1.size = types.size) {i : Nat}
    (hi : i < types.size) :
    (updateSize types state i : Guarded ε (Sizes × Bool)) = .ok (types.updateSize state i) := by
  have hrefs : ∀ r ∈ types[i].definition.references, r.toNat < state.1.size := by
    intro r hr
    rw [hsize]
    exact of_decide_eq_true (resolves _ (Array.getElem_mem hi) r hr)
  rw [updateSize, itemAt_eq (by rwa [Array.length_toList]), ok_bind, Array.getElem_toList,
    sizeOf?_eq hrefs, ok_bind, itemAt_toList (hsize ▸ hi), ok_bind, TypeTable.updateSize,
    Array.getElem?_eq_getElem hi]
  rfl

theorem foldlM_updateSize (is : List Nat) (state : Sizes × Bool) (hsize : state.1.size = types.size)
    (h : ∀ i ∈ is, i < types.size) :
    (is.foldlM (updateSize types) state : Guarded ε (Sizes × Bool)) =
      .ok (is.foldl (TypeTable.updateSize types) state) := by
  induction is generalizing state with
  | nil => rfl
  | cons i is ih =>
    rw [List.forall_mem_cons] at h
    rw [List.foldlM_cons, List.foldl_cons, updateSize_eq resolves hsize h.1, ok_bind]
    exact ih _ (TypeTable.size_updateSize.trans hsize) h.2

theorem settle_eq (n : Nat) (hsize : sizes.size = types.size) :
    (settle types n sizes : Guarded ε Sizes) = .ok (types.settle n sizes) := by
  induction n generalizing sizes with
  | zero => rfl
  | succ n ih =>
    have hpass : (pass types sizes : Guarded ε (Sizes × Bool)) = .ok (types.pass sizes) :=
      foldlM_updateSize resolves _ (sizes, false) hsize fun i hi => List.mem_range.1 hi
    have hsize' := (TypeTable.covers_pass TypeTable.covers_zero hsize).1
    rw [settle, hpass, ok_bind, TypeTable.settle]
    dsimp only
    split
    · exact ih hsize'
    · rfl

theorem minSizes_eq :
    (minSizes types : Guarded ε (Except Nat (Array Nat))) = .ok types.minSizes := by
  rw [minSizes, settle_eq resolves _ (Array.size_replicate ..)]
  rfl

end

/-! ### Entries -/

/-- The entry of metadata, after the accesses that are made to accept it. -/
def build (network : NetworkId) (m : Metadata) : Guarded Metadata.Fault Entry := do
  if (← fault? m).isNone then discard (minSizes m.types)
  (Entry.build network m).mapError .failure

/-- Metadata is accepted or refused without a violation. -/
theorem build_eq (network : NetworkId) (m : Metadata) :
    build network m = (Entry.build network m).mapError .failure := by
  rw [build, fault?_eq, ok_bind]
  cases hfault : m.fault? with
  | some f => rfl
  | none =>
    have hconsistent := Metadata.fault?_eq_none.1 hfault
    rw [minSizes_eq fun t ht => (hconsistent.types t ht).resolves]
    rfl

end ColdSigner.Checked
