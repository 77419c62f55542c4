import ColdSigner.Proofs.Schema.LeastSize

/-! The passes over a type table.

`minSizes_eq_ok` is the statement that the passes end with the least sizes. No size that
is found is too small, since each comes from a value (`Sizes.Sound`). None is too large,
since each pass settles the sizes of one more round of types (`Sizes.Covers`), and as many
rounds as there are types are enough. What the passes leave is stable: another one would
change nothing (`pass_sizes`). -/
namespace ColdSigner.TypeTable

variable {types : TypeTable} {id : TypeId} {d : TypeDef} {head : Nat} {parts : List TypeId}

/-! ### One size from others -/

/-- The size found so far, zero if there is none. -/
def Sizes.found (sizes : Sizes) (id : TypeId) : Nat := (sizes.getD id.toNat none).getD 0

def Sizes.Has (sizes : Sizes) (id : TypeId) : Prop := (sizes.getD id.toNat none).isSome = true

theorem Sizes.getD_eq_some {sizes : Sizes} {s : Nat} :
    sizes.getD id.toNat none = some s ↔ sizes.Has id ∧ sizes.found id = s := by
  unfold Has found
  cases sizes.getD id.toNat none <;> simp

theorem foldlM_total {sizes : Sizes} {acc s : Nat} (hacc : acc ≤ maxSize) :
    parts.foldlM (fun acc t => (sizes.getD t.toNat none).map fun s => min (acc + s) maxSize) acc =
        some s ↔
      (∀ t ∈ parts, sizes.Has t) ∧ s = min (acc + (parts.map sizes.found).sum) maxSize := by
  induction parts generalizing acc with
  | nil =>
    simp only [List.foldlM_nil, List.map_nil, List.sum_nil, Nat.add_zero, Nat.min_eq_left hacc]
    simp [eq_comm]
  | cons t parts ih =>
    rw [List.foldlM_cons, List.forall_mem_cons, List.map_cons, List.sum_cons]
    cases ht : sizes.getD t.toNat none with
    | none => simp [Sizes.Has, ht]
    | some n =>
      have hhas : sizes.Has t := by simp [Sizes.Has, ht]
      have hfound : sizes.found t = n := by simp [Sizes.found, ht]
      rw [Option.map_some, Option.bind_eq_bind, Option.bind_some, ih (Nat.min_le_right ..), hfound]
      simp only [hhas, true_and]
      refine and_congr_right fun _ => ?_
      omega

theorem total?_eq_some {sizes : Sizes} {s : Nat} :
    total? sizes parts = some s ↔
      (∀ t ∈ parts, sizes.Has t) ∧ s = min (parts.map sizes.found).sum maxSize := by
  have h := @foldlM_total parts sizes 0 s (Nat.zero_le _)
  rwa [Nat.zero_add] at h

/-- A size of a definition comes from one of its shapes. -/
theorem exists_shape_of_sizeOf? {sizes : Sizes} {s : Nat} (h : sizeOf? sizes d = some s) :
    ∃ head parts, d.Shape head parts ∧ (∀ t ∈ parts, sizes.Has t) ∧
      s = min (head + (parts.map sizes.found).sum) maxSize := by
  have hmax : maxSize = 18446744073709551615 := rfl
  cases d with
  | primitive p =>
    obtain rfl := Option.some.inj h
    refine ⟨_, [], .primitive p, by simp, ?_⟩
    cases p <;> rfl
  | compact t =>
    obtain rfl := Option.some.inj h
    exact ⟨1, [], .compact t, by simp, rfl⟩
  | sequence t =>
    obtain rfl := Option.some.inj h
    exact ⟨1, [], .sequence t, by simp, rfl⟩
  | array length t =>
    refine ⟨0, _, .array length t, ?_⟩
    rw [sizeOf?] at h
    split at h
    · next hzero =>
      obtain rfl := Option.some.inj h
      subst hzero
      exact ⟨by simp, rfl⟩
    · obtain ⟨n, hn, rfl⟩ := Option.map_eq_some_iff.1 h
      obtain ⟨hhas, rfl⟩ := Sizes.getD_eq_some.1 hn
      refine ⟨fun u hu => List.eq_of_mem_replicate hu ▸ hhas, ?_⟩
      rw [List.map_replicate, List.sum_replicate_nat, Nat.mul_comm, Nat.zero_add]
  | tuple ts =>
    obtain ⟨hhas, rfl⟩ := total?_eq_some.1 h
    exact ⟨0, _, .tuple ts, hhas, by rw [Nat.zero_add]⟩
  | composite fields =>
    obtain ⟨hhas, rfl⟩ := total?_eq_some.1 h
    exact ⟨0, _, .composite fields, hhas, by rw [Nat.zero_add]⟩
  | variant variants =>
    rw [sizeOf?] at h
    split at h
    · next hnone =>
      obtain rfl := Option.some.inj h
      obtain rfl := List.isEmpty_iff.1 hnone
      exact ⟨1, [], .noVariant, by simp, rfl⟩
    · obtain ⟨n, hn, rfl⟩ := Option.map_eq_some_iff.1 h
      obtain ⟨v, hv, hsize⟩ := List.mem_filterMap.1 (List.min?_mem hn)
      obtain ⟨hhas, rfl⟩ := total?_eq_some.1 hsize
      exact ⟨1, _, .variant hv, hhas, by omega⟩

/-- Each shape of a definition whose parts have sizes bounds the size of the definition. -/
theorem sizeOf?_le_of_shape {sizes : Sizes} (shape : d.Shape head parts)
    (has : ∀ t ∈ parts, sizes.Has t) :
    ∃ s, sizeOf? sizes d = some s ∧ s ≤ head + (parts.map sizes.found).sum := by
  cases shape with
  | primitive p => exact ⟨_, rfl, Nat.le_add_right ..⟩
  | compact t => exact ⟨_, rfl, Nat.le_refl _⟩
  | sequence t => exact ⟨_, rfl, Nat.le_refl _⟩
  | array length t =>
    rw [sizeOf?]
    split
    · exact ⟨0, rfl, Nat.zero_le _⟩
    · next hpos =>
      have hlength : length.toNat ≠ 0 := fun h => hpos (UInt32.toNat_inj.1 h)
      have hhas := has t (List.mem_replicate.2 ⟨hlength, rfl⟩)
      refine ⟨_, Option.map_eq_some_iff.2 ⟨_, Sizes.getD_eq_some.2 ⟨hhas, rfl⟩, rfl⟩, ?_⟩
      rw [List.map_replicate, List.sum_replicate_nat, Nat.zero_add, Nat.mul_comm]
      exact Nat.min_le_left ..
  | tuple => exact ⟨_, total?_eq_some.2 ⟨has, rfl⟩, by omega⟩
  | composite => exact ⟨_, total?_eq_some.2 ⟨has, rfl⟩, by omega⟩
  | @variant v variants declared =>
    have hmem : min ((v.fields.map (·.type)).map sizes.found).sum maxSize ∈
        variants.filterMap fun v => total? sizes (v.fields.map (·.type)) :=
      List.mem_filterMap.2 ⟨v, declared, total?_eq_some.2 ⟨has, rfl⟩⟩
    have hne : ¬ variants.isEmpty = true := by
      cases variants with
      | nil => cases declared
      | cons => exact Bool.false_ne_true
    rw [sizeOf?, if_neg hne]
    obtain ⟨n, hn⟩ := Option.isSome_iff_exists.1 (List.isSome_min?_of_mem hmem)
    refine ⟨_, Option.map_eq_some_iff.2 ⟨n, hn, rfl⟩, ?_⟩
    have := (List.min?_eq_some_iff.1 hn).2 _ hmem
    omega
  | noVariant => exact ⟨1, rfl, Nat.le_refl _⟩

/-! ### Passes -/

/-- A type takes the size of its definition, where that has one, and others keep theirs. -/
theorem getD_updateSize {state : Sizes × Bool} (hsize : state.1.size = types.size) {i j : Nat} :
    (types.updateSize state i).1.getD j none =
      if j = i then
        ((types[i]?.bind fun t => sizeOf? state.1 t.definition).or (state.1.getD i none))
      else state.1.getD j none := by
  have stays : state.1.getD j none =
      if j = i then state.1.getD i none else state.1.getD j none := by
    by_cases hj : j = i
    · rw [if_pos hj, hj]
    · rw [if_neg hj]
  cases ht : types[i]? with
  | none =>
    simp only [updateSize, ht]
    exact stays
  | some t =>
    have hi : i < state.1.size := hsize ▸ (Array.getElem?_eq_some_iff.1 ht).1
    simp only [updateSize, ht, Option.bind_some]
    cases hs : sizeOf? state.1 t.definition with
    | none =>
      rw [if_neg fun h => Bool.false_ne_true h.1, Option.none_or]
      exact stays
    | some s =>
      rw [Option.some_or]
      by_cases hsame : some s = state.1.getD i none
      · rw [if_neg fun h => h.2 hsame, hsame]
        exact stays
      · rw [if_pos ⟨rfl, hsame⟩, Array.getD_eq_getD_getElem?, Array.getElem?_setIfInBounds]
        by_cases hj : j = i
        · rw [if_pos hj, if_pos hj.symm, if_pos hi]
          rfl
        · rw [if_neg hj, if_neg (Ne.symm hj), Array.getD_eq_getD_getElem?]

theorem size_updateSize {state : Sizes × Bool} {i : Nat} :
    (types.updateSize state i).1.size = state.1.size := by
  unfold updateSize
  split
  · rfl
  · dsimp only
    split
    · exact Array.size_setIfInBounds
    · rfl

/-- What is found is the number of bytes of a value, as far as it can be counted. -/
def Sizes.Sound (types : TypeTable) (sizes : Sizes) : Prop :=
  ∀ i s, sizes.getD i none = some s →
    ∃ t n, types[i]? = some t ∧ t.definition.Spans types n ∧ s = min n maxSize

/-- What round `n` settles is found, and is no larger than it must be. -/
def Sizes.Covers (types : TypeTable) (sizes : Sizes) (n : Nat) : Prop :=
  ∀ id, Settled types n id → ∃ s, sizes.getD id.toNat none = some s ∧ s ≤ types.least id

/-- Counting the parts with a limit changes nothing of their sum with that limit. -/
theorem min_add_sum {f g : TypeId → Nat} {m : Nat} (h : ∀ t ∈ parts, f t = min (g t) m) (n : Nat) :
    min (n + (parts.map f).sum) m = min (n + (parts.map g).sum) m := by
  induction parts generalizing n with
  | nil => rfl
  | cons t parts ih =>
    rw [List.forall_mem_cons] at h
    have hrest := ih h.2 (n + f t)
    simp only [List.map_cons, List.sum_cons, ← Nat.add_assoc]
    rw [hrest, h.1]
    omega

namespace Sizes

variable {sizes : Sizes} {state : Sizes × Bool}

theorem Sound.takes (h : sizes.Sound types) {s : Nat} (hs : sizes.getD id.toNat none = some s) :
    ∃ n, Takes types id n ∧ s = min n maxSize := by
  obtain ⟨t, n, type, spans, hn⟩ := h _ s hs
  exact ⟨n, takes_iff.2 ⟨_, Option.map_eq_some_iff.2 ⟨t, type, rfl⟩, spans⟩, hn⟩

theorem Sound.of_sizeOf? (h : sizes.Sound types) {s : Nat} (hs : sizeOf? sizes d = some s) :
    ∃ n, d.Spans types n ∧ s = min n maxSize := by
  obtain ⟨head, parts, shape, has, rfl⟩ := exists_shape_of_sizeOf? hs
  choose! size each hsize using fun t (ht : t ∈ parts) =>
    h.takes (getD_eq_some.2 ⟨has t ht, rfl⟩)
  exact ⟨_, ⟨_, _, size, shape, each, rfl⟩, min_add_sum hsize head⟩

theorem Covers.of_sizeOf? {n : Nat} (h : sizes.Covers types n) (settled : Settled types (n + 1) id) :
    ∃ d s, types.definition? id = some d ∧ sizeOf? sizes d = some s ∧ s ≤ types.least id := by
  obtain ⟨d, head, parts, definition, shape, hparts, hle⟩ := settled
  have hfound (t : TypeId) (ht : t ∈ parts) : sizes.Has t ∧ sizes.found t ≤ types.least t := by
    obtain ⟨s, hs, hle⟩ := h t (hparts t ht)
    obtain ⟨has, rfl⟩ := getD_eq_some.1 hs
    exact ⟨has, hle⟩
  obtain ⟨s, hs, hbound⟩ := sizeOf?_le_of_shape shape fun t ht => (hfound t ht).1
  have hsum := sum_le_sum fun t ht => (hfound t ht).2
  exact ⟨d, s, definition, hs, by omega⟩

end Sizes

/-- What stands at the place of a type after its update. -/
theorem getD_updateSize_self {state : Sizes × Bool} (hsize : state.1.size = types.size)
    (definition : types.definition? id = some d) :
    (types.updateSize state id.toNat).1.getD id.toNat none =
      (sizeOf? state.1 d).or (state.1.getD id.toNat none) := by
  obtain ⟨t, ht, rfl⟩ := Option.map_eq_some_iff.1 definition
  rw [getD_updateSize hsize, if_pos rfl, ht, Option.bind_some]

theorem Sizes.Sound.updateSize {state : Sizes × Bool} (h : state.1.Sound types)
    (hsize : state.1.size = types.size) (i : Nat) : (types.updateSize state i).1.Sound types := by
  intro j s hs
  rw [getD_updateSize hsize] at hs
  split at hs
  · next hij =>
    subst hij
    rw [Option.or_eq_some_iff, Option.bind_eq_some_iff] at hs
    rcases hs with ⟨t, type, hs⟩ | ⟨-, hs⟩
    · obtain ⟨n, spans, hn⟩ := h.of_sizeOf? hs
      exact ⟨t, n, type, spans, hn⟩
    · exact h j s hs
  · exact h j s hs

/-- A pass over the first types settles these for one more round, and the others as before. -/
theorem covers_foldl (state : Sizes × Bool) {n : Nat} (h : state.1.Covers types n)
    (hsize : state.1.size = types.size) (m : Nat) :
    let after := ((List.range m).foldl (updateSize types) state).1
    after.size = types.size ∧ after.Covers types n ∧
      ∀ id : TypeId, id.toNat < m → Settled types (n + 1) id →
        ∃ s, after.getD id.toNat none = some s ∧ s ≤ types.least id := by
  induction m with
  | zero => exact ⟨hsize, h, fun id hid => absurd hid (Nat.not_lt_zero _)⟩
  | succ m ih =>
    obtain ⟨hsize', hold, hnew⟩ := ih
    rw [List.range_succ, List.foldl_append, List.foldl_cons, List.foldl_nil]
    set before := (List.range m).foldl (updateSize types) state
    have hself (id : TypeId) (hid : id.toNat = m) (settled : Settled types (n + 1) id) :
        ∃ s, (types.updateSize before m).1.getD id.toNat none = some s ∧ s ≤ types.least id := by
      subst hid
      obtain ⟨d, s, definition, hs, hle⟩ := hold.of_sizeOf? settled
      exact ⟨s, by rw [getD_updateSize_self hsize' definition, hs, Option.some_or], hle⟩
    refine ⟨size_updateSize.trans hsize', fun id settled => ?_, fun id hid settled => ?_⟩
    · by_cases hm : id.toNat = m
      · exact hself id hm settled.succ
      · rw [getD_updateSize hsize', if_neg hm]
        exact hold id settled
    · by_cases hm : id.toNat = m
      · exact hself id hm settled
      · rw [getD_updateSize hsize', if_neg hm]
        exact hnew id (by omega) settled

theorem covers_pass {sizes : Sizes} {n : Nat} (h : sizes.Covers types n)
    (hsize : sizes.size = types.size) :
    (types.pass sizes).1.size = types.size ∧ (types.pass sizes).1.Covers types (n + 1) := by
  obtain ⟨hsize', -, hnew⟩ := covers_foldl (sizes, false) h hsize types.size
  refine ⟨hsize', fun id settled => hnew id ?_ settled⟩
  obtain ⟨d, -, -, hd, -⟩ := settled
  exact lt_size_of_definition? hd

/-- An update that changes nothing says so. -/
theorem updateSize_unchanged {state : Sizes × Bool} {i : Nat}
    (h : (types.updateSize state i).2 = false) : types.updateSize state i = state := by
  unfold updateSize at h ⊢
  split
  · rfl
  · dsimp only at h ⊢
    split
    · simp_all
    · rfl

theorem foldl_updateSize_of_unchanged {is : List Nat} {state : Sizes × Bool}
    (h : ∀ i ∈ is, types.updateSize state i = state) : is.foldl (updateSize types) state = state := by
  induction is with
  | nil => rfl
  | cons i is ih =>
    rw [List.forall_mem_cons] at h
    rw [List.foldl_cons, h.1, ih h.2]

theorem foldl_updateSize_unchanged (is : List Nat) (state : Sizes × Bool)
    (h : (is.foldl (updateSize types) state).2 = false) :
    ∀ i ∈ is, types.updateSize state i = state := by
  induction is generalizing state with
  | nil => simp
  | cons i is ih =>
    have hrest := ih _ h
    rw [List.foldl_cons, foldl_updateSize_of_unchanged hrest] at h
    have hfirst := updateSize_unchanged h
    rw [hfirst] at hrest
    exact List.forall_mem_cons.2 ⟨hfirst, hrest⟩

theorem pass_unchanged {sizes : Sizes} (h : (types.pass sizes).2 = false) :
    types.pass sizes = (sizes, false) :=
  foldl_updateSize_of_unchanged (foldl_updateSize_unchanged _ _ h)

/-- Sizes that a pass leaves as they are cover all rounds. -/
theorem covers_of_unchanged {sizes : Sizes} {n : Nat} (h : sizes.Covers types n)
    (hsize : sizes.size = types.size) (unchanged : (types.pass sizes).2 = false) (m : Nat) :
    sizes.Covers types (n + m) := by
  induction m with
  | zero => exact h
  | succ m ih =>
    have hpass := (covers_pass ih hsize).2
    rwa [pass_unchanged unchanged] at hpass

theorem covers_settle {sizes : Sizes} {n : Nat} (h : sizes.Covers types n)
    (hsize : sizes.size = types.size) (m : Nat) :
    (types.settle m sizes).Covers types (n + m) := by
  induction m generalizing sizes n with
  | zero => exact h
  | succ m ih =>
    have hpass := covers_pass h hsize
    unfold settle
    dsimp only
    split
    · have hrest := ih hpass.2 hpass.1
      rwa [Nat.add_assoc, Nat.add_comm 1 m] at hrest
    · next hunchanged =>
      have hfalse : (types.pass sizes).2 = false := by simpa using hunchanged
      rw [pass_unchanged hfalse]
      exact covers_of_unchanged h hsize hfalse (m + 1)

theorem sound_foldl (state : Sizes × Bool) (h : state.1.Sound types)
    (hsize : state.1.size = types.size) (is : List Nat) :
    let after := (is.foldl (updateSize types) state).1
    after.Sound types ∧ after.size = types.size := by
  induction is generalizing state with
  | nil => exact ⟨h, hsize⟩
  | cons i is ih => exact ih _ (h.updateSize hsize i) (size_updateSize.trans hsize)

theorem sound_settle {sizes : Sizes} (h : sizes.Sound types) (hsize : sizes.size = types.size)
    (m : Nat) : (types.settle m sizes).Sound types ∧ (types.settle m sizes).size = types.size := by
  induction m generalizing sizes with
  | zero => exact ⟨h, hsize⟩
  | succ m ih =>
    have hpass := sound_foldl (sizes, false) h hsize (List.range types.size)
    unfold settle
    dsimp only
    split
    · exact ih hpass.1 hpass.2
    · exact hpass

/-! ### Sizes that stay

A definition has one size from sizes that are neither too small nor too large. So a pass
over such sizes leaves every place with the size of its definition, also the places that
no reference can name. -/

/-- No update changes anything. -/
def Sizes.Stable (types : TypeTable) (sizes : Sizes) : Prop :=
  ∀ i t s, types[i]? = some t → sizeOf? sizes t.definition = some s → sizes.getD i none = some s

theorem pass_of_stable {sizes : Sizes} (h : sizes.Stable types) :
    types.pass sizes = (sizes, false) := by
  refine foldl_updateSize_of_unchanged fun i _ => ?_
  unfold updateSize
  split
  · rfl
  · next t type =>
    dsimp only
    refine if_neg fun hnew => hnew.2 ?_
    obtain ⟨_, hs⟩ := Option.isSome_iff_exists.1 hnew.1
    rw [hs, h i t _ type hs]

theorem stable_of_pass {sizes : Sizes} (h : types.pass sizes = (sizes, false))
    (hsize : sizes.size = types.size) : sizes.Stable types := by
  intro i t s type hs
  have hi : i ∈ List.range types.size :=
    List.mem_range.2 (Array.getElem?_eq_some_iff.1 type).1
  have hsame := foldl_updateSize_unchanged _ (sizes, false) (congrArg Prod.snd h) i hi
  have hget := @getD_updateSize types (sizes, false) hsize i i
  rw [hsame, if_pos rfl, type, Option.bind_some, hs, Option.some_or] at hget
  exact hget

/-- The size of a definition from sizes that are neither too small nor too large. -/
theorem sizeOf?_eq_some {sizes : Sizes} {s : Nat} (sound : sizes.Sound types)
    (covers : sizes.Covers types types.size) :
    sizeOf? sizes d = some s ↔ (∃ n, d.Spans types n) ∧ s = min (d.least types) maxSize := by
  -- Every value of the definition bounds its size.
  have hbound (n : Nat) (hn : d.Spans types n) : ∃ s, sizeOf? sizes d = some s ∧ s ≤ n := by
    obtain ⟨head, parts, size, shape, each, rfl⟩ := hn
    have hfound (t : TypeId) (ht : t ∈ parts) : sizes.Has t ∧ sizes.found t ≤ size t := by
      obtain ⟨s, hs, hle⟩ := covers t (each t ht).settled_size
      obtain ⟨has, rfl⟩ := Sizes.getD_eq_some.1 hs
      exact ⟨has, hle.trans (each t ht).least_le⟩
    obtain ⟨s, hs, hle⟩ := sizeOf?_le_of_shape shape fun t ht => (hfound t ht).1
    have hsum := sum_le_sum fun t ht => (hfound t ht).2
    exact ⟨s, hs, by omega⟩
  constructor
  · intro h
    obtain ⟨n, hn, rfl⟩ := sound.of_sizeOf? h
    refine ⟨⟨n, hn⟩, ?_⟩
    obtain ⟨s, hs, hle⟩ := hbound _ (Nat.sInf_mem (s := {n | d.Spans types n}) ⟨n, hn⟩)
    obtain rfl := Option.some.inj (h.symm.trans hs)
    have hleast : d.least types ≤ n := Nat.sInf_le hn
    unfold TypeDef.least at hleast ⊢
    omega
  · rintro ⟨⟨n, hn⟩, rfl⟩
    obtain ⟨s, hs, hle⟩ := hbound _ (Nat.sInf_mem (s := {n | d.Spans types n}) ⟨n, hn⟩)
    obtain ⟨m, hm, rfl⟩ := sound.of_sizeOf? hs
    have hleast : d.least types ≤ m := Nat.sInf_le hm
    rw [hs]
    unfold TypeDef.least at hleast ⊢
    congr 1
    omega

theorem sizeOf?_congr {a b : Sizes} (ha : a.Sound types) (ha' : a.Covers types types.size)
    (hb : b.Sound types) (hb' : b.Covers types types.size) : sizeOf? a d = sizeOf? b d :=
  Option.ext fun _ => (sizeOf?_eq_some ha ha').trans (sizeOf?_eq_some hb hb').symm

theorem stable_pass {sizes : Sizes} (sound : sizes.Sound types)
    (covers : sizes.Covers types types.size) (hsize : sizes.size = types.size) :
    (types.pass sizes).1.Stable types := by
  have hfirst (m : Nat) : ∀ i t s, i < m → types[i]? = some t → sizeOf? sizes t.definition = some s →
      ((List.range m).foldl (updateSize types) (sizes, false)).1.getD i none = some s := by
    induction m with
    | zero => exact fun i t s hi => absurd hi (Nat.not_lt_zero _)
    | succ m ih =>
      intro i t s hi type hs
      obtain ⟨hsound, hsize'⟩ := sound_foldl (sizes, false) sound hsize (List.range m)
      have hcovers := (covers_foldl (sizes, false) covers hsize m).2.1
      rw [List.range_succ, List.foldl_append, List.foldl_cons, List.foldl_nil,
        getD_updateSize hsize']
      by_cases him : i = m
      · subst him
        rw [if_pos rfl, type, Option.bind_some, sizeOf?_congr hsound hcovers sound covers, hs,
          Option.some_or]
      · rw [if_neg him]
        exact ih i t s (by omega) type hs
  intro i t s type hs
  have hsound := (sound_foldl (sizes, false) sound hsize (List.range types.size)).1
  have hcovers := (covers_foldl (sizes, false) covers hsize types.size).2.1
  refine hfirst types.size i t s (Array.getElem?_eq_some_iff.1 type).1 type ?_
  rw [← hs]
  exact sizeOf?_congr sound covers hsound hcovers

/-- One pass more than there are types is enough. -/
theorem stable_settle {sizes : Sizes} {n m : Nat} (sound : sizes.Sound types)
    (covers : sizes.Covers types n) (hsize : sizes.size = types.size) (enough : types.size ≤ n + m) :
    (types.settle (m + 1) sizes).Stable types := by
  induction m generalizing sizes n with
  | zero =>
    have hpass := stable_pass sound (fun id h => covers id (h.mono enough)) hsize
    simpa [settle] using hpass
  | succ m ih =>
    have hsound := sound_foldl (sizes, false) sound hsize (List.range types.size)
    unfold settle
    dsimp only
    split
    · exact ih hsound.1 (covers_pass covers hsize).2 hsound.2 (by omega)
    · next unchanged =>
      have hpass : types.pass sizes = (sizes, false) := pass_unchanged (by simpa using unchanged)
      rw [hpass]
      exact stable_of_pass hpass hsize

/-! ### The sizes of a table -/

/-- Where nothing is found, nothing is wrong. -/
theorem sound_replicate (n : Nat) : Sizes.Sound types (Array.replicate n none) := by
  intro i s hs
  rw [Array.getD_eq_getD_getElem?, Array.getElem?_replicate] at hs
  split at hs <;> cases hs

theorem sizes_sound : types.sizes.Sound types ∧ types.sizes.size = types.size := by
  exact sound_settle (sound_replicate _) (Array.size_replicate ..) _

theorem covers_zero {sizes : Sizes} : sizes.Covers types 0 := by
  intro id h
  exact h.elim

theorem sizes_covers : types.sizes.Covers types types.size := by
  have hcovers : types.sizes.Covers types (0 + (2 * types.size + 2)) :=
    covers_settle covers_zero (Array.size_replicate ..) _
  exact fun id h => hcovers id (h.mono (by omega))

theorem sizes_stable : types.sizes.Stable types := by
  exact stable_settle (sound_replicate _) covers_zero (Array.size_replicate ..)
    (Nat.zero_add (2 * types.size + 1) ▸ by omega)

/-- Another pass over the sizes changes nothing. -/
theorem pass_sizes : types.pass types.sizes = (types.sizes, false) :=
  pass_of_stable sizes_stable

/-- Every place holds the least size of its definition, where that has values. -/
theorem getD_sizes {i s : Nat} {t : TypeEntry} (type : types[i]? = some t) :
    types.sizes.getD i none = some s ↔
      (∃ n, t.definition.Spans types n) ∧ s = min (t.definition.least types) maxSize := by
  rw [← sizeOf?_eq_some sizes_sound.1 sizes_covers]
  constructor
  · intro h
    obtain ⟨t', n, type', spans, -⟩ := sizes_sound.1 i s h
    obtain rfl := Option.some.inj (type.symm.trans type')
    have hs := (sizeOf?_eq_some sizes_sound.1 sizes_covers).2 ⟨⟨n, spans⟩, rfl⟩
    rw [hs, ← h, sizes_stable i t _ type hs]
  · exact sizes_stable i t s type

/-- Sizes are found exactly when every definition has a value, and are the least ones. -/
theorem minSizes_eq_ok {found : Array Nat} :
    types.minSizes = .ok found ↔
      (∀ t ∈ types, ∃ n, t.definition.Spans types n) ∧
        found = types.map fun t => min (t.definition.least types) maxSize := by
  have hplace (i : Nat) (t : TypeEntry) (type : types[i]? = some t) :
      types.sizes[i]? = some (types.sizes.getD i none) := by
    have hi : i < types.sizes.size :=
      sizes_sound.2.symm ▸ (Array.getElem?_eq_some_iff.1 type).1
    rw [Array.getD_eq_getD_getElem?, Array.getElem?_eq_getElem hi, Option.getD_some]
  -- Every definition has a value exactly when no place is left without a size.
  have hall : (∀ t ∈ types, ∃ n, t.definition.Spans types n) ↔
      types.sizes.findIdx? (·.isNone) = none := by
    rw [Array.findIdx?_eq_none_iff]
    constructor
    · intro h s hs
      obtain ⟨i, hi⟩ := Array.mem_iff_getElem?.1 hs
      have hin : i < types.size := sizes_sound.2 ▸ (Array.getElem?_eq_some_iff.1 hi).1
      have type := Array.getElem?_eq_getElem hin
      have hsize := (getD_sizes type).2 ⟨h _ (Array.getElem_mem hin), rfl⟩
      rw [hplace i _ type, hsize] at hi
      rw [← Option.some.inj hi, Option.isNone_some]
    · intro h t ht
      obtain ⟨i, type⟩ := Array.mem_iff_getElem?.1 ht
      have hsome := h _ (Array.mem_iff_getElem?.2 ⟨i, hplace i t type⟩)
      obtain ⟨s, hs⟩ := Option.isSome_iff_exists.1 (Option.isNone_eq_false_iff.1 hsome)
      exact ((getD_sizes type).1 hs).1
  have hfound (h : ∀ t ∈ types, ∃ n, t.definition.Spans types n) :
      types.sizes.map (·.getD 0) = types.map fun t => min (t.definition.least types) maxSize := by
    refine Array.ext_getElem? fun i => ?_
    rw [Array.getElem?_map, Array.getElem?_map]
    cases type : types[i]? with
    | none =>
      rw [Array.getElem?_eq_none (sizes_sound.2.symm ▸ Array.getElem?_eq_none_iff.1 type)]
      rfl
    | some t =>
      have hsize := (getD_sizes type).2 ⟨h t (Array.mem_iff_getElem?.2 ⟨i, type⟩), rfl⟩
      rw [hplace i t type, hsize]
      rfl
  unfold minSizes
  constructor
  · intro h
    split at h
    · cases h
    · next hnone =>
      have hvalues := hall.2 hnone
      exact ⟨hvalues, (Except.ok.inj h).symm.trans (hfound hvalues)⟩
  · intro h
    obtain ⟨hvalues, rfl⟩ := h
    rw [hall.1 hvalues, ← hfound hvalues]

/-- Where sizes are found, every type has a value, and its size is the least. -/
theorem least_of_minSizes {found : Array Nat} (h : types.minSizes = .ok found)
    (definition : types.definition? id = some d) :
    (∃ n, Takes types id n) ∧ found.getD id.toNat 0 = min (types.least id) maxSize := by
  obtain ⟨hvalues, rfl⟩ := minSizes_eq_ok.1 h
  obtain ⟨t, type, rfl⟩ := Option.map_eq_some_iff.1 definition
  constructor
  · obtain ⟨n, hn⟩ := hvalues t (Array.mem_iff_getElem?.2 ⟨_, type⟩)
    exact ⟨n, (takes_of_definition definition).2 hn⟩
  · rw [Array.getD_eq_getD_getElem?, Array.getElem?_map, type, least_of_definition definition]
    rfl

end ColdSigner.TypeTable
