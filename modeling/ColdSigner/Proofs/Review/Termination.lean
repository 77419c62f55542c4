import ColdSigner.Proofs.Review.Parts
import ColdSigner.Proofs.Schema.ShortestValues

/-! Reading ends by itself.

The depth of a reading is limited, but not to make it end. A part of a value stands
behind some bytes of it, or its type has a lower rank: where values have no bytes of
their own, types cannot go round, since then none of them would have a value. So a
payload of `n` bytes nests no deeper than `n + 1` times the number of types
(`agree_readValue`), and of all readers without a limit there is exactly one
(`reading_ends_by_itself`). -/
namespace ColdSigner

namespace TypeTable

variable {types : TypeTable} {id : TypeId} {d : TypeDef}

/-- At most `n` types follow each other in a value before one has bytes of its own. -/
def Grounded (types : TypeTable) : Nat → TypeId → Prop
  | 0, _ => False
  | n + 1, id => ∃ d, types.definition? id = some d ∧
      ∀ parts, d.Shape 0 parts → ∀ t ∈ parts, Grounded types n t

theorem Grounded.succ {n : Nat} (h : Grounded types n id) : Grounded types (n + 1) id := by
  induction n generalizing id with
  | zero => exact h.elim
  | succ n ih =>
    obtain ⟨d, definition, hparts⟩ := h
    exact ⟨d, definition, fun parts shape t ht => ih (hparts parts shape t ht)⟩

/-- A definition with a shape without bytes has no other shape. -/
theorem shape_unique {parts parts' : List TypeId} {head : Nat} (h : d.Shape 0 parts)
    (h' : d.Shape head parts') : parts = parts' := by
  generalize hzero : 0 = bytes at h
  cases h with
  | primitive p => cases p <;> cases hzero
  | array => cases h'; rfl
  | tuple => cases h'; rfl
  | composite => cases h'; rfl
  | compact => cases hzero
  | sequence => cases hzero
  | variant => cases hzero
  | noVariant => cases hzero

/-- A type with a value is grounded, since the value ends. -/
theorem Takes.grounded {n : Nat} (h : Takes types id n) : ∃ k, Grounded types k id := by
  induction h with
  | intro definition shape size each ih =>
    obtain ⟨k, hk⟩ := exists_round (fun _ _ => Grounded.succ) ih
    refine ⟨k + 1, _, definition, fun parts' shape' t ht => hk t ?_⟩
    rwa [← shape_unique shape' shape]

/-- Types that follow each other are different, so there are no more than in the table. -/
theorem Takes.grounded_size {n : Nat} (h : Takes types id n) : Grounded types types.size id := by
  obtain ⟨k, hk⟩ := h.grounded
  refine Rounds.known_after_size (P := Grounded types)
    ⟨?inside, fun n id => Grounded.succ, ?settled⟩ hk
  case inside =>
    intro n id h
    cases n with
    | zero => exact h.elim
    | succ n =>
      obtain ⟨d, definition, -⟩ := h
      exact lt_size_of_definition? definition
  case settled =>
    intro n nothing id h
    obtain ⟨d, definition, hparts⟩ := h
    exact ⟨d, definition, fun parts shape t ht => nothing t (hparts parts shape t ht)⟩

end TypeTable

theorem Entry.grounded (e : Entry) {id : TypeId} {d : TypeDef}
    (definition : e.types.definition? id = some d) : e.types.Grounded e.types.size id :=
  have ⟨_, h⟩ := (TypeTable.least_of_minSizes e.sizes_eq definition).1
  h.grounded_size

/-- The references of a definition of the table lead to definitions. -/
theorem Entry.exists_definition (e : Entry) {id t : TypeId} {d : TypeDef}
    (definition : e.types.definition? id = some d) (mem : t ∈ d.references) :
    ∃ d, e.types.definition? t = some d := by
  obtain ⟨te, type, rfl⟩ := Option.map_eq_some_iff.1 definition
  have consistent := e.consistent.types te (Array.mem_iff_getElem?.2 ⟨_, type⟩)
  have hin : t.toNat < e.types.size := of_decide_eq_true (consistent.resolves t mem)
  refine ⟨_, Option.map_eq_some_iff.2 ⟨_, Array.getElem?_eq_getElem hin, rfl⟩⟩

theorem Cursor.Consumes.remaining_eq {c d : Cursor} {b : Bytes} (h : c.Consumes b d) :
    c.remaining = b.length + d.remaining := by
  rw [c.remaining_eq, d.remaining_eq, h.rest, List.length_append]

namespace Review

variable {e : Entry} {l : Limits} {id : TypeId} {hint : Hint} {indent : Nat} {p : Place}
  {read read' : ReadValue}

/-! ### Levels -/

/-- One level of reading: values whose parts `read` reads. -/
def readLevel (e : Entry) (l : Limits) (read : ReadValue) : ReadValue := fun id hint indent p =>
  match readType e l read id hint indent p with
  | .ok r => .ok r
  | .error f => .error (f.inType id)

/-- So many levels, and below them whatever `deeper` gives. -/
def readWithin (e : Entry) (l : Limits) (deeper : ReadValue) : Nat → ReadValue
  | 0 => deeper
  | n + 1 => readLevel e l (readWithin e l deeper n)

/-- A payload that is one value, read by any reader. -/
def decodeWith (read : ReadValue) (payload : Bytes) (id : TypeId) :
    Except DecodeFailure (List Card) := do
  let (card, p) ← read id .plain 0 ⟨.start payload, false⟩
  if p.cursor.remaining = 0 then return [card] else p.cursor.fail (.trailingBytes p.cursor.remaining)

/-- The limit of the depth is a reader that fails below the last level. -/
theorem readValue_eq_readWithin (n : Nat) :
    readValue e l n = readWithin e l (fun id _ _ p =>
      .error ((⟨.tooDeep, p.cursor.offset, none⟩ : DecodeFailure).inType id)) n := by
  induction n with
  | zero => rfl
  | succ n ih =>
    show readLevel e l (readValue e l n) = _
    rw [ih]
    rfl

/-- The same failure, for any reason but one. -/
def FailsAlike (reason : DecodeReason) (f g : DecodeFailure) : Prop := f = g ∧ f.reason ≠ reason

theorem Agree.eq_of_alike {α : Type} {reason : DecodeReason} {x y : Except DecodeFailure α}
    (h : Agree (FailsAlike reason) x y) : x = y ∧ ∀ f, x = .error f → f.reason ≠ reason := by
  cases h with
  | ok a => exact ⟨rfl, nofun⟩
  | error related =>
    refine ⟨congrArg Except.error related.1, fun f h => ?_⟩
    obtain rfl := Except.error.inj h
    exact related.2

theorem Agree.alike {α : Type} {reason : DecodeReason} {x y : Except DecodeFailure α} (eq : x = y)
    (h : ∀ f, x = .error f → f.reason ≠ reason) : Agree (FailsAlike reason) x y :=
  eq ▸ .of_error fun f hf => ⟨rfl, h f hf⟩

/-- Two levels agree if what is below them agrees on the parts. -/
theorem readLevel_agree {reason : DecodeReason} (own : ∀ f, OwnFailure e id f → f.reason ≠ reason)
    (parts : ∀ t hint indent q, IsPart e id p t q →
      Agree (FailsAlike reason) (read t hint indent q) (read' t hint indent q))
    (advances : ∀ t hint indent, Advances (read' t hint indent)) :
    Agree (FailsAlike reason) (readLevel e l read id hint indent p)
      (readLevel e l read' id hint indent p) := by
  have h : Agree (FailsAlike reason) (readType e l read id hint indent p)
      (readType e l read' id hint indent p) :=
    readType_agree (fun f hf => ⟨rfl, own f hf⟩) parts advances
  unfold readLevel
  generalize readType e l read id hint indent p = x at h ⊢
  generalize readType e l read' id hint indent p = y at h ⊢
  cases h with
  | ok r => exact .ok r
  | error related => exact .error ⟨by rw [related.1], related.2⟩

theorem readLevel_unknown (unknown : e.types.definition? id = none) :
    readLevel e l read id hint indent p = .error ⟨.unknownType, p.cursor.offset, some id⟩ := by
  have type : e.type? id = none := Option.map_eq_none_iff.1 unknown
  simp only [readLevel, readType, Entry.lookup, type]
  rfl

theorem IsPart.remaining_le {t : TypeId} {q : Place} (h : IsPart e id p t q) :
    q.cursor.remaining ≤ p.cursor.remaining := by
  obtain ⟨-, _, b, -, -, consumes, -⟩ := h
  rw [consumes.remaining_eq]
  exact Nat.le_add_left ..

/-- A part is nested in fewer levels: fewer bytes are left, or its type has a lower rank. -/
theorem IsPart.exists_rank {t : TypeId} {q : Place} (h : IsPart e id p t q) {k m : Nat}
    (grounded : e.types.Grounded k id)
    (enough : p.cursor.remaining * e.types.size + k ≤ m + 1) :
    ∃ k, e.types.Grounded k t ∧ q.cursor.remaining * e.types.size + k ≤ m := by
  obtain ⟨-, d, b, definition, mem, consumes, at_once⟩ := h
  obtain ⟨k, rfl⟩ := Nat.exists_eq_succ_of_ne_zero fun hk => (hk ▸ grounded : e.types.Grounded 0 id)
  have hremaining := consumes.remaining_eq
  by_cases hb : b = []
  · obtain ⟨parts, shape, ht⟩ := at_once hb
    obtain ⟨d', definition', hparts⟩ := grounded
    obtain rfl := Option.some.inj (definition.symm.trans definition')
    rw [hb, List.length_nil, Nat.zero_add] at hremaining
    refine ⟨k, hparts parts shape t ht, ?_⟩
    rw [← hremaining]
    omega
  · obtain ⟨_, hd⟩ := e.exists_definition definition mem
    refine ⟨e.types.size, e.grounded hd, ?_⟩
    have hpos := List.length_pos_iff.2 hb
    have hless : (q.cursor.remaining + 1) * e.types.size ≤ p.cursor.remaining * e.types.size :=
      Nat.mul_le_mul_right _ (by omega)
    rw [Nat.add_mul, Nat.one_mul] at hless
    omega

/-- With enough levels it does not matter what is below the last one. -/
theorem agree_of_grounded {F : Nat → ReadValue} (levels : ∀ m, F (m + 1) = readLevel e l (F m))
    {k m : Nat} (grounded : e.types.Grounded k id)
    (enough : p.cursor.remaining * e.types.size + k ≤ m) :
    Agree (FailsAlike .tooDeep) (F m id hint indent p) (readValue e l m id hint indent p) := by
  induction m generalizing k id hint indent p with
  | zero =>
    obtain rfl : k = 0 := by omega
    exact grounded.elim
  | succ m ih =>
    rw [levels]
    show Agree _ _ (readLevel e l (readValue e l m) id hint indent p)
    refine readLevel_agree (fun f own => own.1) (fun t hint indent q part => ?_) advances_readValue
    obtain ⟨k, hk, hless⟩ := part.exists_rank grounded enough
    exact ih hk hless

/-- Enough levels for what is left at some place, and one to notice a type that does not exist. -/
theorem agree_readValue {F : Nat → ReadValue} (levels : ∀ m, F (m + 1) = readLevel e l (F m)) {m : Nat}
    (enough : (p.cursor.remaining + 1) * e.types.size ≤ m) :
    Agree (FailsAlike .tooDeep) (F (m + 1) id hint indent p)
      (readValue e l (m + 1) id hint indent p) := by
  cases definition : e.types.definition? id with
  | none =>
    rw [levels]
    show Agree _ _ (readLevel e l (readValue e l m) id hint indent p)
    rw [readLevel_unknown definition, readLevel_unknown definition]
    exact .error ⟨rfl, nofun⟩
  | some d =>
    rw [Nat.add_mul, Nat.one_mul] at enough
    exact agree_of_grounded levels (e.grounded definition) (by omega)

/-! ### No limit -/

/-- As many levels as can be needed at the place. -/
def readFreely (e : Entry) (l : Limits) : ReadValue := fun id hint indent p =>
  readValue e l ((p.cursor.remaining + 1) * e.types.size + 1) id hint indent p

/-- More levels than are needed give the same. -/
theorem readValue_eq_readFreely {m : Nat} (enough : (p.cursor.remaining + 1) * e.types.size ≤ m) :
    readValue e l (m + 1) id hint indent p = readFreely e l id hint indent p := by
  obtain ⟨j, rfl⟩ := Nat.exists_eq_add_of_le enough
  have h := @agree_readValue e l id hint indent p (fun m => readValue e l (m + j))
    (fun m => by rw [Nat.add_right_comm]; rfl) _ (Nat.le_refl _)
  rw [Nat.add_right_comm]
  exact h.eq_of_alike.1

theorem readFreely_eq_readLevel : readFreely e l = readLevel e l (readFreely e l) := by
  funext id hint indent p
  show readLevel e l (readValue e l _) id hint indent p = _
  cases definition : e.types.definition? id with
  | none => rw [readLevel_unknown definition, readLevel_unknown definition]
  | some d =>
    refine (readLevel_agree (fun f (own : OwnFailure e id f) => own.1)
      (fun t hint indent q part => ?_) fun t hint indent => ?_).eq_of_alike.1
    · obtain ⟨k, hk, hless'⟩ := part.exists_rank (e.grounded definition)
        (m := (p.cursor.remaining + 1) * e.types.size) (by rw [Nat.add_mul]; omega)
      have more := @agree_of_grounded e l t hint indent q (fun m => readValue e l (m + 1))
        (fun _ => rfl) k _ hk hless'
      obtain ⟨same, reason⟩ := more.eq_of_alike
      refine .alike (same.symm.trans (readValue_eq_readFreely ?_)) fun f hf => reason f (same.trans hf)
      exact Nat.mul_le_mul_right _ (Nat.succ_le_succ part.remaining_le)
    · exact fun p c q going h => advances_readValue t hint indent p c q going h

/-- There is one reader that reads the parts of a value by itself. -/
theorem eq_readFreely {read : ReadValue} : read = readLevel e l read ↔ read = readFreely e l := by
  constructor
  · intro h
    funext id hint indent p
    exact (agree_readValue (F := fun _ => read) (fun _ => h) (Nat.le_refl _)).eq_of_alike.1
  · intro h
    rw [h]
    exact readFreely_eq_readLevel

/-- Values of a payload nest no deeper than its length allows, whatever would be read there.
So a limit beyond that is never met, and the outcome is that of the one reader without limit. -/
theorem reading_ends_by_itself (e : Entry) (l : Limits) :
    ∃ free : ReadValue, (∀ read, read = readLevel e l read ↔ read = free) ∧
      ∀ (payload : Bytes) (id : TypeId), let depth := (payload.length + 1) * e.types.size
        (∀ deeper, decodeWith (readWithin e l deeper (depth + 1)) payload id =
          decodeWith free payload id) ∧
        (depth ≤ l.maxDepth →
          decodeValue e l payload id = decodeWith free payload id ∧
          ∀ f, decodeValue e l payload id = .error f → f.reason ≠ .tooDeep) := by
  refine ⟨readFreely e l, fun read => eq_readFreely, fun payload id => ?_⟩
  have hstart : (Cursor.start payload).remaining = payload.length := Nat.sub_zero _
  dsimp only
  rw [← hstart]
  refine ⟨fun deeper => ?_, fun enough => ?_⟩
  · unfold decodeWith
    have h := @agree_readValue e l id .plain 0 ⟨.start payload, false⟩ (readWithin e l deeper)
      (fun _ => rfl) _ (Nat.le_refl _)
    rw [h.eq_of_alike.1]
    rfl
  · have h := @agree_readValue e l id .plain 0 ⟨.start payload, false⟩ (readValue e l)
      (fun _ => rfl) l.maxDepth enough
    constructor
    · unfold decodeValue decodeWith
      rw [readValue_eq_readFreely enough]
    · intro f hf
      rcases bind_eq_error.1 hf with hf | ⟨⟨card, q⟩, -, hf⟩
      · exact h.eq_of_alike.2 f hf
      · dsimp only at hf
        split at hf
        · cases hf
        · exact (untyped_trailing hf).1

def listEntry : Entry where
  network := .fit 32 [8]
  metadata := TypeTable.listMetadata
  minSizes := #[1, 1]
  fault_eq := by decide
  sizes_eq := TypeTable.minSizes_listMetadata

/-- A list of one byte nests to a depth of two, and its length allows eight. -/
theorem list_reading_ends : ([0, 5, 1].length + 1) * listEntry.types.size ≤ 8 ∧
    ∀ f, decodeValue listEntry ⟨8, 0⟩ [0, 5, 1] 0 = .error f → f.reason ≠ .tooDeep := by
  have enough : ([0, 5, 1].length + 1) * listEntry.types.size ≤ 8 := by decide
  obtain ⟨free, -, h⟩ := reading_ends_by_itself listEntry ⟨8, 0⟩
  exact ⟨enough, ((h [0, 5, 1] 0).2 enough).2⟩

end Review

end ColdSigner
