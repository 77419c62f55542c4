import ColdSigner.Proofs.Review.Coverage
import ColdSigner.Proofs.Schema.Datum

/-! What the reading of a type asks for.

A type is read by reading its own bytes and asking for its parts. `readType_agree` says
which parts these can be, and that the outcome depends on nothing but the answers: two
ways to read parts that agree on them give outcomes that agree. Whether outcomes are
to be equal, or to fail for certain reasons only, is left to a relation between
failures. What holds of all depths is then proved by induction on the depth, with one
step for all types. -/
namespace ColdSigner.Review

/-! ### Outcomes that agree -/

/-- The same result, or failures that are related. -/
inductive Agree (E : DecodeFailure → DecodeFailure → Prop) {α : Type} :
    Except DecodeFailure α → Except DecodeFailure α → Prop where
  | ok (a : α) : Agree E (.ok a) (.ok a)
  | error {f g : DecodeFailure} (related : E f g) : Agree E (.error f) (.error g)

namespace Agree

variable {E : DecodeFailure → DecodeFailure → Prop} {α β : Type}

theorem of_error {x : Except DecodeFailure α} (h : ∀ f, x = .error f → E f f) : Agree E x x := by
  cases x with
  | error f => exact .error (h f rfl)
  | ok a => exact .ok a

theorem bind {x y : Except DecodeFailure α} {k k' : α → Except DecodeFailure β} (h : Agree E x y)
    (rest : ∀ a, y = .ok a → Agree E (k a) (k' a)) : Agree E (x >>= k) (y >>= k') := by
  cases h with
  | ok a => exact rest a rfl
  | error related => exact .error related

end Agree

/-! ### Failures that say nothing of types

A reader that asks for no parts fails because of the bytes it finds. -/

/-- Neither types that are nested too deep, nor one that does not exist. -/
def Untyped (f : DecodeFailure) : Prop := f.reason ≠ .tooDeep ∧ f.reason ≠ .unknownType

section

variable {c : Cursor} {p : Place} {f : DecodeFailure} {α : Type}

theorem untyped_fail {reason : DecodeReason} (h : (c.fail reason : Except DecodeFailure α) = .error f)
    (known : reason ≠ .tooDeep ∧ reason ≠ .unknownType) : Untyped f := by
  obtain rfl := Except.error.inj h
  exact known

theorem untyped_trailing {count : Nat}
    (h : (c.fail (.trailingBytes count) : Except DecodeFailure α) = .error f) : Untyped f :=
  untyped_fail h ⟨DecodeReason.noConfusion, DecodeReason.noConfusion⟩

theorem untyped_take {n : Nat} (h : c.take n = .error f) : Untyped f := by
  unfold Cursor.take at h
  split at h
  · cases h
  · exact untyped_fail h (by decide)

theorem untyped_number {n : Nat} (h : c.number n = .error f) : Untyped f := by
  rcases bind_eq_error.1 h with h | ⟨_, -, h⟩
  · exact untyped_take h
  · cases h

theorem untyped_integer (h : c.integer = .error f) : Untyped f := by
  unfold Cursor.integer at h
  split at h
  · cases h
  · exact untyped_fail h (by decide)
  · exact untyped_fail h (by decide)

theorem untyped_ite {P : Prop} [Decidable P] {reason : DecodeReason} {a : α}
    (h : (if P then c.fail reason else pure a) = .error f)
    (known : reason ≠ .tooDeep ∧ reason ≠ .unknownType) : Untyped f := by
  split at h
  · exact untyped_fail h known
  · cases h

theorem untyped_count {size limit : Nat} (h : c.count size limit = .error f) : Untyped f := by
  rcases bind_eq_error.1 h with h | ⟨⟨n, next⟩, -, h⟩
  · exact untyped_integer h
  · exact untyped_ite h ⟨nofun, nofun⟩

theorem untyped_readText {l : Limits} {indent : Nat} (h : readText l indent p = .error f) :
    Untyped f := by
  rcases bind_eq_error.1 h with h | ⟨⟨n, c⟩, -, h⟩
  · exact untyped_count h
  rcases bind_eq_error.1 h with h | ⟨⟨b, next⟩, -, h⟩
  · exact untyped_take h
  dsimp only at h
  split at h
  · cases h
  · exact untyped_fail h (by decide)

theorem showPrimitive_error {specs : NetworkSpecs} {hint : Hint} {t : Primitive} {b : Bytes}
    {reason : DecodeReason} (h : showPrimitive specs hint t b = .error reason) :
    reason ≠ .tooDeep ∧ reason ≠ .unknownType := by
  unfold showPrimitive at h
  split at h
  · split at h
    · cases h
    · cases h
    · obtain rfl := Except.error.inj h
      exact ⟨nofun, nofun⟩
  · split at h
    · cases h
    · obtain rfl := Except.error.inj h
      exact ⟨nofun, nofun⟩
  · split at h
    · cases h
    · cases h

theorem untyped_readPrimitive {e : Entry} {l : Limits} {t : Primitive} {hint : Hint} {indent : Nat}
    (h : readPrimitive e l t hint indent p = .error f) : Untyped f := by
  unfold readPrimitive at h
  split at h
  · exact untyped_readText h
  · rcases bind_eq_error.1 h with h | ⟨⟨b, next⟩, -, h⟩
    · exact untyped_take h
    · dsimp only at h
      split at h
      · cases h
      · next reason hreason => exact untyped_fail h (showPrimitive_error hreason)

/-- A compact form fails because of its bytes, unless no integer stands behind it. -/
theorem readCompact_error {e : Entry} {inner : TypeId} {hint : Hint} {indent : Nat}
    (h : readCompact e inner hint indent p = .error f) :
    Untyped f ∨ f.reason = .unknownType ∧ e.types.compactTarget? inner = none := by
  unfold readCompact at h
  split at h
  · next target =>
    obtain rfl := Except.error.inj h
    exact .inr ⟨rfl, target⟩
  · rcases bind_eq_error.1 h with h | ⟨⟨v, next⟩, -, h⟩
    · exact .inl (untyped_integer h)
    · exact .inl (untyped_ite h (by decide))

theorem untyped_readBytes {kind : CardKind} {render : Bytes → String} {n start indent : Nat}
    (h : readBytes kind render n start indent p = .error f) : Untyped f := by
  rcases bind_eq_error.1 h with h | ⟨_, -, h⟩
  · exact untyped_take h
  · cases h

end

/-! ### Parts -/

/-- A type at some place has a part there: the bytes between are its own and those of
earlier parts. Where there are none, the part is one of a value without bytes of its own. -/
structure IsPart (e : Entry) (id : TypeId) (p : Place) (t : TypeId) (q : Place) : Prop where
  going : q.halted = false
  reached : ∃ d b, e.types.definition? id = some d ∧ t ∈ d.references ∧
    p.cursor.Consumes b q.cursor ∧ (b = [] → ∃ parts, d.Shape 0 parts ∧ t ∈ parts)

/-- A type does not fail by itself: it is in the table, and so is the integer of a compact form. -/
def Resolves (e : Entry) (id : TypeId) : Prop :=
  ∃ d, e.types.definition? id = some d ∧
    ∀ t, d = .compact t → (e.types.compactTarget? t).isSome = true

/-- What the reading of a type can fail with before it asks for a part. -/
def OwnFailure (e : Entry) (id : TypeId) (f : DecodeFailure) : Prop :=
  f.reason ≠ .tooDeep ∧ (f.reason = .unknownType → ¬ Resolves e id)

theorem Untyped.own {f : DecodeFailure} (h : Untyped f) (e : Entry) (id : TypeId) :
    OwnFailure e id f :=
  ⟨h.1, fun unknown => absurd unknown h.2⟩

/-- A reader that moves forward. -/
def Advances (read : ReadCard) : Prop :=
  ∀ p c q, p.halted = false → read p = .ok (c, q) → ∃ b, p.cursor.Consumes b q.cursor

theorem advances_readValue {e : Entry} {l : Limits} {n : Nat} (id : TypeId) (hint : Hint)
    (indent : Nat) : Advances (readValue e l n id hint indent) :=
  fun p c q going h => ((valueReader e l n id hint indent).lays p c q going h).1

section

variable {E : DecodeFailure → DecodeFailure → Prop} {p : Place} {read read' : ReadValue}

/-- Readers in turn agree if each agrees wherever it can start. -/
theorem readInOrder_agree {α : Type} {xs : List α} {r r' : α → ReadCard} {acc : List Card}
    (each : ∀ x ∈ xs, ∀ q b, q.halted = false → p.cursor.Consumes b q.cursor →
      Agree E (r x q) (r' x q))
    (advances : ∀ x ∈ xs, Advances (r' x)) :
    Agree E (readInOrder acc (xs.map r) p) (readInOrder acc (xs.map r') p) := by
  induction xs generalizing acc p with
  | nil => exact .ok _
  | cons x xs ih =>
    rw [List.forall_mem_cons] at each advances
    rw [List.map_cons, List.map_cons, readInOrder, readInOrder]
    by_cases hp : p.halted = true
    · rw [if_pos hp, if_pos hp]
      exact .ok _
    · have going : p.halted = false := by simpa using hp
      have hx := each.1 p [] going (.refl _)
      rw [if_neg hp, if_neg hp]
      generalize r x p = y at hx ⊢
      generalize hy : r' x p = y' at hx ⊢
      cases hx with
      | error related => exact .error related
      | ok s =>
        obtain ⟨c, s⟩ := s
        obtain ⟨a, ha⟩ := advances.1 p c s going hy
        exact ih (fun x hx q b hq hb => each.2 x hx q (a ++ b) hq (ha.trans hb)) advances.2

theorem readContainer_agree {α : Type} {xs : List α} {r r' : α → ReadCard} {kind : CardKind}
    {value : String} {indent : Nat} {head : Span}
    (each : ∀ x ∈ xs, ∀ q b, q.halted = false → p.cursor.Consumes b q.cursor →
      Agree E (r x q) (r' x q))
    (advances : ∀ x ∈ xs, Advances (r' x)) :
    Agree E (readContainer kind value indent head (xs.map r) p)
      (readContainer kind value indent head (xs.map r') p) :=
  (readInOrder_agree each advances).bind fun _ _ => .ok _

theorem readField_agree {f : Field} {hint : Option Hint} {indent : Nat}
    (h : ∀ hint indent, Agree E (read f.type hint indent p) (read' f.type hint indent p)) :
    Agree E (readField read hint indent f p) (readField read' hint indent f p) := by
  unfold readField
  cases f.name with
  | none => exact h _ _
  | some name => exact (h _ _).bind fun _ _ => .ok _

theorem advances_readField (advances : ∀ t hint indent, Advances (read t hint indent))
    (hint : Option Hint) (indent : Nat) (f : Field) : Advances (readField read hint indent f) := by
  intro p c q going h
  unfold readField at h
  cases hname : f.name with
  | none =>
    rw [hname] at h
    exact advances _ _ _ p c q going h
  | some name =>
    rw [hname] at h
    obtain ⟨⟨value, s⟩, hread, h⟩ := bind_eq_ok.1 h
    obtain ⟨rfl, rfl⟩ := Prod.mk.inj (pure_eq_ok.1 h)
    exact advances _ _ _ p value s going hread

end

/-! ### Reading a type -/

section

variable {E : DecodeFailure → DecodeFailure → Prop} {e : Entry} {l : Limits} {id : TypeId}
  {p : Place} {read read' : ReadValue}

/-- A sequence agrees with itself if its elements do. -/
theorem readSequence_agree {inner : TypeId} {indent : Nat}
    (own : ∀ f, Untyped f → E f f)
    (each : ∀ hint indent q b, q.halted = false → b ≠ [] → p.cursor.Consumes b q.cursor →
      Agree E (read inner hint indent q) (read' inner hint indent q))
    (advances : ∀ hint indent, Advances (read' inner hint indent)) :
    Agree E (readSequence e l read inner indent p) (readSequence e l read' inner indent p) := by
  unfold readSequence
  split
  · refine .of_error fun f h => own f ?_
    rcases bind_eq_error.1 h with h | ⟨⟨n, c⟩, -, h⟩
    · exact untyped_count h
    · exact untyped_readBytes h
  · refine (Agree.of_error fun f h => own f (untyped_count h)).bind fun r hr => ?_
    obtain ⟨n, c⟩ := r
    obtain ⟨-, hc, -⟩ := Cursor.count_eq_ok.1 hr
    dsimp only
    rw [replicate_eq_map, replicate_eq_map n (read' inner .plain _)]
    refine readContainer_agree (fun _ _ q b hq hb => ?_) fun _ _ => advances _ _
    refine each _ _ q _ hq ?_ (hc.trans hb)
    exact List.append_ne_nil_of_left_ne_nil (Wire.Compact.encode_ne_nil n) b

/-- An array agrees with itself if its elements do, where it has any. -/
theorem readArray_agree {length : UInt32} {inner : TypeId} {indent : Nat}
    (own : ∀ f, Untyped f → E f f)
    (each : length.toNat ≠ 0 → ∀ hint indent q b, q.halted = false → p.cursor.Consumes b q.cursor →
      Agree E (read inner hint indent q) (read' inner hint indent q))
    (advances : ∀ hint indent, Advances (read' inner hint indent)) :
    Agree E (readArray e l read length inner indent p)
      (readArray e l read' length inner indent p) := by
  unfold readArray
  dsimp only
  split
  · exact .of_error fun f h => own f (untyped_readBytes h)
  · split
    · exact .of_error fun f h => own f (untyped_fail h ⟨nofun, nofun⟩)
    · split
      · exact .of_error fun f h => own f (untyped_fail h (by decide))
      · rw [replicate_eq_map, replicate_eq_map _ (read' inner .plain _)]
        exact readContainer_agree (fun x hx q b => each (List.mem_replicate.1 hx).1 _ _ q b)
          fun _ _ => advances _ _

/-- A variant agrees with itself if the parts of each of its variants do. -/
theorem readVariant_agree {name : String} {variants : List Variant} {hint : Hint} {indent : Nat}
    (own : ∀ f, Untyped f → E f f)
    (each : ∀ v ∈ variants, ∀ f ∈ v.fields, ∀ hint indent q b, q.halted = false → b ≠ [] →
      p.cursor.Consumes b q.cursor →
      Agree E (read f.type hint indent q) (read' f.type hint indent q))
    (advances : ∀ t hint indent, Advances (read' t hint indent)) :
    Agree E (readVariant read name variants hint indent p)
      (readVariant read' name variants hint indent p) := by
  unfold readVariant
  refine (Agree.of_error fun f h => own f (untyped_number h)).bind fun r hr => ?_
  obtain ⟨index, c⟩ := r
  obtain ⟨a, ha, -, hc⟩ := Cursor.number_eq_ok.1 hr
  dsimp only
  split
  · exact .ok _
  · next v hv =>
    have mem := List.mem_of_find?_eq_some hv
    refine readContainer_agree (fun f hf q b hq hb => readField_agree fun hint indent => ?_)
      fun f _ => advances_readField advances _ _ f
    refine each v mem f hf hint indent q (a ++ b) hq ?_ (hc.trans hb)
    exact List.append_ne_nil_of_left_ne_nil (List.ne_nil_of_length_eq_add_one ha) b

/-- The outcome of reading a type depends on the answers to what it asks for, and on nothing
else. Failures of its own are related to themselves. -/
theorem readType_agree {hint : Hint} {indent : Nat} (own : ∀ f, OwnFailure e id f → E f f)
    (parts : ∀ t hint indent q, IsPart e id p t q →
      Agree E (read t hint indent q) (read' t hint indent q))
    (advances : ∀ t hint indent, Advances (read' t hint indent)) :
    Agree E (readType e l read id hint indent p) (readType e l read' id hint indent p) := by
  have untyped (f : DecodeFailure) (h : Untyped f) : E f f := own f (h.own e id)
  unfold readType Entry.lookup
  cases type : e.type? id with
  | none =>
    refine .error (own _ ⟨nofun, fun _ resolves => ?_⟩)
    obtain ⟨d, definition, -⟩ := resolves
    rw [TypeTable.definition?, show e.types[id.toNat]? = none from type] at definition
    cases definition
  | some te =>
    have definition := Entry.definition?_of_type? type
    -- A part behind bytes of the value is always asked for.
    have behind {t : TypeId} (mem : t ∈ te.definition.references) (hint : Hint) (indent : Nat)
        (q : Place) (b : Bytes) (hq : q.halted = false) (hb : b ≠ [])
        (consumes : p.cursor.Consumes b q.cursor) :
        Agree E (read t hint indent q) (read' t hint indent q) :=
      parts t hint indent q ⟨hq, _, b, definition, mem, consumes, fun h => absurd h hb⟩
    -- A part of a value without bytes of its own may follow at once.
    have at_once {t : TypeId} {ts : List TypeId} (shape : te.definition.Shape 0 ts) (ht : t ∈ ts)
        (mem : t ∈ te.definition.references) (hint : Hint) (indent : Nat) (q : Place) (b : Bytes)
        (hq : q.halted = false) (consumes : p.cursor.Consumes b q.cursor) :
        Agree E (read t hint indent q) (read' t hint indent q) :=
      parts t hint indent q ⟨hq, _, b, definition, mem, consumes, fun _ => ⟨ts, shape, ht⟩⟩
    dsimp only
    split
    · exact .of_error fun f h => untyped f (untyped_readBytes h)
    · split
      · exact .of_error fun f h => untyped f (untyped_readBytes h)
      · unfold readDefinition
        dsimp only
        cases hd : te.definition with
        | primitive t => exact .of_error fun f h => untyped f (untyped_readPrimitive h)
        | compact inner =>
          refine .of_error fun f h => ?_
          rcases readCompact_error h with h | ⟨hreason, target⟩
          · exact untyped f h
          · refine own f ⟨by simp [hreason], fun _ resolves => ?_⟩
            obtain ⟨d, definition', integer⟩ := resolves
            obtain rfl := Option.some.inj (definition.symm.trans definition')
            simpa [target] using integer inner hd
        | sequence inner =>
          refine readSequence_agree untyped ?_ (advances inner)
          exact behind (by rw [hd]; exact List.mem_singleton.2 rfl)
        | array length inner =>
          refine readArray_agree untyped (fun hlength => ?_) (advances inner)
          exact at_once (hd ▸ .array length inner) (List.mem_replicate.2 ⟨hlength, rfl⟩)
            (by rw [hd]; exact List.mem_singleton.2 rfl)
        | tuple ts =>
          refine readContainer_agree (fun t ht q b => ?_) fun t _ => advances t _ _
          exact at_once (hd ▸ .tuple ts) ht (hd ▸ ht) _ _ q b
        | composite fields =>
          refine readContainer_agree (fun f hf q b hq hb => readField_agree fun hint indent => ?_)
            fun f _ => advances_readField advances _ _ f
          have mem : f.type ∈ fields.map (·.type) := List.mem_map_of_mem hf
          exact at_once (hd ▸ .composite fields) mem (hd ▸ mem) hint indent q b hq hb
        | variant variants =>
          refine readVariant_agree untyped (fun v hv f hf => behind ?_) advances
          rw [hd]
          exact List.mem_flatMap.2 ⟨v, hv, List.mem_map_of_mem hf⟩

end

end ColdSigner.Review
