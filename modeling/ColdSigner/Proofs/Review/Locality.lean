import ColdSigner.Proofs.Access.Values
import ColdSigner.Proofs.Review.Exactness

/-! Reading is local.

What a value is read as depends on the bytes of its region, not on where these stand
in the payload. A reader is `Local` when moving its place moves all it answers by the
same distance: the spans of its cards, the place behind it, the offset of a failure.
Readers made of local steps are local, and so is every reader of values. What was
read without an unknown index depends even less on its region: on the bytes that were
taken alone, since by `accepts_readValue` they are the encoding of a value. -/
namespace ColdSigner

/-! ### Moving -/

def Span.moved (n : Nat) (s : Span) : Span := ⟨s.start + n, s.stop + n⟩

mutual

/-- The card and the cards below it, `n` bytes further on. -/
def Card.moved (n : Nat) : Card → Card
  | ⟨kind, value, indent, span, children⟩ =>
    ⟨kind, value, indent, span.moved n, Card.allMoved n children⟩

def Card.allMoved (n : Nat) : List Card → List Card
  | [] => []
  | c :: rest => c.moved n :: Card.allMoved n rest

end

def DecodeFailure.moved (n : Nat) (f : DecodeFailure) : DecodeFailure := { f with offset := f.offset + n }

/-- The same bytes, `n` bytes further on. -/
def Cursor.moved (n : Nat) (c : Cursor) : Cursor :=
  ⟨c.offset + n, c.stop + n, c.rest, by
    have := c.bounded
    omega⟩

def Review.Place.moved (n : Nat) (p : Place) : Place := { p with cursor := p.cursor.moved n }

@[simp] theorem Review.Place.halted_moved (n : Nat) (p : Place) : (p.moved n).halted = p.halted := rfl

/-- The outcome of a reading `n` bytes further on. -/
def outcomeMoved {α β : Type} (n : Nat) (g : α → β) : Except DecodeFailure α → Except DecodeFailure β
  | .ok a => .ok (g a)
  | .error f => .error (f.moved n)

section

variable {α β γ δ : Type} {n : Nat}

@[simp] theorem Card.allMoved_eq (n : Nat) (cards : List Card) :
    Card.allMoved n cards = cards.map (Card.moved n) := by
  induction cards with
  | nil => rw [Card.allMoved, List.map_nil]
  | cons c rest ih => rw [Card.allMoved, ih, List.map_cons]

@[simp] theorem Card.moved_mk (n : Nat) (kind : CardKind) (value : String) (indent : Nat) (span : Span)
    (children : List Card) :
    Card.moved n ⟨kind, value, indent, span, children⟩ =
      ⟨kind, value, indent, span.moved n, children.map (Card.moved n)⟩ := by
  rw [Card.moved, Card.allMoved_eq]

/-- Steps that are moved make a computation that is moved. -/
theorem bind_moved {g : α → β} {g' : γ → δ} {x : Except DecodeFailure α}
    {y : Except DecodeFailure β} {k : α → Except DecodeFailure γ} {k' : β → Except DecodeFailure δ}
    (h : y = outcomeMoved n g x) (rest : ∀ a, k' (g a) = outcomeMoved n g' (k a)) :
    y >>= k' = outcomeMoved n g' (x >>= k) := by
  subst h
  cases x with
  | ok a => exact rest a
  | error f => rfl

end

/-! ### Cursors -/

namespace Cursor

/-- What was read, with the cursor behind it. -/
abbrev readMoved {α : Type} (n : Nat) (r : α × Cursor) : α × Cursor := (r.1, r.2.moved n)

variable (n : Nat) (c : Cursor)

theorem remaining_moved : (c.moved n).remaining = c.remaining := Nat.add_sub_add_right ..

theorem skip_moved (k : Nat) (h : k ≤ c.rest.length) :
    (c.moved n).skip k h = (c.skip k h).moved n :=
  Cursor.ext (Nat.add_right_comm ..) rfl

theorem take_moved (k : Nat) : (c.moved n).take k = outcomeMoved n (readMoved n) (c.take k) := by
  have htake : (c.moved n).take? k = (c.take? k).map (readMoved n) := by
    unfold take?
    by_cases h : k ≤ c.remaining
    · rw [dif_pos h, dif_pos (by rwa [remaining_moved])]
      exact congrArg some (Prod.ext rfl (skip_moved n c k (c.remaining_eq ▸ h)))
    · rw [dif_neg h, dif_neg (by rwa [remaining_moved])]
      rfl
  rw [take, take, htake]
  cases c.take? k with
  | some r => rfl
  | none => rfl

theorem number_moved (k : Nat) : (c.moved n).number k = outcomeMoved n (readMoved n) (c.number k) :=
  bind_moved (take_moved n c k) fun _ => rfl

theorem compact_moved : (c.moved n).compact = c.compact.map (readMoved n) := by
  unfold compact
  split
  · next e h =>
    split
    · next e' h' =>
      obtain rfl := Except.error.inj (h.symm.trans h')
      rfl
    · next h' => cases h.symm.trans h'
  · next v k h =>
    split
    · next h' => cases h.symm.trans h'
    · next v' k' h' =>
      obtain ⟨rfl, rfl⟩ := Prod.mk.inj (Except.ok.inj (h.symm.trans h'))
      exact congrArg Except.ok (Prod.ext rfl (skip_moved n c k (Wire.Compact.used_le h')))

theorem integer_moved : (c.moved n).integer = outcomeMoved n (readMoved n) c.integer := by
  rw [integer, integer, compact_moved]
  cases c.compact with
  | ok r => rfl
  | error e => cases e <;> rfl

theorem count_moved (minSize limit : Nat) :
    (c.moved n).count minSize limit = outcomeMoved n (readMoved n) (c.count minSize limit) := by
  refine bind_moved (integer_moved n c) fun r => ?_
  simp only [remaining_moved]
  by_cases overruns : if minSize = 0 then limit < r.1 else r.2.remaining < r.1 * minSize
  · rw [if_pos overruns, if_pos overruns]
    rfl
  · rw [if_neg overruns, if_neg overruns]
    rfl

theorem takeAll_moved : (c.moved n).takeAll = readMoved n c.takeAll :=
  Prod.ext rfl (skip_moved n c c.rest.length (Nat.le_refl _))

end Cursor

namespace Review

/-! ### Readers -/

/-- A card, with the place behind it. -/
abbrev cardMoved (n : Nat) (r : Card × Place) : Card × Place := (r.1.moved n, r.2.moved n)

/-- A reader that does not ask where its bytes stand. -/
def Local (read : ReadCard) : Prop :=
  ∀ n p, read (p.moved n) = outcomeMoved n (cardMoved n) (read p)

variable {e : Entry} {l : Limits} {indent : Nat} {hint : Hint}

theorem local_readText : Local (readText l indent) := by
  intro n p
  refine bind_moved (p.cursor.count_moved n ..) fun a => ?_
  refine bind_moved (a.2.take_moved n _) fun b => ?_
  dsimp only
  cases b.1.toText? with
  | some s => rfl
  | none => rfl

theorem local_readPrimitive {t : Primitive} : Local (readPrimitive e l t hint indent) := by
  intro n p
  rw [readPrimitive, readPrimitive]
  cases t.width? with
  | none => exact local_readText n p
  | some width =>
    refine bind_moved (p.cursor.take_moved n width) fun a => ?_
    dsimp only
    cases showPrimitive e.specs hint t a.1 with
    | ok shown => rfl
    | error reason => rfl

theorem local_readCompact {inner : TypeId} : Local (readCompact e inner hint indent) := by
  intro n p
  rw [readCompact, readCompact]
  cases e.types.compactTarget? inner with
  | none => rfl
  | some t =>
    refine bind_moved (p.cursor.integer_moved n) fun a => ?_
    dsimp only
    by_cases hlarge : Nat.pow 256 (t.width?.getD 16) ≤ a.1
    · rw [if_pos hlarge, if_pos hlarge]
      rfl
    · rw [if_neg hlarge, if_neg hlarge]
      rfl

theorem readBytes_moved (kind : CardKind) (render : Bytes → String) (k start n : Nat) (p : Place) :
    readBytes kind render k (start + n) indent (p.moved n) =
      outcomeMoved n (cardMoved n) (readBytes kind render k start indent p) :=
  bind_moved (p.cursor.take_moved n k) fun _ => rfl

theorem readInOrder_moved {readers : List ReadCard} (hreaders : ∀ r ∈ readers, Local r) (n : Nat)
    (acc : List Card) (p : Place) :
    readInOrder (acc.map (Card.moved n)) readers (p.moved n) =
      outcomeMoved n (fun r => (r.1.map (Card.moved n), r.2.moved n)) (readInOrder acc readers p) := by
  induction readers generalizing acc p with
  | nil =>
    rw [readInOrder, readInOrder, ← List.map_reverse]
    rfl
  | cons r rest ih =>
    rw [List.forall_mem_cons] at hreaders
    rw [readInOrder, readInOrder, hreaders.1 n p, Place.halted_moved]
    by_cases ended : p.halted = true
    · rw [if_pos ended, if_pos ended, ← List.map_reverse]
      rfl
    · rw [if_neg ended, if_neg ended]
      cases r p with
      | error f => rfl
      | ok a => exact ih hreaders.2 (a.1 :: acc) a.2

theorem readContainer_moved {readers : List ReadCard} (hreaders : ∀ r ∈ readers, Local r)
    (kind : CardKind) (value : String) (indent : Nat) (head : Span) (n : Nat) (p : Place) :
    readContainer kind value indent (head.moved n) readers (p.moved n) =
      outcomeMoved n (cardMoved n) (readContainer kind value indent head readers p) := by
  refine bind_moved (readInOrder_moved hreaders n [] p) fun a => ?_
  exact congrArg (fun c => Except.ok (c, a.2.moved n)) (Card.moved_mk ..).symm

theorem readUnknown_moved (what : String) (index start n : Nat) (p : Place) :
    readUnknown what index (start + n) indent (p.moved n) =
      outcomeMoved n (cardMoved n) (readUnknown what index start indent p) := by
  simp only [readUnknown]
  rw [show (p.moved n).cursor.takeAll = _ from p.cursor.takeAll_moved n]
  rfl

section

variable {read : ReadValue} (hread : ∀ id hint indent, Local (read id hint indent))

include hread

theorem local_readField (hint : Option Hint) (indent : Nat) (f : Field) :
    Local (readField read hint indent f) := by
  intro n p
  rw [readField, readField]
  cases f.name with
  | none => exact hread _ _ _ n p
  | some name => exact bind_moved (hread _ _ _ n p) fun _ => rfl

theorem local_readSequence {inner : TypeId} : Local (readSequence e l read inner indent) := by
  intro n p
  rw [readSequence, readSequence]
  split
  · refine bind_moved (p.cursor.count_moved n ..) fun a => ?_
    exact readBytes_moved .bytes Hex.show0x a.1 p.cursor.offset n { p with cursor := a.2 }
  · refine bind_moved (p.cursor.count_moved n ..) fun a => ?_
    refine readContainer_moved (fun r hr => ?_) .sequence _ indent ⟨p.cursor.offset, a.2.offset⟩ n
      { p with cursor := a.2 }
    obtain rfl := List.eq_of_mem_replicate hr
    exact hread _ _ _

theorem local_readArray {length : UInt32} {inner : TypeId} :
    Local (readArray e l read length inner indent) := by
  intro n p
  rw [readArray, readArray]
  dsimp only
  rw [show (p.moved n).cursor.remaining = p.cursor.remaining from p.cursor.remaining_moved n]
  split
  · exact readBytes_moved .bytes Hex.show0x length.toNat p.cursor.offset n p
  · split
    · rfl
    · split
      · rfl
      · refine readContainer_moved (fun r hr => ?_) .sequence _ indent
          ⟨p.cursor.offset, p.cursor.offset⟩ n p
        obtain rfl := List.eq_of_mem_replicate hr
        exact hread _ _ _

theorem local_readVariant {name : String} {variants : List Variant} :
    Local (readVariant read name variants hint indent) := by
  intro n p
  refine bind_moved (p.cursor.number_moved n 1) fun a => ?_
  dsimp only
  cases variants.find? (·.index.toNat == a.1) with
  | none => exact readUnknown_moved _ a.1 p.cursor.offset n { p with cursor := a.2 }
  | some v =>
    refine readContainer_moved (fun r hr => ?_) _ v.name indent ⟨p.cursor.offset, a.2.offset⟩ n
      { p with cursor := a.2 }
    obtain ⟨f, -, rfl⟩ := List.mem_map.1 hr
    exact local_readField hread _ _ f

theorem local_readDefinition {name : String} {d : TypeDef} :
    Local (readDefinition e l read name d hint indent) := by
  intro n p
  have container {kind : CardKind} {readers : List ReadCard} (hreaders : ∀ r ∈ readers, Local r) :=
    readContainer_moved hreaders kind name indent ⟨p.cursor.offset, p.cursor.offset⟩ n p
  cases d with
  | primitive t => exact local_readPrimitive n p
  | compact inner => exact local_readCompact n p
  | sequence inner => exact local_readSequence hread n p
  | array length inner => exact local_readArray hread n p
  | tuple types =>
    refine container fun r hr => ?_
    obtain ⟨t, -, rfl⟩ := List.mem_map.1 hr
    exact hread _ _ _
  | composite fields =>
    refine container fun r hr => ?_
    obtain ⟨f, -, rfl⟩ := List.mem_map.1 hr
    exact local_readField hread _ _ f
  | variant variants => exact local_readVariant hread n p

theorem local_readType {id : TypeId} : Local (readType e l read id hint indent) := by
  intro n p
  rw [readType, readType, Entry.lookup]
  cases e.type? id with
  | none => rfl
  | some t =>
    dsimp only
    split
    · exact readBytes_moved .id _ 32 p.cursor.offset n p
    · split
      · exact readBytes_moved .hash _ 32 p.cursor.offset n p
      · exact local_readDefinition hread n p

end

theorem local_readValue (e : Entry) (l : Limits) (levels : Nat) (id : TypeId) (hint : Hint)
    (indent : Nat) : Local (readValue e l levels id hint indent) := by
  induction levels generalizing id hint indent with
  | zero => exact fun n p => rfl
  | succ levels ih =>
    intro n p
    rw [readValue, readValue, local_readType ih n p]
    cases readType e l (readValue e l levels) id hint indent p with
    | ok r => rfl
    | error f => rfl

/-! ### Regions -/

variable {id : TypeId} {levels : Nat}

/-- A region is its bytes, moved to where they stand. -/
theorem region_eq_moved {payload : Bytes} {first stop : Nat} (ordered : first ≤ stop)
    (inside : stop ≤ payload.length) :
    Cursor.region payload first stop = (Cursor.start ((payload.take stop).drop first)).moved first := by
  have hstop : min stop payload.length = stop := Nat.min_eq_left inside
  refine Cursor.ext ?_ ?_
  · show min first (min stop payload.length) = 0 + first
    rw [hstop, Nat.min_eq_left ordered, Nat.zero_add]
  · show (payload.take (min stop payload.length)).drop (min first (min stop payload.length)) = _
    rw [hstop, Nat.min_eq_left ordered]
    rfl

/-- The place behind the first bytes of a region. -/
theorem region_consumes {payload taken : Bytes} {first stop : Nat} (ordered : first ≤ stop)
    (inside : stop ≤ payload.length) {c : Cursor}
    (h : (Cursor.start ((payload.take stop).drop first)).Consumes taken c) :
    c.moved first = .region payload (first + taken.length) stop := by
  have hslice : (payload.take stop).drop first = taken ++ c.rest := h.rest
  have hlength := congrArg List.length hslice
  rw [List.length_drop, List.length_take, List.length_append, Nat.min_eq_left inside] at hlength
  rw [region_eq_moved (by omega : first + taken.length ≤ stop) inside]
  refine Cursor.ext ?_ ?_
  · show c.offset + first = 0 + (first + taken.length)
    rw [h.offset]
    show 0 + taken.length + first = _
    omega
  · show c.rest = (payload.take stop).drop (first + taken.length)
    rw [← List.drop_drop, hslice, List.drop_left]

/-- Reading a region is reading its bytes, moved to where they stand. -/
theorem readValue_region {payload : Bytes} {first stop : Nat} (ordered : first ≤ stop)
    (inside : stop ≤ payload.length) :
    readValue e l levels id hint indent ⟨.region payload first stop, false⟩ =
      outcomeMoved first (cardMoved first) (readValue e l levels id hint indent
        ⟨.start ((payload.take stop).drop first), false⟩) := by
  rw [region_eq_moved ordered inside]
  exact local_readValue e l levels id hint indent first ⟨.start _, false⟩

/-- A reader that has the whole payload before it, and keeps positions in it, reads a region
as one that has nothing but the bytes of the region. -/
theorem follows_readValue_region {payload : Bytes} {first stop : Nat} (ordered : first ≤ stop)
    (inside : stop ≤ payload.length) :
    ∃ w, (Checked.Window.region payload first stop : Checked.Guarded DecodeFailure _) = .ok w ∧
      Checked.FollowsIn payload (Checked.SameCard payload)
        (Checked.readValue e l levels id hint indent ⟨w, false⟩)
        (outcomeMoved first (cardMoved first) (readValue e l levels id hint indent
          ⟨.start ((payload.take stop).drop first), false⟩)) := by
  obtain ⟨w, hw, shows⟩ := @Checked.Window.exists_region DecodeFailure payload first stop
  refine ⟨w, hw, ?_⟩
  rw [← readValue_region ordered inside]
  exact Checked.safe_readValue levels id hint indent ⟨w, false⟩ ⟨_, false⟩ ⟨shows, rfl⟩

/-- A value is read from every region that its encoding stands at the front of. -/
theorem readValue_region_of_prefix {payload : Bytes} {first stop : Nat} {v : Datum}
    (ordered : first ≤ stop) (inside : stop ≤ payload.length) (hv : v.Accepted e l levels id)
    (h : v.encode <+: (payload.take stop).drop first) (hint : Hint) (indent : Nat) :
    readValue e l levels id hint indent ⟨.region payload first stop, false⟩ =
      .ok ((v.card e id hint indent 0).moved first,
        ⟨.region payload (first + v.encode.length) stop, false⟩) := by
  obtain ⟨behind, hbehind⟩ := h
  obtain ⟨d, hd, -⟩ := Cursor.exists_consumes (c := .start _) hbehind.symm
  have hread := (accepts_readValue e l levels id hint indent ⟨.start _, false⟩ ⟨d, false⟩ _ rfl rfl).2
    ⟨v, hv, hd, rfl⟩
  rw [readValue_region ordered inside, hread, ← region_consumes ordered inside hd]
  rfl

/-- Values are read alike wherever they stand, and whatever stands behind them; a reader that
could look into all of the payload reads them so too. -/
theorem value_decoding_is_local (e : Entry) (l : Limits) (levels : Nat) (id : TypeId) (hint : Hint)
    (indent : Nat) (payload : Bytes) (first stop : Nat) (ordered : first ≤ stop)
    (inside : stop ≤ payload.length) :
    readValue e l levels id hint indent ⟨.region payload first stop, false⟩ =
        outcomeMoved first (cardMoved first) (readValue e l levels id hint indent
          ⟨.start ((payload.take stop).drop first), false⟩) ∧
      (∃ w, (Checked.Window.region payload first stop : Checked.Guarded DecodeFailure _) = .ok w ∧
        Checked.FollowsIn payload (Checked.SameCard payload)
          (Checked.readValue e l levels id hint indent ⟨w, false⟩)
          (outcomeMoved first (cardMoved first) (readValue e l levels id hint indent
            ⟨.start ((payload.take stop).drop first), false⟩))) ∧
      ∀ card q, readValue e l levels id hint indent ⟨.region payload first stop, false⟩ =
          .ok (card, q) → q.halted = false →
        ∃ (c : Card) (taken : Bytes), card = c.moved first ∧
          q.cursor = .region payload (first + taken.length) stop ∧
          taken <+: (payload.take stop).drop first ∧
          ∀ (payload' : Bytes) (first' stop' : Nat), first' ≤ stop' → stop' ≤ payload'.length →
            taken <+: (payload'.take stop').drop first' →
            readValue e l levels id hint indent ⟨.region payload' first' stop', false⟩ =
              .ok (c.moved first', ⟨.region payload' (first' + taken.length) stop', false⟩) := by
  refine ⟨readValue_region ordered inside, follows_readValue_region ordered inside,
    fun card q hread goes => ?_⟩
  obtain ⟨v, hv, hb, -⟩ := (accepts_readValue e l levels id hint indent _ q card rfl goes).1 hread
  have front : v.encode <+: (payload.take stop).drop first := by
    have hrest := hb.rest
    rw [region_eq_moved ordered inside] at hrest
    exact ⟨_, hrest.symm⟩
  have own := readValue_region_of_prefix ordered inside hv front hint indent
  obtain ⟨rfl, rfl⟩ := Prod.mk.inj (Except.ok.inj (hread.symm.trans own))
  exact ⟨_, _, rfl, rfl, front, fun payload' first' stop' ordered' inside' front' =>
    readValue_region_of_prefix ordered' inside' hv front' hint indent⟩

/-- A call in the middle of some bytes is read as it is alone, and in front of others. -/
theorem sample_decoding_is_local :
    readValue sampleEntry {} 2 1 .plain 0 ⟨.region [9, 0, 5, 7] 1 3, false⟩ =
        outcomeMoved 1 (cardMoved 1) (readValue sampleEntry {} 2 1 .plain 0 ⟨.start [0, 5], false⟩) ∧
      ∃ c : Card, readValue sampleEntry {} 2 1 .plain 0 ⟨.region [0, 5, 7] 0 3, false⟩ =
        .ok (c.moved 0, ⟨.region [0, 5, 7] 2 3, false⟩) := by
  obtain ⟨moved, -, again⟩ := value_decoding_is_local sampleEntry {} 2 1 .plain 0 [9, 0, 5, 7] 1 3
    (by decide) (by decide)
  refine ⟨moved, ?_⟩
  obtain ⟨c, taken, -, behind, front, again⟩ := again _ ⟨.region [9, 0, 5, 7] 3 3, false⟩ rfl rfl
  have hlength : 2 ≤ taken.length := by
    have hoffset : 3 = min (1 + taken.length) 3 := congrArg Cursor.offset behind
    omega
  obtain rfl : taken = [0, 5] := front.eq_of_length_le hlength
  exact ⟨c, again [0, 5, 7] 0 3 (by decide) (by decide) ⟨[7], rfl⟩⟩

end Review

end ColdSigner
