import ColdSigner.Proofs.Review.LengthCheck

/-! Larger limits.

Limits say how deep values may be nested, and how many parts without bytes they may
have. They decide whether a payload is accepted, not what it shows: larger limits accept
all that smaller ones do, with the same cards. A value is compared level by level, by
the shape of its type; a limit on parts stands in front of an opening and nowhere else. -/
namespace ColdSigner.Review

/-- Limits that allow no more than others do. -/
structure Limits.Within (l l' : Limits) : Prop where
  depth : l.maxDepth ≤ l'.maxDepth
  length : l.maxSequenceLength ≤ l'.maxSequenceLength

variable {e : Entry} {l l' : Limits} {indent : Nat} {id : TypeId} {hint : Hint}

/-- A reader that accepts what another does, with the same card. -/
abbrev Extends (r s : ReadCard) : Prop := Refines (fun _ => True) r s

theorem Extends.inOrder {r s : ReadValue}
    (hreads : ∀ id hint indent, Extends (r id hint indent) (s id hint indent)) {fields : List Field}
    {hint : Option Hint} {p q : Place} {cards : List Card}
    (h : InOrder (fields.map (readField r hint indent)) p cards q) :
    InOrder (fields.map (readField s hint indent)) p cards q :=
  Refines.inOrder (fun _ _ _ => ⟨trivial, trivial, trivial⟩) hreads h trivial

/-- What a type accepts within limits it accepts within larger ones, if this holds of its parts. -/
theorem extends_readType (within : l.Within l') {r s : ReadValue}
    (hreads : ∀ id hint indent, Extends (r id hint indent) (s id hint indent)) :
    Extends (readType e l r id hint indent) (readType e l' s id hint indent) := by
  intro p c q going h _
  cases typeShape e id hint indent with
  | never _ fails => exact absurd h (fails l r p (c, q))
  | leaf _ _ _ reads => exact (reads l' s p c q).2 ((reads l r p c q).1 h)
  | branch _ _ reads =>
    refine (reads l' s p c q going).2 (((reads l r p c q going).1 h).imp_left fun h => ?_)
    obtain ⟨o, d, children, ⟨head, count, admits, few, rfl⟩, hd, hneed, hparts, rfl⟩ := h
    refine ⟨_, d, children, ⟨head, count, admits, ?_, rfl⟩, hd, hneed, Extends.inOrder hreads hparts,
      rfl⟩
    exact fun hhead hempty => (few hhead hempty).trans within.length

/-- More levels and larger limits accept at least as much. -/
theorem extends_readValue (within : l.Within l') {n m : Nat} (h : n ≤ m) (id : TypeId) (hint : Hint)
    (indent : Nat) : Extends (readValue e l n id hint indent) (readValue e l' m id hint indent) := by
  induction n generalizing m id hint indent with
  | zero =>
    intro p c q _ hr
    simp [readValue] at hr
  | succ n ih =>
    cases m with
    | zero => exact absurd h (Nat.not_succ_le_zero n)
    | succ m =>
      intro p c q going hr hc
      rw [readValue_succ_eq_ok] at hr ⊢
      exact extends_readType within (ih (Nat.le_of_succ_le_succ h)) p c q going hr hc

theorem ReadsCall.within (within : l.Within l') {start : Nat} {c : Cursor} {card : Card}
    (h : ReadsCall e l start c card) : ReadsCall e l' start c card := by
  cases h with
  | known first selected reads callable done =>
    have hreads := extends_readValue within within.depth _ _ _ _ _ _ rfl reads trivial
    exact .known first selected hreads callable done
  | unknown first uncallable => exact .unknown first uncallable

theorem readTransaction_within (within : l.Within l') {payload : Bytes} {scheme : Scheme}
    {source : MetadataSource} {review : Review}
    (h : readTransaction payload scheme source l = .ok review) :
    readTransaction payload scheme source l' = .ok review := by
  simp only [readTransaction, bind_eq_ok, Prod.exists] at h ⊢
  obtain ⟨f, hf, n, c, hcount, x, hx, h⟩ := h
  refine ⟨f, hf, n, c, hcount, x, hx, ?_⟩
  split at h
  · next m hm => cases m <;> cases h
  · next e he =>
    simp only [bind_eq_ok] at h ⊢
    obtain ⟨_, hscheme, h⟩ := h
    refine ⟨_, hscheme, ?_⟩
    split at h
    · cases h
    · next hgenesis =>
      obtain ⟨card, hcard, h⟩ := bind_eq_ok.1 h
      rw [if_neg hgenesis]
      exact bind_eq_ok.2 ⟨card, readCall_eq_ok.2 ((readCall_eq_ok.1 hcard).within within), h⟩

/-- Within larger limits values and requests are accepted as they are within smaller ones. -/
theorem accepted_within_larger_limits (l l' : Limits) (within : l.Within l') :
    (∀ (e : Entry) (payload : Bytes) (id : TypeId) (cards : List Card),
      decodeValue e l payload id = .ok cards → decodeValue e l' payload id = .ok cards) ∧
    ∀ (payload : Bytes) (source : MetadataSource) (review : Review),
      decodeRequest payload source l = .ok review → decodeRequest payload source l' = .ok review := by
  constructor
  · intro e payload id cards h
    simp only [decodeValue, bind_eq_ok, Prod.exists] at h ⊢
    obtain ⟨c, q, hr, h⟩ := h
    exact ⟨c, q, extends_readValue within (Nat.succ_le_succ within.depth) _ _ _ _ _ _ rfl hr trivial, h⟩
  · intro payload source review h
    obtain ⟨p, hp, h⟩ := decodeRequest_eq_ok.1 h
    refine decodeRequest_eq_ok.2 ⟨p, hp, ?_⟩
    exact h.imp_left fun h => ⟨h.1, readTransaction_within within h.2⟩

set_option maxRecDepth 4096 in
/-- Two levels are enough for the sample transaction, and more change nothing. -/
theorem sample_within_larger_limits :
    Limits.Within ⟨2, 0⟩ {} ∧
      decodeRequest sampleTransaction.encode sampleRegistry.source ⟨2, 0⟩ =
        .ok sampleTransaction.review ∧
      decodeRequest sampleTransaction.encode sampleRegistry.source {} =
        .ok sampleTransaction.review := by
  have within : Limits.Within ⟨2, 0⟩ {} := ⟨by decide, by decide⟩
  have accepted : decodeRequest sampleTransaction.encode sampleRegistry.source ⟨2, 0⟩ =
      .ok sampleTransaction.review := by
    rfl
  exact ⟨within, accepted, (accepted_within_larger_limits _ _ within).2 _ _ _ accepted⟩

end ColdSigner.Review
