import ColdSigner.Proofs.Review.Message
import ColdSigner.Proofs.Review.Transaction

/-! No byte is hidden.

The cards of a payload show all of its bytes, in order and without gap, and stand
one indent deeper than the cards above them: those of a single value, and those of
a request of any kind. A reader that succeeds lays its card over the bytes that it
takes; this is kept by every shape that a reader has. -/
namespace ColdSigner.Review

/-- A reader whose card shows what it takes. -/
def Lays (indent : Nat) (read : ReadCard) : Prop :=
  ∀ p c q, p.halted = false → read p = .ok (c, q) →
    (∃ b, p.cursor.Consumes b q.cursor) ∧ Laid indent p.cursor.offset q.cursor.offset [c]

/-- The cards of readers in turn show what they take together. -/
theorem InOrder.laid {indent : Nat} {readers : List ReadCard} {p q : Place} {cards : List Card}
    (h : InOrder readers p cards q) (hreaders : ∀ r ∈ readers, Lays indent r) :
    (∃ b, p.cursor.Consumes b q.cursor) ∧ Laid indent p.cursor.offset q.cursor.offset cards := by
  induction h with
  | done p => exact ⟨⟨[], .refl _⟩, .nil⟩
  | halted => exact ⟨⟨[], .refl _⟩, .nil⟩
  | read going first others ih =>
    obtain ⟨⟨a, ha⟩, hcard⟩ := hreaders _ (List.mem_cons_self ..) _ _ _ going first
    obtain ⟨⟨b, hb⟩, hcards⟩ := ih fun r hr => hreaders r (List.mem_cons_of_mem _ hr)
    exact ⟨⟨a ++ b, ha.trans hb⟩, hcard.cons hcards⟩

theorem unknownCard_laid {label : String} {indent start : Nat} {c : Cursor} {q : Place}
    (hle : start ≤ c.offset) (h : Ended c q) :
    Laid indent start q.cursor.offset [unknownCard label indent start c] := by
  have hstop : q.cursor.offset = c.stop := by
    rw [h.1.offset]
    exact c.bounded
  rw [hstop]
  exact .card hle (.leaf (hstop ▸ h.1.offset_le))

theorem ValueReader.lays {e : Entry} {indent : Nat} {read : ReadCard} (h : ValueReader e indent read) :
    Lays indent read := by
  induction h with
  | never fails => exact fun p c q _ hr => absurd hr (fails p (c, q))
  | leaf _ reads =>
    intro p c q _ hr
    obtain ⟨b, kind, value, -, hb, -, rfl⟩ := (reads p c q).1 hr
    exact ⟨⟨b, hb⟩, .leaf hb.offset_le⟩
  | branch _ reads _ ih =>
    intro p c q going hr
    rcases (reads p c q going).1 hr with
      ⟨o, d, children, ho, hd, -, hparts, rfl⟩ | ⟨head, label, d, -, hd, hended, rfl⟩
    · obtain ⟨⟨b, hb⟩, hlaid⟩ := hparts.laid (ih o ho)
      exact ⟨⟨_, hd.trans hb⟩, .card hd.offset_le hlaid⟩
    · exact ⟨⟨_, hd.trans hended.1⟩, unknownCard_laid hd.offset_le hended⟩

theorem decodeValue_laid {e : Entry} {l : Limits} {payload : Bytes} {id : TypeId} {cards : List Card}
    (h : decodeValue e l payload id = .ok cards) : Laid 0 0 payload.length cards := by
  simp only [decodeValue, bind_eq_ok, Prod.exists] at h
  obtain ⟨card, q, hr, h⟩ := h
  split at h
  · next hend =>
    obtain rfl := pure_eq_ok.1 h
    obtain ⟨⟨b, hb⟩, hlaid⟩ := (valueReader e l _ id .plain 0).lays _ _ _ rfl hr
    have hstop : q.cursor.offset = payload.length := (Cursor.offset_eq_stop hend).trans hb.stop_eq
    rw [hstop] at hlaid
    exact hlaid
  · cases h

/-! ### Requests -/

/-- The card of a call shows the length of the call and the call. -/
theorem ReadsCall.laid {e : Entry} {l : Limits} {start : Nat} {c : Cursor} {card : Card}
    (h : ReadsCall e l start c card) (hle : start ≤ c.offset) : Laid 0 start c.stop [card] := by
  cases h with
  | known first _ reads _ done =>
    obtain ⟨⟨b, hb⟩, hmethod⟩ := (valueReader ..).lays _ _ _ rfl reads
    rw [Cursor.offset_eq_stop (Cursor.remaining_eq_zero.2 done), hb.stop_eq, first.stop_eq] at hmethod
    exact .card (Nat.le_trans hle first.offset_le) hmethod
  | @unknown _ d first =>
    have hstop : d.offset ≤ d.stop := by
      have := d.bounded
      omega
    rw [← first.stop_eq]
    exact .card (Nat.le_trans hle first.offset_le) (.leaf hstop)

theorem Transaction.Accepted.laid {t : Transaction} {source : MetadataSource} {l : Limits}
    (h : t.Accepted source l) : Laid 0 0 t.encode.length t.review.cards := by
  have hcall : Laid 0 t.front.length t.callStop [t.callCard] := by
    have hlaid := h.call.laid (Nat.le_add_right ..)
    rwa [show (Cursor.across t.callStart t.call).stop = t.callStop from t.callStop_eq.symm] at hlaid
  have hextensions : Laid 0 t.callStop t.bodyStop (t.extensions.cards t.entry.specs) := by
    have hlaid := h.extensions.laid t.entry.specs
    rwa [show (Cursor.across t.callStop t.extensions.encode).stop = t.bodyStop from
      (List.length_append ..).symm] at hlaid
  have hend : t.bodyStop ≤ t.encode.length := (List.prefix_append ..).length_le
  exact .cons (.leaf (Nat.zero_le _)) (hcall.cons (hextensions.append (.leaf hend)))

theorem Message.laid (m : Message) : Laid 0 0 m.encode.length m.review.cards :=
  .cons (.leaf (Nat.zero_le _)) (.cons (.leaf (List.prefix_append ..).length_le)
    (.leaf (List.prefix_append ..).length_le))

theorem readUpdate_laid {payload : Bytes} {review : Review} (h : readUpdate payload = .ok review) :
    Laid 0 0 payload.length review.cards := by
  unfold readUpdate at h
  dsimp only at h
  split at h
  · cases h
  · next hlong =>
    split at h
    · cases h
    · obtain rfl := pure_eq_ok.1 h
      exact .cons (.leaf (Nat.zero_le _)) (.leaf (Nat.le_of_not_lt hlong))

theorem decodeRequest_laid {payload : Bytes} {source : MetadataSource} {l : Limits} {review : Review}
    (h : decodeRequest payload source l = .ok review) : Laid 0 0 payload.length review.cards := by
  rcases decodeRequest_eq_ok.1 h with ⟨⟨scheme, kind⟩, hp, ⟨rfl, h⟩ | ⟨rfl, h⟩ | ⟨-, h⟩⟩
  · obtain ⟨t, ht, rfl, rfl, -⟩ := exists_transaction hp h
    exact ht.laid
  · obtain ⟨m, -, -, rfl, rfl⟩ := (readMessage_eq_ok (readPrelude_eq_ok.1 hp).2).1 h
    exact m.laid
  · exact readUpdate_laid h

/-- Every byte of a value, and of a request of any kind, is shown by its cards in
order, each level one indent deeper than the one above. -/
theorem cards_show_all_bytes :
    (∀ (e : Entry) (l : Limits) (payload : Bytes) (id : TypeId) (cards : List Card),
      decodeValue e l payload id = .ok cards →
        Card.covers cards payload.length = true ∧ Card.WellIndented cards) ∧
      ∀ (source : MetadataSource) (l : Limits) (payload : Bytes) (review : Review),
        decodeRequest payload source l = .ok review →
          Card.covers review.cards payload.length = true ∧ Card.WellIndented review.cards := by
  refine ⟨fun e l payload id cards h => ?_, fun source l payload review h => ?_⟩
  · have hlaid := decodeValue_laid h
    exact ⟨hlaid.covers, hlaid.wellIndented⟩
  · have hlaid := decodeRequest_laid h
    exact ⟨hlaid.covers, hlaid.wellIndented⟩

/-- The cards of a call and of a whole transaction of the small network. -/
theorem sample_cards_show_all_bytes :
    (∃ cards, decodeValue sampleEntry {} [0, 5] 1 = .ok cards ∧
      Card.covers cards 2 = true ∧ Card.WellIndented cards) ∧
      decodeRequest sampleTransaction.encode sampleRegistry.source {} = .ok sampleTransaction.review ∧
        Card.covers sampleTransaction.review.cards sampleTransaction.encode.length = true ∧
        Card.WellIndented sampleTransaction.review.cards :=
  ⟨⟨_, rfl, cards_show_all_bytes.1 sampleEntry {} [0, 5] 1 _ rfl⟩, decodeRequest_sampleTransaction,
    cards_show_all_bytes.2 _ _ _ _ decodeRequest_sampleTransaction⟩

end ColdSigner.Review
