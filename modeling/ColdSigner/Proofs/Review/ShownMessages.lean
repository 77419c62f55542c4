import ColdSigner.Proofs.Review.Disclosure
import ColdSigner.Proofs.Review.WrappedMessages

/-! What the card of a message tells.

The card shows a message as its text, and a message that is no text by its digits. Each
of the two ways tells the message, but the card does not say which of them it takes: the
digits of one message are the text of another. Of two messages that are shown alike and
are not the same, one is no text and the other spells its digits. -/
namespace ColdSigner.Review

/-- The first message is no text, and the second is the text of its digits. -/
def SpelledBy (m n : Bytes) : Prop := m.toText? = none ∧ n = Bytes.ofText (Hex.show0x m)

theorem messageText_of_toText? {m : Bytes} {s : String} (h : m.toText? = some s) : messageText m = s := by
  rw [messageText, h, Option.getD_some]

theorem messageText_of_none {m : Bytes} (h : m.toText? = none) : messageText m = Hex.show0x m := by
  rw [messageText, h, Option.getD_none]

/-- A message that spells the digits of another is shown by them. -/
theorem SpelledBy.messageText_eq {m n : Bytes} (h : SpelledBy m n) : messageText m = messageText n := by
  rw [messageText_of_none h.1, messageText_of_toText? (h.2 ▸ Bytes.toText?_ofText _)]

/-- Messages are shown alike if they are the same, or one spells the digits of the other. -/
theorem messageText_eq_iff {m n : Bytes} :
    messageText m = messageText n ↔ m = n ∨ SpelledBy m n ∨ SpelledBy n m := by
  constructor
  · intro h
    cases hm : m.toText? with
    | some s =>
      cases hn : n.toText? with
      | some t =>
        rw [messageText_of_toText? hm, messageText_of_toText? hn] at h
        exact .inl (by rw [← Bytes.ofText_of_toText? hm, ← Bytes.ofText_of_toText? hn, h])
      | none =>
        rw [messageText_of_toText? hm, messageText_of_none hn] at h
        exact .inr (.inr ⟨hn, by rw [← Bytes.ofText_of_toText? hm, h]⟩)
    | none =>
      cases hn : n.toText? with
      | some t =>
        rw [messageText_of_none hm, messageText_of_toText? hn] at h
        exact .inr (.inl ⟨hm, by rw [← Bytes.ofText_of_toText? hn, h]⟩)
      | none =>
        rw [messageText_of_none hm, messageText_of_none hn] at h
        exact .inl (Hex.show0x_injective h)
  · intro h
    rcases h with rfl | h | h
    · rfl
    · exact h.messageText_eq
    · exact h.messageText_eq.symm

theorem wrapMessage_injective {m n : Bytes} (h : wrapMessage m = wrapMessage n) : m = n :=
  List.append_cancel_left (List.append_cancel_right h)

/-- Messages of one signer on one network show the same content as far as their texts do. -/
theorem Message.Accepted.contents_eq_iff {m n : Message} {source : MetadataSource}
    (hm : m.Accepted source) (hn : n.Accepted source) (signer : m.signer = n.signer)
    (network : m.network = n.network) :
    Card.contents m.review.cards = Card.contents n.review.cards ↔
      messageText m.content = messageText n.content := by
  have hentry : m.entry = n.entry := by
    have he := hm.entry
    rw [network, hn.entry] at he
    exact (Except.ok.inj he).symm
  simp only [review, Card.contents_cons, Card.contents_nil, Card.content_mk, Content.card.injEq,
    List.cons.injEq, signer, hentry, and_true, true_and]

/-- The cards of a message tell what is signed, unless one message spells the digits of
another that is no text: these two, and no others, are signed apart and shown alike. -/
theorem message_cards_tell_unless_spelled (source : MetadataSource) (l l' : Limits) (p q : Bytes)
    (a b : Review) (x y : SigningRequest) (hp : decodeKind .message p source l = .ok a)
    (hq : decodeKind .message q source l' = .ok b) (hx : a.request = .sign x)
    (hy : b.request = .sign y) (signer : x.signer = y.signer) (network : x.network = y.network) :
    ∃ m n, x.payload = wrapMessage m ∧ y.payload = wrapMessage n ∧
      (Card.contents a.cards = Card.contents b.cards ↔
        x.payload = y.payload ∨ SpelledBy m n ∨ SpelledBy n m) := by
  obtain ⟨m, hm, rfl, rfl⟩ := exists_message_of_decodeKind hp
  obtain ⟨n, hn, rfl, rfl⟩ := exists_message_of_decodeKind hq
  obtain rfl := Request.sign.inj hx
  obtain rfl := Request.sign.inj hy
  refine ⟨m.content, n.content, rfl, rfl, ?_⟩
  rw [hm.contents_eq_iff hn signer network, messageText_eq_iff]
  exact or_congr_left ⟨congrArg wrapMessage, wrapMessage_injective⟩

/-- A message of the sample signer that is no text. -/
def byteMessage : Message := ⟨sampleTransaction.signer, sampleEntry.network, [0xFF], sampleEntry⟩

/-- The text of its digits. -/
def digitMessage : Message := { byteMessage with content := Bytes.ofText "0xff" }

set_option maxRecDepth 4096 in
theorem decodeKind_byteMessage :
    decodeKind .message byteMessage.encode sampleRegistry.source {} = .ok byteMessage.review := by
  rfl

set_option maxRecDepth 4096 in
theorem decodeKind_digitMessage :
    decodeKind .message digitMessage.encode sampleRegistry.source {} = .ok digitMessage.review := by
  rfl

/-- The two messages are signed apart and shown alike. -/
theorem digitMessage_shown_as_byteMessage :
    byteMessage.request.payload ≠ digitMessage.request.payload ∧
      Card.contents byteMessage.review.cards = Card.contents digitMessage.review.cards := by
  obtain ⟨m, n, hm, hn, hiff⟩ := message_cards_tell_unless_spelled sampleRegistry.source {} {} _ _ _ _
    _ _ decodeKind_byteMessage decodeKind_digitMessage rfl rfl rfl rfl
  obtain rfl : [0xFF] = m := wrapMessage_injective hm
  obtain rfl : Bytes.ofText "0xff" = n := wrapMessage_injective hn
  exact ⟨by decide, hiff.2 (.inr (.inl ⟨rfl, rfl⟩))⟩

/-- Not all messages that are shown alike are signed alike. -/
theorem not_message_cards_tell :
    ¬ ∀ (source : MetadataSource) (l : Limits) (p q : Bytes) (a b : Review) (x y : SigningRequest),
      decodeKind .message p source l = .ok a → decodeKind .message q source l = .ok b →
        a.request = .sign x → b.request = .sign y → x.signer = y.signer → x.network = y.network →
          Card.contents a.cards = Card.contents b.cards → x.payload = y.payload := by
  intro tell
  have alike : Card.contents byteMessage.review.cards = Card.contents digitMessage.review.cards := rfl
  have same := tell sampleRegistry.source {} _ _ _ _ byteMessage.request digitMessage.request
    decodeKind_byteMessage decodeKind_digitMessage rfl rfl rfl rfl alike
  exact absurd same (by decide)

end ColdSigner.Review
