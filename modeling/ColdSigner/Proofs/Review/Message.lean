import ColdSigner.Proofs.Review.Framing

/-! The parts of a message request.

`readMessage_eq_ok` says which payloads are accepted as messages: those that encode
a signer, a network with metadata and a message between them, and nothing else. -/
namespace ColdSigner.Review

/-- What a message request consists of, with the metadata it is read with. -/
structure Message where
  signer : PublicKey
  network : NetworkId
  content : Bytes
  entry : Entry

namespace Message

/-- The bytes in front of the message. -/
def front (m : Message) : Bytes :=
  Prelude.encode ⟨m.signer.scheme, .message⟩ ++ m.signer.bytes

/-- The message behind its length. -/
def counted (m : Message) : Bytes := Wire.Compact.encode m.content.length ++ m.content

def encode (m : Message) : Bytes := m.front ++ m.counted ++ m.network.bytes

def request (m : Message) : SigningRequest := ⟨m.signer, m.network, .message, wrapMessage m.content⟩

def review (m : Message) : Review where
  cards :=
    [⟨.author, m.signer.address m.entry.specs.addressFormat, 0, ⟨0, m.front.length⟩, []⟩,
      ⟨.message, messageText m.content, 0, ⟨m.front.length, (m.front ++ m.counted).length⟩, []⟩,
      ⟨.network, m.entry.specs.name, 0, ⟨(m.front ++ m.counted).length, m.encode.length⟩, []⟩]
  request := .sign m.request

/-- The parts fit together, and the metadata is the latest. -/
structure Accepted (m : Message) (source : MetadataSource) : Prop where
  scheme : m.entry.specs.scheme = m.signer.scheme
  entry : source.latest m.network = .ok m.entry
  count : m.content.length < 256 ^ 16

end Message

theorem readMessage_eq_ok {payload : Bytes} {scheme : Scheme} {source : MetadataSource}
    {review : Review} (hp : ∃ rest, payload = Prelude.encode ⟨scheme, .message⟩ ++ rest) :
    readMessage payload scheme source = .ok review ↔
      ∃ m : Message, m.Accepted source ∧ m.signer.scheme = scheme ∧ payload = m.encode ∧
        review = m.review := by
  simp only [readMessage, bind_eq_ok, Prod.exists, Cursor.count_eq_ok, Cursor.take_eq_ok]
  constructor
  · intro h
    obtain ⟨f, hf, n, c, ⟨hn, hc, -⟩, content, d, ⟨rfl, hd⟩, h⟩ := h
    obtain ⟨rfl, front, body, hfront, -, hpayload, hstart, hstop⟩ := Framing.read_eq_ok.1 hf
    obtain rfl : front = Prelude.encode ⟨f.signer.scheme, .message⟩ := by
      obtain ⟨rest, hrest⟩ := hp
      rw [hpayload, List.append_assoc, List.append_assoc] at hrest
      exact (List.append_inj hrest hfront).1
    have hread := hc.trans hd
    rw [Framing.body_eq_across hpayload hstart hstop] at hread h
    split at h
    · cases h
    · next hdone =>
      have hbody : body = Wire.Compact.encode content.length ++ content := by
        rw [← List.append_nil (_ ++ content), ← Cursor.remaining_eq_zero.1 (not_ne_iff.1 hdone)]
        exact hread.rest
      have hend : d.offset = f.bodyStop := by
        rw [hstop, List.length_append, hbody]
        exact hread.offset
      split at h
      · next e he => cases e <;> cases h
      · next e he =>
        obtain ⟨_, hscheme, h⟩ := bind_eq_ok.1 h
        obtain rfl := pure_eq_ok.1 h
        refine ⟨⟨f.signer, f.network, content, e⟩, ⟨Framing.checkScheme_eq_ok.1 hscheme, he, hn⟩, rfl,
          ?_, ?_⟩
        · rw [hpayload, hbody]
          rfl
        · rw [Framing.authorCard, Framing.networkCard, hend, hstart, hstop, hpayload, hbody]
          rfl
  · intro h
    obtain ⟨m, hm, rfl, hpayload, rfl⟩ := h
    have hne : m.counted ≠ [] := by
      intro hnil
      exact Wire.Compact.encode_ne_nil _ (List.append_eq_nil_iff.1 hnil).1
    let f : Framing := ⟨m.signer, m.network, m.front.length, (m.front ++ m.counted).length⟩
    have hf : Framing.read payload m.signer.scheme = .ok f :=
      Framing.read_eq_ok.2 ⟨rfl, Prelude.encode ⟨m.signer.scheme, .message⟩, m.counted, rfl, hne,
        hpayload, rfl, rfl⟩
    have hbody : f.body payload = .across m.front.length m.counted :=
      Framing.body_eq_across hpayload rfl rfl
    obtain ⟨c, hc, hrest⟩ : ∃ c, (f.body payload).Consumes (Wire.Compact.encode m.content.length) c ∧
        c.rest = m.content := Cursor.exists_consumes (by rw [hbody]; rfl)
    obtain ⟨d, hd, hend⟩ := Cursor.exists_consumes (hrest.trans (List.append_nil _).symm)
    refine ⟨f, hf, _, c, ⟨hm.count, hc, ?_⟩, m.content, d, ⟨rfl, hd⟩, ?_⟩
    · have hremaining : c.remaining = m.content.length := by rw [c.remaining_eq, hrest]
      rw [if_neg Nat.one_ne_zero, Nat.mul_one]
      exact Nat.le_of_eq hremaining.symm
    · have hoffset : d.offset = (m.front ++ m.counted).length := by
        rw [(hc.trans hd).offset, hbody]
        exact (List.length_append ..).symm
      rw [if_neg (not_not_intro (Cursor.remaining_eq_zero.2 hend)), hm.entry]
      refine bind_eq_ok.2 ⟨(), Framing.checkScheme_eq_ok.2 hm.scheme, pure_eq_ok.2 ?_⟩
      rw [hbody, hoffset, hpayload]
      rfl

/-- A payload that is accepted as a message is the encoding of its parts. -/
theorem exists_message_of_decodeKind {payload : Bytes} {source : MetadataSource} {l : Limits}
    {review : Review} (h : decodeKind .message payload source l = .ok review) :
    ∃ m : Message, m.Accepted source ∧ payload = m.encode ∧ review = m.review := by
  obtain ⟨⟨scheme, hp⟩, h⟩ := decodeKind_eq_ok.1 h
  obtain ⟨p, hp', hcases⟩ := decodeRequest_eq_ok.1 h
  obtain rfl := Except.ok.inj (hp.symm.trans hp')
  rcases hcases with ⟨hk, -⟩ | ⟨-, h⟩ | ⟨hk, -⟩
  · cases hk
  · obtain ⟨m, hm, -, rfl, rfl⟩ := (readMessage_eq_ok (readPrelude_eq_ok.1 hp).2).1 h
    exact ⟨m, hm, rfl, rfl⟩
  · cases hk

/-- A message request is read as what it encodes. -/
theorem decodeRequest_message {m : Message} {source : MetadataSource} {l : Limits}
    (h : m.Accepted source) : decodeRequest m.encode source l = .ok m.review := by
  have hfront : m.encode = Prelude.encode ⟨m.signer.scheme, .message⟩ ++
      (m.signer.bytes ++ m.counted ++ m.network.bytes) := by
    simp only [Message.encode, Message.front, List.append_assoc]
  have hconsistent : (⟨m.signer.scheme, .message⟩ : Prelude).isConsistent = true := by
    cases m.signer <;> rfl
  refine decodeRequest_eq_ok.2 ⟨⟨m.signer.scheme, .message⟩,
    readPrelude_eq_ok.2 ⟨hconsistent, _, hfront⟩, .inr (.inl ⟨rfl, ?_⟩)⟩
  exact (readMessage_eq_ok ⟨_, hfront⟩).2 ⟨m, h, rfl, rfl, rfl⟩

end ColdSigner.Review
