import ColdSigner.Proofs.Review.ExactFraming

/-! Messages that are signed like transactions.

A message is signed between two marks. They do not keep it apart from every
transaction: the first mark may stand where a transaction has its call, behind an
index that no pallet has, and the last in its block hash, of which nothing is
checked. These are the only transactions that are signed as a message is, and each
of them is signed as the message between its marks. -/
namespace ColdSigner.Review

/-- Stands in front of a message that is signed. -/
def openMark : Bytes := Bytes.ofText "<Bytes>"

/-- Stands behind a message that is signed. -/
def closeMark : Bytes := Bytes.ofText "</Bytes>"

theorem openMark_eq : openMark = [0x3C, 0x42, 0x79, 0x74, 0x65, 0x73, 0x3E] := by decide

theorem closeMark_eq : closeMark = [0x3C, 0x2F, 0x42, 0x79, 0x74, 0x65, 0x73, 0x3E] := by decide

/-- What stands between the marks of these bytes. -/
def unwrapped (b : Bytes) : Bytes :=
  (b.drop openMark.length).take (b.length - openMark.length - closeMark.length)

/-- Bytes that are long enough for both marks are a message between them exactly if
they start and end with them. -/
theorem wrapMessage_eq_iff {m b : Bytes} (long : openMark.length + closeMark.length ≤ b.length) :
    wrapMessage m = b ↔ openMark <+: b ∧ closeMark <:+ b ∧ m = unwrapped b := by
  show openMark ++ m ++ closeMark = b ↔ _
  constructor
  · rintro rfl
    refine ⟨⟨m ++ closeMark, (List.append_assoc ..).symm⟩, ⟨openMark ++ m, rfl⟩, ?_⟩
    have hlength : (openMark ++ m ++ closeMark).length - openMark.length - closeMark.length =
        m.length := by
      simp only [List.length_append]
      omega
    rw [unwrapped, hlength, List.append_assoc, List.drop_left, List.take_left]
  · rintro ⟨⟨behind, rfl⟩, hclose, rfl⟩
    rw [List.length_append] at long
    obtain ⟨content, rfl⟩ : closeMark <:+ behind :=
      List.suffix_of_suffix_length_le hclose (List.suffix_append ..) (by omega)
    have hlength : (openMark ++ (content ++ closeMark)).length - openMark.length - closeMark.length =
        content.length := by
      simp only [List.length_append]
      omega
    rw [unwrapped, hlength, List.drop_left, List.take_left, List.append_assoc]

/-! ### Transactions between marks -/

namespace Extensions.Values

/-- What is signed ends with the block hash, which has room for the last mark. -/
theorem closeMark_suffix_iff (v : Values) (call : Bytes) :
    closeMark <:+ call ++ v.encode ↔ closeMark <:+ v.block.bytes := by
  have hsuffix : v.block.bytes <:+ call ++ v.encode :=
    (List.suffix_append ..).trans (List.suffix_append ..)
  constructor
  · intro h
    refine List.suffix_of_suffix_length_le h hsuffix ?_
    rw [closeMark_eq, v.block.length_eq]
    decide
  · exact fun h => h.trans hsuffix

/-- Two hashes alone are longer than both marks. -/
theorem length_marks_le (v : Values) (call : Bytes) :
    openMark.length + closeMark.length ≤ (call ++ v.encode).length := by
  have hgenesis := v.genesis.length_eq
  have hblock := v.block.length_eq
  simp only [openMark_eq, closeMark_eq, encode, List.length_append, List.length_cons, List.length_nil]
  omega

theorem wrapMessage_eq_signed_iff (v : Values) (call message : Bytes) :
    wrapMessage message = call ++ v.encode ↔ openMark <+: call ++ v.encode ∧
      closeMark <:+ v.block.bytes ∧ message = unwrapped (call ++ v.encode) := by
  rw [wrapMessage_eq_iff (v.length_marks_le call), v.closeMark_suffix_iff]

end Extensions.Values

/-- The first mark starts with the index of a pallet, as a call does. -/
theorem FramesTransaction.index_of_openMark {source : MetadataSource} {l : Limits} {payload : Bytes}
    {signer : PublicKey} {network : NetworkId} {call : Bytes} {v : Extensions.Values} {e : Entry}
    (h : FramesTransaction source l payload signer network call v e)
    (opens : openMark <+: call ++ v.encode) : call.head? = some 0x3C := by
  obtain ⟨index, args, rfl⟩ : ∃ index args, call = index :: args := by
    cases h.call with
    | unknown | known => exact ⟨_, _, rfl⟩
  rw [openMark_eq, List.cons_append, List.cons_prefix_cons] at opens
  rw [← opens.1]
  rfl

/-! ### Requests -/

/-- A message is framed as its kind says. -/
theorem frames_of_decodeKind_message {source : MetadataSource} {l : Limits} {payload : Bytes}
    {review : Review} (h : decodeKind .message payload source l = .ok review) :
    ∃ signer network message e, FramesMessage source payload signer network message e ∧
      review.request = .sign ⟨signer, network, .message, wrapMessage message⟩ := by
  obtain ⟨m, hm, rfl, rfl⟩ := exists_message_of_decodeKind h
  exact ⟨m.signer, m.network, m.content, m.entry, hm.frames, rfl⟩

theorem frames_of_decodeKind_transaction {source : MetadataSource} {l : Limits} {payload : Bytes}
    {review : Review} (h : decodeKind .transaction payload source l = .ok review) :
    ∃ signer network call extensions e,
      FramesTransaction source l payload signer network call extensions e ∧
        signedPart payload = call ++ extensions.encode ∧
        review.request = .sign ⟨signer, network, .transaction, signable (signedPart payload)⟩ := by
  obtain ⟨t, ht, rfl, rfl, hpart⟩ := exists_of_decodeKind h
  obtain ⟨v, hv, hframes⟩ := ht.frames
  refine ⟨t.signer, t.network, t.call, v, t.entry, hframes, ?_, ?_⟩
  · rw [hpart, Transaction.signed, hv.encode]
  · rw [hpart]
    rfl

theorem signable_of_length_le {b : Bytes} (h : b.length ≤ maxUnhashedLength) : signable b = b :=
  if_neg (Nat.not_lt.2 h)

/-! ### A transaction between marks -/

/-- A transaction on the small network whose call and block hash hold the marks. -/
def markedTransaction : Transaction :=
  { sampleTransaction with
    call := openMark
    extensions := {
      era := ⟨.immortal, ⟨43, 44⟩⟩
      nonce := ⟨0, ⟨44, 45⟩⟩
      tip := ⟨0, ⟨45, 46⟩⟩
      specVersion := ⟨1, ⟨46, 50⟩⟩
      txVersion := ⟨1, ⟨50, 54⟩⟩
      genesis := ⟨sampleEntry.network.bytes, ⟨54, 86⟩⟩
      block := ⟨List.replicate 24 0 ++ closeMark, ⟨86, 118⟩⟩ }
    callCard := ⟨.pallet, "unknown pallet 60", 0, ⟨35, 37⟩,
      [⟨.raw, "0x42797465733e", 1, ⟨37, 43⟩, []⟩]⟩ }

/-- The message that is signed like it. -/
def markedMessage : Message :=
  ⟨sampleTransaction.signer, sampleEntry.network, unwrapped markedTransaction.signed, sampleEntry⟩

set_option maxRecDepth 4096 in
theorem decodeKind_markedTransaction :
    decodeKind .transaction markedTransaction.encode sampleRegistry.source {} =
      .ok markedTransaction.review := by
  rfl

set_option maxRecDepth 4096 in
theorem decodeKind_markedMessage :
    decodeKind .message markedMessage.encode sampleRegistry.source {} = .ok markedMessage.review := by
  rfl

set_option maxRecDepth 4096 in
theorem length_markedTransaction :
    (signedPart markedTransaction.encode).length ≤ maxUnhashedLength := by
  decide

/-! ### Messages and transactions -/

/-- A message and a transaction that is not hashed are signed alike exactly if the
transaction starts and ends with the marks and the message stands between them. The
pallet of such a transaction has the index `0x3C`, and its block hash ends in the
last mark. -/
theorem message_signed_as_transaction_iff (r r' : Registry) (l l' : Limits) (p q : Bytes)
    (a b : Review) (x y : SigningRequest) (hp : decodeKind .message p r.source l = .ok a)
    (hq : decodeKind .transaction q r'.source l' = .ok b) (hx : a.request = .sign x)
    (hy : b.request = .sign y) (unhashed : (signedPart q).length ≤ maxUnhashedLength) :
    ∃ message e call extensions e',
      FramesMessage r.source p x.signer x.network message e ∧
        FramesTransaction r'.source l' q y.signer y.network call extensions e' ∧
        (x.payload = y.payload ↔ openMark <+: call ++ extensions.encode ∧
          closeMark <:+ extensions.block.bytes ∧ message = unwrapped (call ++ extensions.encode)) ∧
        (x.payload = y.payload → call.head? = some 0x3C) := by
  obtain ⟨signer, network, message, e, hmessage, hm⟩ := frames_of_decodeKind_message hp
  obtain ⟨signer', network', call, extensions, e', htransaction, hpart, ht⟩ :=
    frames_of_decodeKind_transaction hq
  obtain rfl := Request.sign.inj (hx.symm.trans hm)
  obtain rfl := Request.sign.inj (hy.symm.trans ht)
  have hsigned : signable (signedPart q) = call ++ extensions.encode :=
    (signable_of_length_le unhashed).trans hpart
  refine ⟨message, e, call, extensions, e', hmessage, htransaction, ?_, fun same => ?_⟩
  · show wrapMessage message = signable (signedPart q) ↔ _
    rw [hsigned]
    exact extensions.wrapMessage_eq_signed_iff call message
  · have opens := ((extensions.wrapMessage_eq_signed_iff call message).1 (same.trans hsigned)).1
    exact htransaction.index_of_openMark opens

theorem markedMessage_signed_as_transaction :
    ∃ message e call extensions e',
      FramesMessage sampleRegistry.source markedMessage.encode markedMessage.signer
          markedMessage.network message e ∧
        FramesTransaction sampleRegistry.source {} markedTransaction.encode markedTransaction.signer
          markedTransaction.network call extensions e' ∧
        openMark <+: call ++ extensions.encode ∧ closeMark <:+ extensions.block.bytes ∧
        message = unwrapped (call ++ extensions.encode) ∧ call.head? = some 0x3C := by
  have same : markedMessage.request.payload = signable markedTransaction.signed := by decide
  obtain ⟨message, e, call, extensions, e', hm, ht, hiff, hindex⟩ :=
    message_signed_as_transaction_iff sampleRegistry sampleRegistry {} {} _ _ _ _ _ _
      decodeKind_markedMessage decodeKind_markedTransaction rfl rfl length_markedTransaction
  obtain ⟨hopen, hclose, hbetween⟩ := hiff.1 same
  exact ⟨message, e, call, extensions, e', hm, ht, hopen, hclose, hbetween, hindex same⟩

/-- Not every message is signed apart from every transaction. -/
theorem not_messages_signed_apart :
    ¬ ∀ (r : Registry) (l : Limits) (p q : Bytes) (a b : Review) (x y : SigningRequest),
      decodeKind .message p r.source l = .ok a → decodeKind .transaction q r.source l = .ok b →
        a.request = .sign x → b.request = .sign y →
          (signedPart q).length ≤ maxUnhashedLength → x.payload ≠ y.payload := by
  intro apart
  exact apart sampleRegistry {} _ _ _ _ markedMessage.request _ decodeKind_markedMessage
    decodeKind_markedTransaction rfl rfl length_markedTransaction (by decide)

end ColdSigner.Review
