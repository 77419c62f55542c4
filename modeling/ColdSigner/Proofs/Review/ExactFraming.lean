import ColdSigner.Proofs.Review.Message
import ColdSigner.Proofs.Review.Transaction

/-! Which payloads are requests.

A signed request is its prelude, the key of the signer, the body with its length in
front and the network; an update is its prelude, the network and the metadata.
`request_framing_exact` says of every payload whether it is accepted as one of these,
and what it then asks for: there are no bytes between the parts, and none that two
of them share. -/
namespace ColdSigner.Review

open Wire

/-! ### Transactions -/

/-- Calls with a card: either no calls are known behind the index of the pallet, or
the arguments are one value of the type of its calls and nothing more. The call
stands at `offset`. -/
inductive Callable (e : Entry) (l : Limits) (offset : Nat) : Bytes → Prop where
  | unknown {index : UInt8} {args : Bytes}
      (uncallable : (e.pallet? index).bind (·.calls) = none) : Callable e l offset (index :: args)
  | known {index : UInt8} {args : Bytes} {pallet : Pallet} {calls : TypeId} {method : Card} {q : Place}
      (selected : e.pallet? index = some pallet) (callable : pallet.calls = some calls)
      (reads : readValue e l l.maxDepth calls .call 1 ⟨.across (offset + 1) args, false⟩ =
        .ok (method, q))
      (done : q.cursor.rest = []) : Callable e l offset (index :: args)

/-- Where the first byte leads. -/
theorem consumes_across_cons {index : UInt8} {offset : Nat} {call : Bytes} {d : Cursor} :
    (Cursor.across offset call).Consumes [index] d ↔
      ∃ args, call = index :: args ∧ d = .across (offset + 1) args := by
  constructor
  · intro h
    exact ⟨d.rest, h.rest, Cursor.ext h.offset rfl⟩
  · rintro ⟨args, rfl, rfl⟩
    exact ⟨rfl, rfl⟩

theorem callable_iff {e : Entry} {l : Limits} {start offset : Nat} {call : Bytes} :
    Callable e l offset call ↔ ∃ card, ReadsCall e l start (.across offset call) card := by
  constructor
  · intro h
    cases h with
    | unknown uncallable => exact ⟨_, .unknown (consumes_across_cons.2 ⟨_, rfl, rfl⟩) uncallable⟩
    | known selected callable reads done =>
      exact ⟨_, .known (consumes_across_cons.2 ⟨_, rfl, rfl⟩) selected reads callable done⟩
  · rintro ⟨card, h⟩
    cases h with
    | known first selected reads callable done =>
      obtain ⟨args, rfl, rfl⟩ := consumes_across_cons.1 first
      exact .known selected callable reads done
    | unknown first uncallable =>
      obtain ⟨args, rfl, rfl⟩ := consumes_across_cons.1 first
      exact .unknown uncallable

namespace Transaction

theorem encode_eq (t : Transaction) :
    t.encode = [0x53, t.signer.scheme.toByte, 0x02] ++ t.signer.bytes ++
      Compact.encode t.call.length ++ t.call ++ t.extensions.encode ++ t.network.bytes := by
  simp only [encode, front, counted, List.append_assoc]
  rfl

theorem callStart_eq (t : Transaction) :
    t.callStart = 3 + t.signer.bytes.length + (Compact.encode t.call.length).length := by
  rw [callStart, front, List.length_append]
  rfl

/-- The extensions fill what is left of the body behind the call. -/
theorem region_extensions (t : Transaction) :
    Cursor.region t.encode t.callStop t.bodyStop = .across t.callStop t.extensions.encode :=
  Cursor.region_append (t.front ++ t.counted) t.extensions.encode t.network.bytes

theorem region_call (t : Transaction) :
    Cursor.region t.encode t.callStart t.callStop = .across t.callStart t.call := by
  have hencode : t.encode = t.front ++ Compact.encode t.call.length ++ t.call ++
      (t.extensions.encode ++ t.network.bytes) := by
    simp only [encode, counted, List.append_assoc]
  have hstart : t.callStart = (t.front ++ Compact.encode t.call.length).length :=
    (List.length_append ..).symm
  have hstop : t.callStop = (t.front ++ Compact.encode t.call.length ++ t.call).length := by
    rw [List.append_assoc]
    rfl
  rw [hencode, hstart, hstop]
  exact Cursor.region_append ..

/-- What is signed stands between the length of the call and the network. -/
theorem signed_eq (t : Transaction) : (t.encode.take t.bodyStop).drop t.callStart = t.signed := by
  have hbody : t.encode.take t.bodyStop = t.front ++ Compact.encode t.call.length ++ t.signed := by
    rw [encode, bodyStop, List.take_left]
    simp only [counted, signed, List.append_assoc]
  rw [hbody, callStart, ← List.length_append, List.drop_left]

end Transaction

/-- A transaction is read as what it encodes, where its extensions stand where they
are read. -/
theorem decodeRequest_transaction {t : Transaction} {source : MetadataSource} {l : Limits}
    (h : t.Accepted source l)
    (hx : Extensions.read (.across t.callStop t.extensions.encode) = .ok t.extensions) :
    decodeRequest t.encode source l = .ok t.review := by
  have hpayload : t.encode = t.front ++ (t.counted ++ t.extensions.encode) ++ t.network.bytes := by
    simp only [Transaction.encode, List.append_assoc]
  have hprelude : t.encode = Prelude.encode ⟨t.signer.scheme, .transaction⟩ ++
      (t.signer.bytes ++ t.counted ++ t.extensions.encode ++ t.network.bytes) := by
    simp only [Transaction.encode, Transaction.front, List.append_assoc]
  have hconsistent : (⟨t.signer.scheme, .transaction⟩ : Prelude).isConsistent = true := by
    cases t.signer <;> rfl
  refine decodeRequest_eq_ok.2 ⟨⟨t.signer.scheme, .transaction⟩,
    readPrelude_eq_ok.2 ⟨hconsistent, _, hprelude⟩, .inl ⟨rfl, ?_⟩⟩
  -- the frame, with the call and the extensions as its body
  let f : Framing := ⟨t.signer, t.network, t.front.length, t.bodyStop⟩
  have hne : t.counted ++ t.extensions.encode ≠ [] := by
    simp [Transaction.counted, Compact.encode_ne_nil]
  have hstop : f.bodyStop = (t.front ++ (t.counted ++ t.extensions.encode)).length := by
    rw [← List.append_assoc]
    rfl
  have hf : Framing.read t.encode t.signer.scheme = .ok f :=
    Framing.read_eq_ok.2 ⟨rfl, Prelude.encode ⟨t.signer.scheme, .transaction⟩, _, rfl, hne, hpayload,
      rfl, hstop⟩
  have hbody : f.body t.encode = .across t.front.length (t.counted ++ t.extensions.encode) :=
    Framing.body_eq_across hpayload rfl hstop
  -- behind the length of the call the cursor stands at its start
  obtain ⟨c, hc, hrest⟩ : ∃ c, (f.body t.encode).Consumes (Compact.encode t.call.length) c ∧
      c.rest = t.call ++ t.extensions.encode :=
    Cursor.exists_consumes (by
      rw [hbody, ← List.append_assoc]
      rfl)
  have hstart : c.offset = t.callStart := by
    rw [hc.offset, hbody]
    rfl
  have hlong : t.call.length ≤ c.remaining := by
    rw [c.remaining_eq, hrest, List.length_append]
    exact Nat.le_add_right ..
  simp only [readTransaction, bind_eq_ok, Prod.exists, Cursor.count_eq_ok]
  refine ⟨f, hf, _, c, ⟨h.count, hc, ?_⟩, t.extensions, ?_, ?_⟩
  · rwa [if_neg Nat.one_ne_zero, Nat.mul_one]
  · rw [hstart, ← t.callStop_eq]
    exact (congrArg Extensions.read t.region_extensions).trans hx
  · rw [h.entry]
    refine bind_eq_ok.2 ⟨(), Framing.checkScheme_eq_ok.2 h.scheme, ?_⟩
    rw [if_neg (not_not_intro h.genesis), hstart, ← t.callStop_eq, t.region_call, hbody]
    refine bind_eq_ok.2 ⟨t.callCard, readCall_eq_ok.2 h.call, ?_⟩
    rw [show (t.encode.take f.bodyStop).drop t.callStart = t.signed from t.signed_eq]
    rfl

/-- The payload is a transaction of these parts, to be reviewed with this metadata. -/
structure FramesTransaction (source : MetadataSource) (l : Limits) (payload : Bytes)
    (signer : PublicKey) (network : NetworkId) (call : Bytes) (extensions : Extensions.Values)
    (e : Entry) : Prop where
  payload_eq : payload = [0x53, signer.scheme.toByte, 0x02] ++ signer.bytes ++
    Compact.encode call.length ++ call ++ extensions.encode ++ network.bytes
  count : call.length < 256 ^ 16
  valid : extensions.Valid
  entry : source.entry network extensions.specVersion = .ok e
  scheme : e.specs.scheme = signer.scheme
  genesis : extensions.genesis = network
  call : Callable e l (3 + signer.bytes.length + (Compact.encode call.length).length) call

/-- An accepted transaction is framed as its parts. -/
theorem Transaction.Accepted.frames {t : Transaction} {source : MetadataSource} {l : Limits}
    (h : t.Accepted source l) :
    ∃ v : Extensions.Values, v.Of t.extensions ∧
      FramesTransaction source l t.encode t.signer t.network t.call v t.entry := by
  obtain ⟨v, hvalid, hv⟩ := h.extensions.exists_values
  refine ⟨v, hv, ?_, h.count, hvalid, ?_, h.scheme, ?_, ?_⟩
  · rw [t.encode_eq, hv.encode]
  · have hentry := h.entry
    rwa [hv.specVersion, UInt32.ofNat_toNat] at hentry
  · exact FixedBytes.ext (hv.genesis.symm.trans h.genesis)
  · rw [← t.callStart_eq]
    exact callable_iff.2 ⟨_, h.call⟩

/-- What frames a transaction is accepted. -/
theorem FramesTransaction.exists_cards {source : MetadataSource} {l : Limits} {payload : Bytes}
    {signer : PublicKey} {network : NetworkId} {call : Bytes} {v : Extensions.Values} {e : Entry}
    (h : FramesTransaction source l payload signer network call v e) :
    ∃ cards, decodeRequest payload source l =
      .ok ⟨cards, .sign ⟨signer, network, .transaction, signable (call ++ v.encode)⟩⟩ := by
  let start := 3 + signer.bytes.length + (Compact.encode call.length).length
  obtain ⟨card, hcard⟩ : ∃ card, ReadsCall e l
      (Prelude.encode ⟨signer.scheme, .transaction⟩ ++ signer.bytes).length (.across start call) card :=
    callable_iff.1 h.call
  obtain ⟨x, hx, hv⟩ := Extensions.exists_read (c := .across (start + call.length) v.encode) h.valid rfl
  let t : Transaction := ⟨signer, network, call, x, e, card⟩
  have hstop : start + call.length = t.callStop := by
    rw [t.callStop_eq, t.callStart_eq]
  have hpayload : payload = t.encode := by
    rw [h.payload_eq, t.encode_eq, hv.encode]
  rw [hstop, ← hv.encode] at hx
  refine ⟨t.review.cards, ?_⟩
  rw [hpayload, ← hv.encode]
  refine decodeRequest_transaction (t := t) ⟨h.scheme, ?_, ?_, h.count, Extensions.reads hx, ?_⟩ hx
  · show source.entry network (UInt32.ofNat x.specVersion.value) = .ok e
    rw [hv.specVersion, UInt32.ofNat_toNat]
    exact h.entry
  · show x.genesis.value = network.bytes
    rw [hv.genesis, h.genesis]
  · rw [t.callStart_eq]
    exact hcard

/-! ### Messages and updates -/

/-- The payload is a message of these parts. -/
structure FramesMessage (source : MetadataSource) (payload : Bytes) (signer : PublicKey)
    (network : NetworkId) (message : Bytes) (e : Entry) : Prop where
  payload_eq : payload = [0x53, signer.scheme.toByte, 0x03] ++ signer.bytes ++
    Compact.encode message.length ++ message ++ network.bytes
  count : message.length < 256 ^ 16
  entry : source.latest network = .ok e
  scheme : e.specs.scheme = signer.scheme

theorem Message.encode_eq (m : Message) :
    m.encode = [0x53, m.signer.scheme.toByte, 0x03] ++ m.signer.bytes ++
      Compact.encode m.content.length ++ m.content ++ m.network.bytes := by
  simp only [Message.encode, Message.front, Message.counted, List.append_assoc]
  rfl

/-- What an update consists of, with the metadata it brings. -/
structure Update where
  network : NetworkId
  blob : Bytes
  entry : Entry

namespace Update

def front (u : Update) : Bytes :=
  Prelude.encode ⟨.unsigned, .loadMetadata⟩ ++ u.network.bytes

def encode (u : Update) : Bytes := u.front ++ u.blob

def review (u : Update) : Review where
  cards :=
    [⟨.network, u.network.text, 0, ⟨0, u.front.length⟩, []⟩,
      ⟨.metadata, u.entry.specs.name ++ " version " ++ toString u.entry.specVersion.toNat, 0,
        ⟨u.front.length, u.encode.length⟩, []⟩]
  request := .loadMetadata u.entry

def Accepted (u : Update) : Prop := Entry.load u.network u.blob = .ok u.entry

end Update

/-- The network in front of other bytes. -/
theorem fit_append (network : NetworkId) (blob : Bytes) :
    FixedBytes.fit 32 (network.bytes ++ blob) = network := by
  refine FixedBytes.ext ?_
  show (network.bytes ++ blob ++ List.replicate 32 0).take 32 = network.bytes
  rw [List.append_assoc, List.take_left' network.length_eq]

/-- What follows the network is read as metadata, whatever the registry has. -/
theorem readUpdate_eq (network : NetworkId) (blob : Bytes) :
    readUpdate (Prelude.encode ⟨.unsigned, .loadMetadata⟩ ++ network.bytes ++ blob) =
      match Entry.load network blob with
      | .ok e => .ok (Update.review ⟨network, blob, e⟩)
      | .error f => .error ⟨.malformedMetadata f.message, Prelude.length + hashLength, none⟩ := by
  generalize hfront : Prelude.encode ⟨.unsigned, .loadMetadata⟩ ++ network.bytes = front
  have hstart : Prelude.length + hashLength = front.length := by
    rw [← hfront, List.length_append, network.length_eq]
    rfl
  have hlong : ¬ (front ++ blob).length < front.length := by
    rw [List.length_append]
    omega
  have hnetwork : FixedBytes.fit 32 ((front ++ blob).drop Prelude.length) = network := by
    rw [← hfront]
    exact fit_append network blob
  unfold readUpdate
  dsimp only
  rw [hnetwork, hstart, if_neg hlong, List.drop_left]
  cases Entry.load network blob with
  | error => rfl
  | ok e =>
    dsimp only
    rw [Update.review, Update.encode, Update.front, hfront]
    rfl

theorem readUpdate_append {network : NetworkId} {blob : Bytes} {r : Review} :
    readUpdate (Prelude.encode ⟨.unsigned, .loadMetadata⟩ ++ network.bytes ++ blob) = .ok r ↔
      ∃ e, Entry.load network blob = .ok e ∧ r = Update.review ⟨network, blob, e⟩ := by
  rw [readUpdate_eq]
  cases Entry.load network blob with
  | error => simp
  | ok e => simp [@eq_comm _ r]

/-- An update is long enough for its network. -/
theorem exists_network {payload rest : Bytes} {r : Review} (h : readUpdate payload = .ok r)
    (hpayload : payload = Prelude.encode ⟨.unsigned, .loadMetadata⟩ ++ rest) :
    ∃ (network : NetworkId) (blob : Bytes), rest = network.bytes ++ blob := by
  unfold readUpdate at h
  dsimp only at h
  split at h
  · cases h
  · next hlong =>
    have hrest : 32 ≤ rest.length := by
      rw [hpayload, List.length_append] at hlong
      exact Nat.le_of_add_le_add_left (Nat.le_of_not_lt hlong)
    exact ⟨⟨rest.take 32, by rw [List.length_take, Nat.min_eq_left hrest]⟩, rest.drop 32,
      (List.take_append_drop ..).symm⟩

theorem readUpdate_eq_ok {payload : Bytes} {r : Review}
    (hp : ∃ rest, payload = Prelude.encode ⟨.unsigned, .loadMetadata⟩ ++ rest) :
    readUpdate payload = .ok r ↔ ∃ u : Update, u.Accepted ∧ payload = u.encode ∧ r = u.review := by
  constructor
  · intro h
    obtain ⟨rest, hpayload⟩ := hp
    obtain ⟨network, blob, rfl⟩ := exists_network h hpayload
    rw [← List.append_assoc] at hpayload
    subst hpayload
    obtain ⟨e, hload, rfl⟩ := readUpdate_append.1 h
    exact ⟨⟨network, blob, e⟩, hload, rfl, rfl⟩
  · rintro ⟨u, hu, rfl, rfl⟩
    exact readUpdate_append.2 ⟨u.entry, hu, rfl⟩

/-! ### Requests -/

/-- An accepted payload is a request of its kind. -/
theorem decodeRequest_cases {payload : Bytes} {source : MetadataSource} {l : Limits} {r : Review}
    (h : decodeRequest payload source l = .ok r) :
    (∃ t : Transaction, t.Accepted source l ∧ payload = t.encode ∧ r = t.review) ∨
      (∃ m : Message, m.Accepted source ∧ payload = m.encode ∧ r = m.review) ∨
        ∃ u : Update, u.Accepted ∧ payload = u.encode ∧ r = u.review := by
  obtain ⟨⟨scheme, kind⟩, hp, ⟨rfl, h⟩ | ⟨rfl, h⟩ | ⟨rfl, h⟩⟩ := decodeRequest_eq_ok.1 h
  · obtain ⟨t, ht, hpayload, hr, -⟩ := exists_transaction hp h
    exact .inl ⟨t, ht, hpayload, hr⟩
  · obtain ⟨m, hm, -, hpayload, hr⟩ := (readMessage_eq_ok (readPrelude_eq_ok.1 hp).2).1 h
    exact .inr (.inl ⟨m, hm, hpayload, hr⟩)
  · obtain ⟨hconsistent, hprelude⟩ := readPrelude_eq_ok.1 hp
    obtain rfl : scheme = .unsigned := by simpa [Prelude.isConsistent] using hconsistent
    exact .inr (.inr ((readUpdate_eq_ok hprelude).1 h))

/-- What frames a message is accepted. -/
theorem FramesMessage.decodeRequest {source : MetadataSource} {payload : Bytes} {signer : PublicKey}
    {network : NetworkId} {message : Bytes} {e : Entry} (l : Limits)
    (h : FramesMessage source payload signer network message e) :
    decodeRequest payload source l = .ok (Message.review ⟨signer, network, message, e⟩) := by
  have hpayload : payload = Message.encode ⟨signer, network, message, e⟩ :=
    h.payload_eq.trans (Message.encode_eq ⟨signer, network, message, e⟩).symm
  rw [hpayload]
  exact decodeRequest_message ⟨h.scheme, h.entry, h.count⟩

theorem Message.Accepted.frames {m : Message} {source : MetadataSource} (h : m.Accepted source) :
    FramesMessage source m.encode m.signer m.network m.content m.entry :=
  ⟨m.encode_eq, h.count, h.entry, h.scheme⟩

/-- An update is read as what it encodes. -/
theorem decodeRequest_update {u : Update} {source : MetadataSource} {l : Limits} (h : u.Accepted) :
    decodeRequest u.encode source l = .ok u.review := by
  have hfront : u.encode = Prelude.encode ⟨.unsigned, .loadMetadata⟩ ++ (u.network.bytes ++ u.blob) :=
    List.append_assoc ..
  refine decodeRequest_eq_ok.2 ⟨⟨.unsigned, .loadMetadata⟩, readPrelude_eq_ok.2 ⟨rfl, _, hfront⟩,
    .inr (.inr ⟨rfl, ?_⟩)⟩
  exact (readUpdate_eq_ok ⟨_, hfront⟩).2 ⟨u, h, rfl, rfl⟩

/-- What starts like an update is read as one, or fails for its metadata. -/
theorem decodeRequest_append (network : NetworkId) (blob : Bytes) (source : MetadataSource) (l : Limits) :
    decodeRequest ([0x53, 0xFF, 0x80] ++ network.bytes ++ blob) source l =
      match Entry.load network blob with
      | .ok e => .ok (Update.review ⟨network, blob, e⟩)
      | .error f => .error ⟨.malformedMetadata f.message, Prelude.length + hashLength, none⟩ := by
  have hprelude : readPrelude ([0x53, 0xFF, 0x80] ++ network.bytes ++ blob) =
      .ok ⟨.unsigned, .loadMetadata⟩ :=
    readPrelude_eq_ok.2 ⟨rfl, network.bytes ++ blob, List.append_assoc ..⟩
  rw [decodeRequest, hprelude]
  exact readUpdate_eq network blob

/-- A payload is accepted as a transaction, a message or an update exactly where it
is framed as one, and it then asks for what stands in the frame. -/
theorem request_framing_exact (source : MetadataSource) (l : Limits) (payload : Bytes) :
    (∀ signer network signed,
      (∃ cards, decodeRequest payload source l =
          .ok ⟨cards, .sign ⟨signer, network, .transaction, signed⟩⟩) ↔
        ∃ call extensions e,
          FramesTransaction source l payload signer network call extensions e ∧
            signed = if 256 < (call ++ extensions.encode).length then
              (Blake2b.hash 32 (call ++ extensions.encode)).bytes else call ++ extensions.encode) ∧
      (∀ signer network signed,
        (∃ cards, decodeRequest payload source l =
            .ok ⟨cards, .sign ⟨signer, network, .message, signed⟩⟩) ↔
          ∃ message e, FramesMessage source payload signer network message e ∧
            signed = Bytes.ofText "<Bytes>" ++ message ++ Bytes.ofText "</Bytes>") ∧
      ∀ e, (∃ cards, decodeRequest payload source l = .ok ⟨cards, .loadMetadata e⟩) ↔
        ∃ (network : NetworkId) (blob : Bytes),
          payload = [0x53, 0xFF, 0x80] ++ network.bytes ++ blob ∧ Entry.load network blob = .ok e := by
  refine ⟨fun signer network signed => ⟨?_, ?_⟩, fun signer network signed => ⟨?_, ?_⟩,
    fun e => ⟨?_, ?_⟩⟩
  · rintro ⟨cards, h⟩
    rcases decodeRequest_cases h with ⟨t, ht, rfl, hr⟩ | ⟨m, -, -, hr⟩ | ⟨u, -, -, hr⟩ <;> cases hr
    obtain ⟨v, hv, hframes⟩ := ht.frames
    refine ⟨t.call, v, t.entry, hframes, ?_⟩
    rw [← hv.encode]
    rfl
  · rintro ⟨call, v, e, hframes, rfl⟩
    exact hframes.exists_cards
  · rintro ⟨cards, h⟩
    rcases decodeRequest_cases h with ⟨t, -, -, hr⟩ | ⟨m, hm, rfl, hr⟩ | ⟨u, -, -, hr⟩ <;> cases hr
    exact ⟨m.content, m.entry, hm.frames, rfl⟩
  · rintro ⟨message, e, hframes, rfl⟩
    exact ⟨_, hframes.decodeRequest l⟩
  · rintro ⟨cards, h⟩
    rcases decodeRequest_cases h with ⟨t, -, -, hr⟩ | ⟨m, -, -, hr⟩ | ⟨u, hu, rfl, hr⟩ <;> cases hr
    exact ⟨u.network, u.blob, rfl, hu⟩
  · rintro ⟨network, blob, rfl, hload⟩
    exact ⟨_, decodeRequest_update (u := ⟨network, blob, e⟩) hload⟩

end ColdSigner.Review
