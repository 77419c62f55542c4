import ColdSigner.Proofs.Review.Framing
import ColdSigner.Proofs.Review.Readers

/-! The parts of a transaction.

A payload that is accepted as a transaction is the encoding of its parts, and the
parts tell its cards and what is asked to be signed. What the cards say about a
payload, and what a signature says about it, are then questions about parts. -/
namespace ColdSigner.Review

/-! ### Calls -/

/-- How the card of a call comes about: from a pallet with its method, or from raw
bytes behind an index that selects no pallet with calls. -/
inductive ReadsCall (e : Entry) (l : Limits) (start : Nat) (c : Cursor) : Card → Prop where
  | known {index : UInt8} {d : Cursor} {pallet : Pallet} {calls : TypeId} {method : Card} {q : Place}
      (first : c.Consumes [index] d) (selected : e.pallet? index = some pallet)
      (reads : readValue e l l.maxDepth calls .call 1 ⟨d, false⟩ = .ok (method, q))
      (callable : pallet.calls = some calls) (done : q.cursor.rest = []) :
      ReadsCall e l start c ⟨.pallet, pallet.name, 0, ⟨start, d.offset⟩, [method]⟩
  | unknown {index : UInt8} {d : Cursor} (first : c.Consumes [index] d)
      (uncallable : (e.pallet? index).bind (·.calls) = none) :
      ReadsCall e l start c ⟨.pallet, "unknown pallet " ++ toString index.toNat, 0,
        ⟨start, d.offset⟩, [⟨.raw, Hex.show0x d.rest, 1, ⟨d.offset, d.stop⟩, []⟩]⟩

theorem readCall_eq_ok {e : Entry} {l : Limits} {start : Nat} {c : Cursor} {card : Card} :
    readCall e l start c = .ok card ↔ ReadsCall e l start c card := by
  have hindex (index : UInt8) : UInt8.ofNat (Bytes.toNat [index]) = index := by
    rw [show Bytes.toNat [index] = index.toNat from Nat.add_zero _, UInt8.ofNat_toNat]
  simp only [readCall, bind_eq_ok, Prod.exists, Cursor.number_eq_ok]
  constructor
  · intro h
    obtain ⟨n, d, ⟨b, hl, rfl, hd⟩, h⟩ := h
    obtain ⟨index, rfl⟩ := List.length_eq_one_iff.1 hl
    rw [hindex] at h
    split at h
    · next pallet calls hp =>
      obtain ⟨p, hpallet, hcalls⟩ := Option.bind_eq_some_iff.1 hp
      obtain ⟨t, ht, hpair⟩ := Option.map_eq_some_iff.1 hcalls
      obtain ⟨rfl, rfl⟩ := Prod.mk.inj hpair
      simp only [bind_eq_ok, Prod.exists] at h
      obtain ⟨method, q, hread, h⟩ := h
      split at h
      · next hdone =>
        obtain rfl := pure_eq_ok.1 h
        exact .known hd hpallet hread ht (Cursor.remaining_eq_zero.1 hdone)
      · cases h
    · next hnone =>
      obtain rfl := pure_eq_ok.1 h
      show ReadsCall e l start c ⟨_, _, _, _, [⟨_, _, _, ⟨_, d.takeAll.2.offset⟩, _⟩]⟩
      rw [d.offset_takeAll, show Bytes.toNat [index] = index.toNat from Nat.add_zero _]
      refine .unknown hd ?_
      cases hp : e.pallet? index with
      | none => rfl
      | some p => simpa [hp] using hnone
  · intro h
    cases h with
    | @known index d pallet calls method q first selected reads callable done =>
      refine ⟨_, d, ⟨[index], rfl, rfl, first⟩, ?_⟩
      rw [hindex, selected, Option.bind_some, callable, Option.map_some]
      refine bind_eq_ok.2 ⟨_, reads, ?_⟩
      dsimp only
      rw [if_pos (Cursor.remaining_eq_zero.2 done)]
      rfl
    | @unknown index d first uncallable =>
      refine ⟨_, d, ⟨[index], rfl, Nat.add_zero _, first⟩, ?_⟩
      have hnone : (e.pallet? (UInt8.ofNat index.toNat)).bind
          (fun p => p.calls.map fun calls => (p, calls)) = none := by
        rw [UInt8.ofNat_toNat]
        cases hp : e.pallet? index with
        | none => rfl
        | some p => simpa [hp] using uncallable
      rw [hnone]
      show Except.ok (⟨_, _, _, _, [⟨_, _, _, ⟨_, d.takeAll.2.offset⟩, _⟩]⟩ : Card) = _
      rw [d.offset_takeAll]
      rfl

/-! ### Transactions -/

/-- What a transaction consists of, with the metadata it is read with. -/
structure Transaction where
  signer : PublicKey
  network : NetworkId
  call : Bytes
  extensions : Extensions
  entry : Entry
  callCard : Card

namespace Transaction

/-- The bytes in front of the call. -/
def front (t : Transaction) : Bytes :=
  Prelude.encode ⟨t.signer.scheme, .transaction⟩ ++ t.signer.bytes

/-- The call behind its length. -/
def counted (t : Transaction) : Bytes := Wire.Compact.encode t.call.length ++ t.call

/-- What is signed, before hashing. -/
def signed (t : Transaction) : Bytes := t.call ++ t.extensions.encode

def encode (t : Transaction) : Bytes :=
  t.front ++ t.counted ++ t.extensions.encode ++ t.network.bytes

def callStart (t : Transaction) : Nat := t.front.length + (Wire.Compact.encode t.call.length).length

def callStop (t : Transaction) : Nat := (t.front ++ t.counted).length

theorem callStop_eq (t : Transaction) : t.callStop = t.callStart + t.call.length := by
  rw [callStop, callStart, counted]
  simp only [List.length_append]
  omega

def bodyStop (t : Transaction) : Nat := (t.front ++ t.counted ++ t.extensions.encode).length

def review (t : Transaction) : Review where
  cards :=
    ⟨.author, t.signer.address t.entry.specs.addressFormat, 0, ⟨0, t.front.length⟩, []⟩ ::
      t.callCard :: t.extensions.cards t.entry.specs ++
      [⟨.network, t.entry.specs.name, 0, ⟨t.bodyStop, t.encode.length⟩, []⟩]
  request := .sign ⟨t.signer, t.network, .transaction, signable t.signed⟩

/-- The parts fit together, and the metadata is that of their version. -/
structure Accepted (t : Transaction) (source : MetadataSource) (l : Limits) : Prop where
  scheme : t.entry.specs.scheme = t.signer.scheme
  entry : source.entry t.network (UInt32.ofNat t.extensions.specVersion.value) = .ok t.entry
  genesis : t.extensions.genesis.value = t.network.bytes
  count : t.call.length < 256 ^ 16
  extensions : t.extensions.Reads (.across t.callStop t.extensions.encode)
  call : ReadsCall t.entry l t.front.length (.across t.callStart t.call) t.callCard

end Transaction

/-- The call and the extensions of a payload that is a transaction. -/
def signedPart (payload : Bytes) : Bytes :=
  let part : Except DecodeFailure Bytes := do
    let p ← readPrelude payload
    let f ← Framing.read payload p.scheme
    let (_, c) ← (f.body payload).count 1 0
    return (payload.take f.bodyStop).drop c.offset
  part.toOption.getD []

theorem exists_transaction {payload : Bytes} {scheme : Scheme} {source : MetadataSource} {l : Limits}
    {review : Review} (hp : readPrelude payload = .ok ⟨scheme, .transaction⟩)
    (h : readTransaction payload scheme source l = .ok review) :
    ∃ t : Transaction, t.Accepted source l ∧ payload = t.encode ∧ review = t.review ∧
      signedPart payload = t.signed := by
  simp only [readTransaction, bind_eq_ok, Prod.exists] at h
  obtain ⟨f, hf, n, c, hcount, x, hx, h⟩ := h
  have hpart : signedPart payload = (payload.take f.bodyStop).drop c.offset := by
    simp only [signedPart, hp, hf, hcount, bind, Except.bind, pure, Except.pure, Except.toOption,
      Option.getD_some]
  obtain ⟨hn, hc, hfits⟩ := Cursor.count_eq_ok.1 hcount
  clear hcount
  obtain ⟨rfl, front, body, hfront, -, hpayload, hstart, hstop⟩ := Framing.read_eq_ok.1 hf
  obtain rfl : front = Prelude.encode ⟨f.signer.scheme, .transaction⟩ := by
    obtain ⟨rest, hrest⟩ := (readPrelude_eq_ok.1 hp).2
    rw [hpayload, List.append_assoc, List.append_assoc] at hrest
    exact (List.append_inj hrest hfront).1
  generalize hA : Prelude.encode ⟨f.signer.scheme, .transaction⟩ ++ f.signer.bytes = A at *
  have hbody : f.body payload = .across A.length body :=
    Framing.body_eq_across hpayload hstart hstop
  rw [hbody] at hc h
  -- the body is the length of the call, the call, and the extensions
  have hlong : n ≤ c.rest.length := by
    rw [if_neg Nat.one_ne_zero, Nat.mul_one, c.remaining_eq] at hfits
    exact hfits
  obtain ⟨call, behind, hcall, rfl⟩ : ∃ call behind, c.rest = call ++ behind ∧ call.length = n :=
    ⟨_, _, (List.take_append_drop n c.rest).symm, by rw [List.length_take, Nat.min_eq_left hlong]⟩
  generalize hN : Wire.Compact.encode call.length = N at *
  have hoffset : c.offset = (A ++ N).length := by
    rw [hc.offset, List.length_append]
    rfl
  obtain rfl : body = N ++ call ++ behind := by
    rw [List.append_assoc, ← hcall]
    exact hc.rest
  rw [← List.append_assoc A] at hpayload hstop
  have hcallStop : c.offset + call.length = (A ++ (N ++ call)).length := by
    rw [hoffset, ← List.append_assoc]
    exact (List.length_append ..).symm
  have hbehind : Cursor.region payload (c.offset + call.length) f.bodyStop =
      .across (A ++ (N ++ call)).length behind := by
    rw [hcallStop, hstop, hpayload]
    exact Cursor.region_append ..
  have hregion : Cursor.region payload c.offset (c.offset + call.length) =
      .across (A ++ N).length call := by
    rw [hcallStop, hoffset, hpayload]
    simpa only [List.append_assoc] using Cursor.region_append (A ++ N) call (behind ++ f.network.bytes)
  rw [hbehind] at hx
  have hreads := Extensions.reads hx
  obtain rfl : behind = x.encode := hreads.rest
  have hsigned : (payload.take f.bodyStop).drop c.offset = call ++ x.encode := by
    rw [hpayload, hstop, List.take_left, hoffset, ← List.append_assoc A, List.append_assoc,
      List.drop_left]
  split at h
  · next m hm =>
    cases m <;> cases h
  · next e he =>
    simp only [bind_eq_ok, hregion, hsigned] at h
    obtain ⟨_, hscheme, h⟩ := h
    split at h
    · cases h
    · next hgenesis =>
      obtain ⟨card, hcard, h⟩ := bind_eq_ok.1 h
      obtain rfl := pure_eq_ok.1 h
      subst hA hN
      have hcallStart : (Transaction.callStart ⟨f.signer, f.network, call, x, e, card⟩) =
          (Prelude.encode ⟨f.signer.scheme, .transaction⟩ ++ f.signer.bytes ++
            Wire.Compact.encode call.length).length :=
        (List.length_append ..).symm
      refine ⟨⟨f.signer, f.network, call, x, e, card⟩, ⟨?_, he, ?_, hn, hreads, ?_⟩, hpayload, ?_,
        hpart.trans hsigned⟩
      · exact Framing.checkScheme_eq_ok.1 hscheme
      · exact not_ne_iff.1 hgenesis
      · rw [hcallStart]
        exact readCall_eq_ok.1 hcard
      · rw [Framing.authorCard, Framing.networkCard, hstart, hstop, hpayload]
        rfl

theorem exists_of_decodeKind {payload : Bytes} {source : MetadataSource} {l : Limits}
    {review : Review} (h : decodeKind .transaction payload source l = .ok review) :
    ∃ t : Transaction, t.Accepted source l ∧ payload = t.encode ∧ review = t.review ∧
      signedPart payload = t.signed := by
  obtain ⟨⟨scheme, hp⟩, h⟩ := decodeKind_eq_ok.1 h
  obtain ⟨p, hp', h⟩ := decodeRequest_eq_ok.1 h
  obtain rfl := Except.ok.inj (hp.symm.trans hp')
  rcases h with ⟨-, h⟩ | ⟨hk, -⟩ | ⟨hk, -⟩
  · exact exists_transaction hp h
  · cases hk
  · cases hk

/-! ### A small network

One pallet with one call, and a transaction that calls it. -/

def sampleMetadata : Metadata where
  specVersion := 1
  specs := ⟨"Sample", 42, 10, "UNIT", .ed25519⟩
  types := #[⟨"u8", .primitive .u8⟩, ⟨"Call", .variant [⟨0, "remark", [⟨some "byte", none, 0⟩]⟩]⟩]
  pallets := [⟨"System", 0, some 1⟩]

theorem minSizes_sampleMetadata : sampleMetadata.types.minSizes = .ok #[1, 2] := by
  have hsizes : sampleMetadata.types.sizes = #[some 1, some 2] := by decide
  simp [TypeTable.minSizes, hsizes, List.findIdx?_cons]

def sampleEntry : Entry where
  network := .fit 32 [7]
  metadata := sampleMetadata
  minSizes := #[1, 2]
  fault_eq := by decide
  sizes_eq := minSizes_sampleMetadata

def sampleRegistry : Registry := ⟨⟨[(⟨sampleEntry.network, 1⟩, sampleEntry)]⟩⟩

def sampleTransaction : Transaction where
  signer := .ed25519 (.fit 32 [1])
  network := sampleEntry.network
  call := [0, 0, 5]
  extensions := {
    era := ⟨.immortal, ⟨39, 40⟩⟩
    nonce := ⟨0, ⟨40, 41⟩⟩
    tip := ⟨0, ⟨41, 42⟩⟩
    specVersion := ⟨1, ⟨42, 46⟩⟩
    txVersion := ⟨1, ⟨46, 50⟩⟩
    genesis := ⟨sampleEntry.network.bytes, ⟨50, 82⟩⟩
    block := ⟨sampleEntry.network.bytes, ⟨82, 114⟩⟩ }
  entry := sampleEntry
  callCard := ⟨.pallet, "System", 0, ⟨35, 37⟩, [⟨.method, "remark", 1, ⟨37, 38⟩,
    [⟨.fieldName, "byte", 2, ⟨38, 38⟩, [⟨.number, "5", 3, ⟨38, 39⟩, []⟩]⟩]⟩]⟩

set_option maxRecDepth 4096 in
theorem decodeRequest_sampleTransaction :
    decodeRequest sampleTransaction.encode sampleRegistry.source {} =
      .ok sampleTransaction.review := by
  rfl

set_option maxRecDepth 4096 in
theorem decodeKind_sampleTransaction :
    decodeKind .transaction sampleTransaction.encode sampleRegistry.source {} =
      .ok sampleTransaction.review := by
  rfl

end ColdSigner.Review
