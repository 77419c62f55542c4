import ColdSigner.Proofs.Review.Transaction

/-! What is signed has one reading.

The bytes that are signed leave out where the call ends. It ends where its reader
says: readers of values are prefix-free, so that of two reads of one shape, from
bytes one of which may go on behind the other, both take the same bytes. The
reader itself is known from the bytes that stand last, which name the network and
the version of the runtime. -/
namespace ColdSigner

/-- Cards without bytes that were left unread. -/
def Card.Known (cards : List Card) : Prop :=
  ∀ c ∈ Card.allListed cards, c.kind ≠ .unknownVariant ∧ c.kind ≠ .raw

namespace Card.Known

variable {c : Card} {cards rest : List Card}

theorem cons_iff : Card.Known (c :: rest) ↔
    (c.kind ≠ .unknownVariant ∧ c.kind ≠ .raw) ∧ Card.Known c.children ∧ Card.Known rest := by
  simp only [Known, allListed_cons, List.forall_mem_cons, List.forall_mem_append]

theorem of_mem (h : Card.Known cards) (hc : c ∈ cards) : Card.Known [c] := by
  obtain ⟨front, behind, rfl⟩ := List.append_of_mem hc
  intro d hd
  refine h d ?_
  rw [allListed_cons, allListed_nil, List.append_nil, List.mem_cons] at hd
  simp only [allListed_append, allListed_cons, List.mem_append, List.mem_cons]
  rcases hd with rfl | hd
  · exact .inr (.inl rfl)
  · exact .inr (.inr (.inl hd))

end Card.Known

namespace Review

/-! ### Values -/

/-- The bytes of a leaf end where it says. -/
theorem LeafForm.prefixFree {specs : NetworkSpecs} {shows : Shows} (form : LeafForm specs shows)
    {a b s t : Bytes} {kind kind' : CardKind} {value value' : String} (ha : shows a kind value)
    (hb : shows b kind' value') (h : a ++ s = b ++ t) : a = b := by
  cases form with
  | text =>
    obtain ⟨-, hn, rfl⟩ := ha
    obtain ⟨-, hm, rfl⟩ := hb
    rw [List.append_assoc, List.append_assoc] at h
    obtain ⟨hlength, h⟩ := Wire.Compact.encode_append_inj hn hm h
    rw [hlength, (List.append_inj h hlength).1]
  | primitive => exact (List.append_inj h (ha.1.trans hb.1.symm)).1
  | compact =>
    obtain ⟨n, hn, -, rfl, -⟩ := ha
    obtain ⟨m, hm, -, rfl, -⟩ := hb
    rw [(Wire.Compact.encode_append_inj hn hm h).1]
  | account => exact (List.append_inj h (ha.1.trans hb.1.symm)).1
  | hash => exact (List.append_inj h (ha.1.trans hb.1.symm)).1
  | bytes => exact (List.append_inj h (ha.1.trans hb.1.symm)).1
  | counted =>
    obtain ⟨d, hn, rfl, -⟩ := ha
    obtain ⟨d', hm, rfl, -⟩ := hb
    rw [List.append_assoc, List.append_assoc] at h
    obtain ⟨hlength, h⟩ := Wire.Compact.encode_append_inj hn hm h
    rw [hlength, (List.append_inj h hlength).1]

/-- The head of a branch ends where it says, and tells what follows. -/
theorem BranchForm.prefixFree {e : Entry} {openings : Opening → Prop}
    {unknown : Bytes → String → Prop} (form : BranchForm e openings unknown) {o o' : Opening}
    {s t : Bytes} (ho : openings o) (ho' : openings o') (h : o.head ++ s = o'.head ++ t) : o = o' := by
  cases form with
  | container => exact ho.trans ho'.symm
  | sequence limit size part =>
    obtain ⟨n, hn, -, rfl⟩ := ho
    obtain ⟨m, hm, -, rfl⟩ := ho'
    rw [(Wire.Compact.encode_append_inj hn hm h).1]
  | array limit size n part => exact ho.2.trans ho'.2.symm
  | variant type definition hint parts =>
    obtain ⟨index, v, hv, rfl⟩ := ho
    obtain ⟨index', v', hv', rfl⟩ := ho'
    obtain ⟨rfl, -⟩ := List.cons.inj h
    obtain rfl := Option.some.inj (hv.symm.trans hv')
    rfl

/-- Of two reads that leave nothing unread, from bytes that agree as far as they go,
both take the same bytes. -/
def PrefixFree (read : ReadCard) : Prop :=
  ∀ p p' q q' c d s t, p.halted = false → q.halted = false → read p = .ok (c, p') →
    read q = .ok (d, q') → Card.Known [c] → Card.Known [d] → p.cursor.rest ++ s = q.cursor.rest ++ t →
    ∃ b, p.cursor.Consumes b p'.cursor ∧ q.cursor.Consumes b q'.cursor ∧
      p'.halted = false ∧ q'.halted = false

/-- What agrees still agrees behind the same bytes. -/
theorem rest_agree {c c' d d' : Cursor} {b s t : Bytes} (h : c.Consumes b c') (h' : d.Consumes b d')
    (same : c.rest ++ s = d.rest ++ t) : c'.rest ++ s = d'.rest ++ t := by
  rw [h.rest, h'.rest, List.append_assoc, List.append_assoc] at same
  exact List.append_cancel_left same

theorem InOrder.prefixFree {readers : List ReadCard} {p p' q q' : Place} {cards others : List Card}
    {s t : Bytes} (h : InOrder readers p cards p') (h' : InOrder readers q others q')
    (hreaders : ∀ r ∈ readers, PrefixFree r) (going : p.halted = false) (going' : q.halted = false)
    (known : Card.Known cards) (known' : Card.Known others)
    (same : p.cursor.rest ++ s = q.cursor.rest ++ t) :
    ∃ b, p.cursor.Consumes b p'.cursor ∧ q.cursor.Consumes b q'.cursor ∧
      p'.halted = false ∧ q'.halted = false := by
  induction h generalizing q others with
  | done p =>
    cases h' with
    | done => exact ⟨[], .refl _, .refl _, going, going'⟩
    | halted => exact ⟨[], .refl _, .refl _, going, going'⟩
  | halted ended => exact absurd ended (by simp [going])
  | read _ first _ ih =>
    cases h' with
    | halted ended => exact absurd ended (by simp [going'])
    | read _ first' others' =>
      obtain ⟨a, ha, ha', hp, hq⟩ := hreaders _ (List.mem_cons_self ..) _ _ _ _ _ _ _ _ going going'
        first first' (known.of_mem (List.mem_cons_self ..)) (known'.of_mem (List.mem_cons_self ..)) same
      obtain ⟨b, hb, hb', hend, hend'⟩ := ih others' (fun r hr => hreaders r (List.mem_cons_of_mem _ hr))
        hp hq (Card.Known.cons_iff.1 known).2.2 (Card.Known.cons_iff.1 known').2.2
        (rest_agree ha ha' same)
      exact ⟨a ++ b, ha.trans hb, ha'.trans hb', hend, hend'⟩

theorem ValueReader.prefixFree {e : Entry} {indent : Nat} {read : ReadCard}
    (h : ValueReader e indent read) : PrefixFree read := by
  induction h with
  | never fails => exact fun p p' q q' c d s t _ _ hr => absurd hr (fails p (c, p'))
  | leaf form reads =>
    intro p p' q q' c d s t going going' hr hr' _ _ same
    obtain ⟨b, kind, value, hshows, hb, hp, rfl⟩ := (reads p c p').1 hr
    obtain ⟨b', kind', value', hshows', hb', hq, rfl⟩ := (reads q d q').1 hr'
    rw [hb.rest, hb'.rest, List.append_assoc, List.append_assoc] at same
    obtain rfl := form.prefixFree hshows hshows' same
    exact ⟨b, hb, hb', hp.trans going, hq.trans going'⟩
  | branch form reads parts ih =>
    intro p p' q q' c d s t going going' hr hr' known known' same
    rcases (reads p c p' going).1 hr with
      ⟨o, pd, children, ho, hhead, -, hparts, rfl⟩ | ⟨_, _, _, -, -, -, rfl⟩
    · rcases (reads q d q' going').1 hr' with
        ⟨o', qd, children', ho', hhead', -, hparts', rfl⟩ | ⟨_, _, _, -, -, -, rfl⟩
      · have hheads := same
        rw [hhead.rest, hhead'.rest, List.append_assoc, List.append_assoc] at hheads
        obtain rfl := form.prefixFree ho ho' hheads
        obtain ⟨b, hb, hb', hend, hend'⟩ := hparts.prefixFree hparts' (ih o ho) rfl rfl
          (Card.Known.cons_iff.1 known).2.1 (Card.Known.cons_iff.1 known').2.1
          (rest_agree hhead hhead' same)
        exact ⟨o.head ++ b, hhead.trans hb, hhead'.trans hb', hend, hend'⟩
      · exact absurd rfl (Card.Known.cons_iff.1 known').1.1
    · exact absurd rfl (Card.Known.cons_iff.1 known).1.1

/-! ### Transactions -/

/-- A call ends where its reader says. -/
theorem ReadsCall.prefixFree {e : Entry} {l : Limits} {start start' : Nat} {c c' : Cursor}
    {card card' : Card} {s t : Bytes} (h : ReadsCall e l start c card)
    (h' : ReadsCall e l start' c' card') (known : Card.Known [card]) (known' : Card.Known [card'])
    (same : c.rest ++ s = c'.rest ++ t) : c.rest = c'.rest := by
  cases h with
  | unknown =>
    have hraw := (Card.Known.cons_iff.1 known).2.1
    exact absurd rfl (Card.Known.cons_iff.1 hraw).1.2
  | known first selected reads callable done =>
    cases h' with
    | unknown =>
      have hraw := (Card.Known.cons_iff.1 known').2.1
      exact absurd rfl (Card.Known.cons_iff.1 hraw).1.2
    | known first' selected' reads' callable' done' =>
      have hheads := same
      rw [first.rest, first'.rest] at hheads
      obtain ⟨rfl, -⟩ := List.cons.inj hheads
      obtain rfl := Option.some.inj (selected.symm.trans selected')
      obtain rfl := Option.some.inj (callable.symm.trans callable')
      obtain ⟨b, hb, hb', -⟩ := (valueReader ..).prefixFree _ _ _ _ _ _ _ _ rfl rfl reads reads'
        (Card.Known.cons_iff.1 known).2.1 (Card.Known.cons_iff.1 known').2.1
        (rest_agree first first' same)
      rw [(first.trans hb).rest, (first'.trans hb').rest, done, done']

/-- The bytes that stand last in what is signed name the version and the network. -/
theorem Extensions.Reads.tail_inj {x y : Extensions} {c d : Cursor} {a b : Bytes} (hx : x.Reads c)
    (hy : y.Reads d) (h : a ++ x.encode = b ++ y.encode) :
    x.specVersion.value = y.specVersion.value ∧ x.genesis.value = y.genesis.value := by
  simp only [encode, ← List.append_assoc] at h
  obtain ⟨h, -⟩ := List.append_inj' h (hx.block.trans hy.block.symm)
  obtain ⟨h, hgenesis⟩ := List.append_inj' h (hx.genesis.trans hy.genesis.symm)
  obtain ⟨h, -⟩ := List.append_inj' h (by rw [Bytes.length_ofNat, Bytes.length_ofNat])
  obtain ⟨-, hspec⟩ := List.append_inj' h (by rw [Bytes.length_ofNat, Bytes.length_ofNat])
  refine ⟨?_, hgenesis⟩
  rw [← Bytes.toNat_ofNat_of_lt hx.specVersion, hspec, Bytes.toNat_ofNat_of_lt hy.specVersion]

/-- More than a hash is signed of every transaction that is not hashed. -/
theorem Transaction.Accepted.length_signed {t : Transaction} {source : MetadataSource} {l : Limits}
    (h : t.Accepted source l) : hashLength < t.signed.length := by
  have hgenesis := h.extensions.genesis
  have hblock := h.extensions.block
  have hhash : hashLength = 32 := rfl
  simp only [signed, Extensions.encode, List.length_append]
  omega

/-- Equal bytes were both hashed or neither of them. -/
theorem signable_inj {a b : Bytes} (ha : hashLength < a.length) (hb : hashLength < b.length)
    (h : signable a = signable b) :
    (maxUnhashedLength < a.length ↔ maxUnhashedLength < b.length) ∧
      ((maxUnhashedLength < a.length → maxUnhashedLength < b.length →
        Blake2b.hash 32 a = Blake2b.hash 32 b → a = b) → a = b) := by
  have hlength (c : Bytes) : (Blake2b.hash 32 c).bytes.length = hashLength := FixedBytes.length_eq _
  unfold signable at h
  split at h <;> split at h
  · next hla hlb => exact ⟨iff_of_true hla hlb, fun nocollision => nocollision hla hlb (FixedBytes.ext h)⟩
  · have hl := congrArg List.length h
    rw [hlength] at hl
    omega
  · have hl := congrArg List.length h
    rw [hlength] at hl
    omega
  · next hla hlb => exact ⟨iff_of_false hla hlb, fun _ => h⟩

/-- Transactions of one signer that agree in what is signed, hash or not, agree in
everything, provided that nothing was left unread. -/
theorem Transaction.Accepted.eq_of_signed {t s : Transaction} {source : MetadataSource} {l : Limits}
    (ht : t.Accepted source l) (hs : s.Accepted source l) (hsigner : t.signer = s.signer)
    (known : Card.Known t.review.cards) (known' : Card.Known s.review.cards)
    (same : t.signed = s.signed) : t.encode = s.encode := by
  obtain ⟨hspec, hgenesis⟩ := ht.extensions.tail_inj hs.extensions same
  have hnetwork : t.network = s.network := FixedBytes.ext <| by
    rw [← ht.genesis, ← hs.genesis, hgenesis]
  have hentry : t.entry = s.entry := by
    have he := ht.entry
    rw [hnetwork, hspec, hs.entry] at he
    exact (Except.ok.inj he).symm
  have hmem (u : Transaction) : u.callCard ∈ u.review.cards :=
    List.mem_cons_of_mem _ (List.mem_cons_self ..)
  have hcall : t.call = s.call := by
    have hread := ht.call
    rw [hentry] at hread
    exact hread.prefixFree hs.call (known.of_mem (hmem t)) (known'.of_mem (hmem s)) same
  have hextensions : t.extensions.encode = s.extensions.encode := by
    rw [signed, signed, hcall] at same
    exact List.append_cancel_left same
  simp only [encode, front, counted, hsigner, hnetwork, hcall, hextensions]

/-- What is signed has one reading: bytes that were hashed are never those of a
transaction that was not, and without a collision of hashes they tell the payload
and the cards of everything that was understood. -/
theorem signed_bytes_have_one_reading (r : Registry) (l : Limits) (p q : Bytes) (a b : Review)
    (x y : SigningRequest) (hp : decodeKind .transaction p r.source l = .ok a)
    (hq : decodeKind .transaction q r.source l = .ok b) (hx : a.request = .sign x)
    (hy : b.request = .sign y) (signer : x.signer = y.signer) (signed : x.payload = y.payload) :
    (maxUnhashedLength < (signedPart p).length ↔ maxUnhashedLength < (signedPart q).length) ∧
      ((maxUnhashedLength < (signedPart p).length → maxUnhashedLength < (signedPart q).length →
          Blake2b.hash 32 (signedPart p) = Blake2b.hash 32 (signedPart q) →
            signedPart p = signedPart q) →
        Card.Known a.cards → Card.Known b.cards → p = q ∧ a.cards = b.cards) := by
  obtain ⟨t, ht, rfl, rfl, hpart⟩ := exists_of_decodeKind hp
  obtain ⟨s, hs, rfl, rfl, hpart'⟩ := exists_of_decodeKind hq
  obtain rfl := Request.sign.inj hx
  obtain rfl := Request.sign.inj hy
  rw [hpart, hpart']
  obtain ⟨hhashed, hsame⟩ := signable_inj ht.length_signed hs.length_signed signed
  refine ⟨hhashed, fun nocollision known known' => ?_⟩
  have hpayload := ht.eq_of_signed hs signer known known' (hsame nocollision)
  refine ⟨hpayload, ?_⟩
  rw [hpayload] at hp
  rw [Except.ok.inj (hp.symm.trans hq)]

theorem sample_has_one_reading :
    Card.Known sampleTransaction.review.cards ∧
      (maxUnhashedLength < (signedPart sampleTransaction.encode).length ↔
        maxUnhashedLength < (signedPart sampleTransaction.encode).length) ∧
      sampleTransaction.encode = sampleTransaction.encode ∧
      sampleTransaction.review.cards = sampleTransaction.review.cards := by
  have known : Card.Known sampleTransaction.review.cards := by
    simp [Card.Known, Transaction.review, Extensions.cards, sampleTransaction]
  obtain ⟨hhashed, hsame⟩ := signed_bytes_have_one_reading sampleRegistry {} _ _ _ _ _ _
    decodeKind_sampleTransaction decodeKind_sampleTransaction rfl rfl rfl rfl
  exact ⟨known, hhashed, hsame (fun _ _ _ => rfl) known known⟩

end Review

end ColdSigner
