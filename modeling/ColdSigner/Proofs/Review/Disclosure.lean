import ColdSigner.Proofs.Key.Addresses
import ColdSigner.Proofs.Review.Transaction
import ColdSigner.Proofs.Text.Amounts
import Mathlib.Data.List.Nodup
import Std.Data.String.ToInt

/-! What is shown is what is signed.

Cards show their bytes without loss: of two reads of one shape that show the same
content, both took the same bytes. The cards of a transaction also tell the
metadata they were made with, so they tell the whole payload. -/
namespace ColdSigner

/-- What a card shows, wherever its bytes stand. -/
inductive Content where
  | card (kind : CardKind) (value : String) (indent : Nat) (below : List Content)

mutual

def Card.content : Card → Content
  | ⟨kind, value, indent, _, children⟩ => .card kind value indent (Card.contents children)

def Card.contents : List Card → List Content
  | [] => []
  | c :: rest => c.content :: Card.contents rest

end

namespace Card

@[simp] theorem contents_nil : contents [] = [] := by rw [contents]

@[simp] theorem contents_cons (c : Card) (rest : List Card) :
    contents (c :: rest) = c.content :: contents rest := by rw [contents]

@[simp] theorem content_mk (kind : CardKind) (value : String) (indent : Nat) (span : Span)
    (children : List Card) :
    content ⟨kind, value, indent, span, children⟩ = .card kind value indent (contents children) := by
  rw [content]

end Card

/-- Variants of one type have names of their own, and so have pallets. -/
structure Entry.NamesDistinct (e : Entry) : Prop where
  variants : ∀ t ∈ e.types, ∀ variants, t.definition = .variant variants →
    (variants.map (·.name)).Nodup
  pallets : (e.pallets.map (·.name)).Nodup

theorem Registry.mem_values_of_get {r : Registry} {network : NetworkId} {version : UInt32} {e : Entry}
    (h : r.get network version = .ok e) : e ∈ r.entries.values := by
  unfold get at h
  split at h
  · next e' he =>
    obtain rfl := Except.ok.inj h
    obtain ⟨entry, hfind, rfl⟩ := Option.map_eq_some_iff.1 he
    exact List.mem_map_of_mem (List.mem_of_find?_eq_some hfind)
  · split at h <;> cases h

namespace Review

/-! ### Leaves -/

theorem showNumber_injective {specs : NetworkSpecs} {hint : Hint} {v w : Nat}
    (h : showNumber specs hint v = showNumber specs hint w) : v = w := by
  cases hint with
  | balance => exact Amount.render_injective (Prod.mk.inj h).2
  | plain => exact Nat.repr_injective (Prod.mk.inj h).2
  | call => exact Nat.repr_injective (Prod.mk.inj h).2

theorem signedNumber_injective {a b : Bytes} (hl : a.length = b.length)
    (h : signedNumber a = signedNumber b) : a.toNat = b.toNat := by
  have ha := a.toNat_lt
  have hb := b.toNat_lt
  dsimp only [signedNumber] at h
  rw [hl] at h ha
  change a.toNat < Nat.pow 256 b.length at ha
  change b.toNat < Nat.pow 256 b.length at hb
  split at h <;> split at h <;> omega

theorem showPrimitive_signed {specs : NetworkSpecs} {hint : Hint} {t : Primitive} (b : Bytes)
    (hs : t.isSigned = true) :
    showPrimitive specs hint t b = .ok (.number, toString (signedNumber b)) := by
  cases t <;> first | rfl | cases hs

theorem showPrimitive_unsigned {specs : NetworkSpecs} {hint : Hint} {t : Primitive} (b : Bytes)
    (hs : t.isSigned = false) (hbool : t ≠ .bool) (hchar : t ≠ .char) :
    showPrimitive specs hint t b = .ok (showNumber specs hint b.toNat) := by
  cases t <;> first | rfl | exact absurd rfl hbool | exact absurd rfl hchar | cases hs

theorem showPrimitive_bool {specs : NetworkSpecs} {hint : Hint} {b : Bytes} {s : CardKind × String}
    (h : showPrimitive specs hint .bool b = .ok s) :
    (b.toNat = 0 ∧ s = (.bool, "false")) ∨ (b.toNat = 1 ∧ s = (.bool, "true")) := by
  dsimp only [showPrimitive] at h
  split at h
  · next h0 => exact .inl ⟨h0, (Except.ok.inj h).symm⟩
  · next h1 => exact .inr ⟨h1, (Except.ok.inj h).symm⟩
  · cases h

theorem showPrimitive_char {specs : NetworkSpecs} {hint : Hint} {b : Bytes} {s : CardKind × String}
    (h : showPrimitive specs hint .char b = .ok s) :
    ∃ c : Char, c.toNat = b.toNat ∧ s = (.char, String.ofList [c]) := by
  dsimp only [showPrimitive] at h
  split at h
  · next hvalid =>
    have hc : (Char.ofNat b.toNat).toNat = b.toNat := by
      rw [Char.ofNat, dif_pos hvalid]
      rfl
    exact ⟨Char.ofNat b.toNat, hc, (Except.ok.inj h).symm⟩
  · cases h

theorem showPrimitive_injective {specs : NetworkSpecs} {hint : Hint} {t : Primitive} {a b : Bytes}
    {s : CardKind × String} (hl : a.length = b.length) (ha : showPrimitive specs hint t a = .ok s)
    (hb : showPrimitive specs hint t b = .ok s) : a = b := by
  refine Bytes.toNat_injective hl ?_
  by_cases hbool : t = .bool
  · subst hbool
    rcases showPrimitive_bool ha with ⟨h, rfl⟩ | ⟨h, rfl⟩ <;>
      rcases showPrimitive_bool hb with ⟨h', hs⟩ | ⟨h', hs⟩
    · rw [h, h']
    · exact absurd hs (by decide)
    · exact absurd hs (by decide)
    · rw [h, h']
  · by_cases hchar : t = .char
    · subst hchar
      obtain ⟨c, hc, rfl⟩ := showPrimitive_char ha
      obtain ⟨d, hd, hs⟩ := showPrimitive_char hb
      obtain ⟨rfl, -⟩ := List.cons.inj (String.ofList_injective (Prod.mk.inj hs).2)
      rw [← hc, hd]
    · cases hsigned : t.isSigned with
      | true =>
        rw [showPrimitive_signed _ hsigned] at ha hb
        have hs := Except.ok.inj (ha.trans hb.symm)
        exact signedNumber_injective hl (Int.repr_injective (Prod.mk.inj hs).2)
      | false =>
        rw [showPrimitive_unsigned _ hsigned hbool hchar] at ha hb
        exact showNumber_injective (Except.ok.inj (ha.trans hb.symm))

theorem showNumber_kind (specs : NetworkSpecs) (hint : Hint) (v : Nat) :
    (showNumber specs hint v).1 ≠ .unknownVariant ∧ (showNumber specs hint v).1 ≠ .raw := by
  cases hint <;> simp [showNumber]

theorem showPrimitive_kind {specs : NetworkSpecs} {hint : Hint} {t : Primitive} {b : Bytes}
    {s : CardKind × String} (h : showPrimitive specs hint t b = .ok s) :
    s.1 ≠ .unknownVariant ∧ s.1 ≠ .raw := by
  by_cases hbool : t = .bool
  · subst hbool
    rcases showPrimitive_bool h with ⟨-, rfl⟩ | ⟨-, rfl⟩ <;> simp
  · by_cases hchar : t = .char
    · subst hchar
      obtain ⟨c, -, rfl⟩ := showPrimitive_char h
      simp
    · cases hsigned : t.isSigned with
      | true =>
        rw [showPrimitive_signed _ hsigned] at h
        obtain rfl := Except.ok.inj h
        simp
      | false =>
        rw [showPrimitive_unsigned _ hsigned hbool hchar] at h
        obtain rfl := Except.ok.inj h
        exact showNumber_kind specs hint b.toNat

/-- Unknown indices and raw bytes are no values. -/
theorem LeafForm.kind_ne {specs : NetworkSpecs} {shows : Shows} (form : LeafForm specs shows)
    {b : Bytes} {kind : CardKind} {value : String} (h : shows b kind value) :
    kind ≠ .unknownVariant ∧ kind ≠ .raw := by
  cases form with
  | text =>
    obtain ⟨rfl, -, -⟩ := h
    decide
  | primitive => exact showPrimitive_kind h.2
  | compact hint =>
    obtain ⟨n, -, -, -, hn⟩ := h
    have hkind := showNumber_kind specs hint n
    rwa [hn] at hkind
  | account =>
    obtain ⟨-, rfl, -⟩ := h
    decide
  | hash =>
    obtain ⟨-, rfl, -⟩ := h
    decide
  | bytes =>
    obtain ⟨-, rfl, -⟩ := h
    decide
  | counted =>
    obtain ⟨d, -, -, rfl, -⟩ := h
    decide

/-- A leaf tells its bytes. -/
theorem LeafForm.injective {specs : NetworkSpecs} {shows : Shows} (form : LeafForm specs shows)
    {a b : Bytes} {kind : CardKind} {value : String} (ha : shows a kind value)
    (hb : shows b kind value) : a = b := by
  cases form with
  | text =>
    obtain ⟨-, -, rfl⟩ := ha
    exact hb.2.2.symm
  | primitive hint width => exact showPrimitive_injective (ha.1.trans hb.1.symm) ha.2 hb.2
  | compact hint limit =>
    obtain ⟨v, -, -, rfl, hv⟩ := ha
    obtain ⟨w, -, -, rfl, hw⟩ := hb
    rw [showNumber_injective (hv.trans hw.symm)]
  | account =>
    obtain ⟨-, -, hv⟩ := ha
    obtain ⟨-, -, hw⟩ := hb
    exact (Address.encode_eq_iff.1 (hv.symm.trans hw)).2.2
  | hash =>
    obtain ⟨-, -, hv⟩ := ha
    obtain ⟨-, -, hw⟩ := hb
    exact Hex.show0x_injective (hv.symm.trans hw)
  | bytes n =>
    obtain ⟨-, -, hv⟩ := ha
    obtain ⟨-, -, hw⟩ := hb
    exact Hex.show0x_injective (hv.symm.trans hw)
  | counted =>
    obtain ⟨d, -, rfl, -, hv⟩ := ha
    obtain ⟨d', -, rfl, -, hw⟩ := hb
    rw [Hex.show0x_injective (hv.symm.trans hw)]

/-! ### Branches -/

theorem itemCount_injective {n m : Nat} (h : itemCount n = itemCount m) : n = m :=
  Nat.repr_injective ((String.append_left_inj _).1 h)

theorem index_of_selected {variants : List Variant} {index : UInt8} {v : Variant}
    (h : selected? variants index = some v) : v ∈ variants ∧ v.index = index := by
  refine ⟨List.mem_of_find?_eq_some h, UInt8.toNat_inj.1 ?_⟩
  simpa using List.find?_some h

/-- An opening is told by its kind and value. -/
theorem BranchForm.opening_injective {e : Entry} {openings : Opening → Prop}
    {unknown : Bytes → String → Prop} (form : BranchForm e openings unknown)
    (names : e.NamesDistinct) {o o' : Opening} (ho : openings o) (ho' : openings o')
    (h : o.value = o'.value) : o = o' := by
  cases form with
  | container => exact ho.trans ho'.symm
  | sequence limit size part =>
    obtain ⟨n, -, -, rfl⟩ := ho
    obtain ⟨m, -, -, rfl⟩ := ho'
    rw [itemCount_injective h]
  | array limit size n part => exact ho.2.trans ho'.2.symm
  | variant type definition hint parts =>
    obtain ⟨index, v, hv, rfl⟩ := ho
    obtain ⟨index', v', hv', rfl⟩ := ho'
    obtain ⟨hmem, rfl⟩ := index_of_selected hv
    obtain ⟨hmem', rfl⟩ := index_of_selected hv'
    have hsame : v = v' := List.inj_on_of_nodup_map (names.variants _ type _ definition) hmem hmem' h
    rw [hsame]

/-- A head that selects nothing is told by its label. -/
theorem BranchForm.unknown_injective {e : Entry} {openings : Opening → Prop}
    {unknown : Bytes → String → Prop} (form : BranchForm e openings unknown) {a b : Bytes}
    {label : String} (ha : unknown a label) (hb : unknown b label) : a = b := by
  cases form with
  | container => exact ha.elim
  | sequence => exact ha.elim
  | array => exact ha.elim
  | variant =>
    obtain ⟨index, -, rfl, hlabel⟩ := ha
    obtain ⟨index', -, rfl, hlabel'⟩ := hb
    have hindex := (String.append_right_inj _).1 (hlabel.symm.trans hlabel')
    rw [UInt8.toNat_inj.1 (Nat.repr_injective hindex)]

/-- Heads that select something are not shown as those that do not. -/
theorem BranchForm.kind_ne {e : Entry} {openings : Opening → Prop}
    {unknown : Bytes → String → Prop} (form : BranchForm e openings unknown) {o : Opening}
    (ho : openings o) : o.kind ≠ .unknownVariant ∧ o.kind ≠ .raw := by
  cases form with
  | container known =>
    subst ho
    simp only [List.mem_cons, List.not_mem_nil, or_false] at known
    rcases known with rfl | rfl | rfl <;> simp
  | sequence =>
    obtain ⟨n, -, -, rfl⟩ := ho
    simp
  | array =>
    obtain ⟨-, rfl⟩ := ho
    simp
  | variant type definition hint parts =>
    obtain ⟨index, v, -, rfl⟩ := ho
    show (variantKind _ hint).1 ≠ _ ∧ (variantKind _ hint).1 ≠ _
    unfold variantKind
    split
    · simp
    · split <;> simp

/-! ### Values -/

/-- Two reads that show the same content took the same bytes. -/
def Tells (read : ReadCard) : Prop :=
  ∀ p p' q q' c d, p.halted = false → q.halted = false → read p = .ok (c, p') →
    read q = .ok (d, q') → c.content = d.content →
    ∃ b, p.cursor.Consumes b p'.cursor ∧ q.cursor.Consumes b q'.cursor ∧ p'.halted = q'.halted

theorem InOrder.tells {readers : List ReadCard} {p p' q q' : Place} {cards others : List Card}
    (h : InOrder readers p cards p') (h' : InOrder readers q others q')
    (hreaders : ∀ r ∈ readers, Tells r) (hhalted : p.halted = q.halted)
    (same : Card.contents cards = Card.contents others) :
    ∃ b, p.cursor.Consumes b p'.cursor ∧ q.cursor.Consumes b q'.cursor ∧ p'.halted = q'.halted := by
  induction h generalizing q others with
  | done p =>
    cases h' with
    | done => exact ⟨[], .refl _, .refl _, hhalted⟩
    | halted => exact ⟨[], .refl _, .refl _, hhalted⟩
  | halted ended =>
    cases h' with
    | done => exact ⟨[], .refl _, .refl _, hhalted⟩
    | halted => exact ⟨[], .refl _, .refl _, hhalted⟩
    | read => simp at same
  | read going first _ ih =>
    cases h' with
    | halted => simp at same
    | read going' first' others' =>
      simp only [Card.contents_cons, List.cons.injEq] at same
      obtain ⟨a, ha, ha', hnext⟩ :=
        hreaders _ (List.mem_cons_self ..) _ _ _ _ _ _ going going' first first' same.1
      obtain ⟨b, hb, hb', hend⟩ :=
        ih others' (fun r hr => hreaders r (List.mem_cons_of_mem _ hr)) hnext same.2
      exact ⟨a ++ b, ha.trans hb, ha'.trans hb', hend⟩

theorem ValueReader.tells {e : Entry} {indent : Nat} {read : ReadCard} (names : e.NamesDistinct)
    (h : ValueReader e indent read) : Tells read := by
  induction h with
  | never fails => exact fun p p' q q' c d _ _ hr => absurd hr (fails p (c, p'))
  | leaf form reads =>
    intro p p' q q' c d going going' hr hr' same
    obtain ⟨b, kind, value, hshows, hb, hp, rfl⟩ := (reads p c p').1 hr
    obtain ⟨b', kind', value', hshows', hb', hq, rfl⟩ := (reads q d q').1 hr'
    simp only [Card.content_mk, Content.card.injEq] at same
    obtain ⟨rfl, rfl, -, -⟩ := same
    obtain rfl := form.injective hshows hshows'
    exact ⟨b, hb, hb', by rw [hp, hq, going, going']⟩
  | branch form reads parts ih =>
    intro p p' q q' c d going going' hr hr' same
    rcases (reads p c p' going).1 hr with
      ⟨o, pd, children, ho, hhead, -, hparts, rfl⟩ | ⟨head, label, pd, hu, hhead, hended, rfl⟩
    · rcases (reads q d q' going').1 hr' with
        ⟨o', qd, children', ho', hhead', -, hparts', rfl⟩ | ⟨_, _, _, -, -, -, rfl⟩
      · simp only [Card.content_mk, Content.card.injEq] at same
        obtain ⟨-, hvalue, -, hchildren⟩ := same
        obtain rfl := form.opening_injective names ho ho' hvalue
        obtain ⟨b, hb, hb', hend⟩ := hparts.tells hparts' (ih o ho) rfl hchildren
        exact ⟨o.head ++ b, hhead.trans hb, hhead'.trans hb', hend⟩
      · simp only [Card.content_mk, unknownCard, Content.card.injEq] at same
        exact absurd same.1 (form.kind_ne ho).1
    · rcases (reads q d q' going').1 hr' with
        ⟨o', _, _, ho', -, -, -, rfl⟩ | ⟨head', label', qd, hu', hhead', hended', rfl⟩
      · simp only [Card.content_mk, unknownCard, Content.card.injEq] at same
        exact absurd same.1.symm (form.kind_ne ho').1
      · simp only [unknownCard, Card.content_mk, Card.contents_cons, Card.contents_nil,
          Content.card.injEq, List.cons.injEq] at same
        obtain ⟨-, rfl, -, ⟨-, hraw, -, -⟩, -⟩ := same
        obtain rfl := form.unknown_injective hu hu'
        have hrest := Hex.show0x_injective hraw
        refine ⟨head ++ pd.rest, hhead.trans hended.1, ?_, hended.2.trans hended'.2.symm⟩
        rw [hrest]
        exact hhead'.trans hended'.1

theorem ValueReader.kind_ne {e : Entry} {indent : Nat} {read : ReadCard}
    (h : ValueReader e indent read) {p q : Place} {c : Card} (going : p.halted = false)
    (hr : read p = .ok (c, q)) : c.kind ≠ .raw := by
  cases h with
  | never fails => exact absurd hr (fails p (c, q))
  | leaf form reads =>
    obtain ⟨b, kind, value, hshows, -, -, rfl⟩ := (reads p c q).1 hr
    exact (form.kind_ne hshows).2
  | branch form reads =>
    rcases (reads p c q going).1 hr with
      ⟨o, d, children, ho, -, -, -, rfl⟩ | ⟨head, label, d, -, -, -, rfl⟩
    · exact (form.kind_ne ho).2
    · simp [unknownCard]

/-! ### Transactions -/

/-- The card of a call tells the call. -/
theorem ReadsCall.tells {e : Entry} {l : Limits} {start start' : Nat} {c c' : Cursor}
    {card card' : Card} (names : e.NamesDistinct) (h : ReadsCall e l start c card)
    (h' : ReadsCall e l start' c' card') (same : card.content = card'.content) : c.rest = c'.rest := by
  cases h with
  | @known index d pallet calls method q first selected reads callable done =>
    cases h' with
    | @known index' d' pallet' calls' method' q' first' selected' reads' callable' done' =>
      simp only [Card.content_mk, Card.contents_cons, Card.contents_nil, Content.card.injEq,
        List.cons.injEq] at same
      obtain ⟨-, hname, -, hmethod, -⟩ := same
      have hindex : pallet.index = index := by simpa using List.find?_some selected
      have hindex' : pallet'.index = index' := by simpa using List.find?_some selected'
      obtain rfl : pallet = pallet' := List.inj_on_of_nodup_map names.pallets
        (List.mem_of_find?_eq_some selected) (List.mem_of_find?_eq_some selected') hname
      obtain rfl := hindex.symm.trans hindex'
      obtain rfl := Option.some.inj (callable.symm.trans callable')
      obtain ⟨b, hb, hb', -⟩ :=
        (valueReader ..).tells names _ _ _ _ _ _ rfl rfl reads reads' hmethod
      rw [(first.trans hb).rest, (first'.trans hb').rest, done, done']
    | unknown =>
      obtain ⟨kind, value, indent, span, children⟩ := method
      simp only [Card.content_mk, Card.contents_cons, Card.contents_nil, Content.card.injEq,
        List.cons.injEq] at same
      exact absurd same.2.2.2.1.1 ((valueReader ..).kind_ne rfl reads)
  | @unknown index d first =>
    cases h' with
    | @known _ _ _ _ method _ _ _ reads =>
      obtain ⟨kind, value, indent, span, children⟩ := method
      simp only [Card.content_mk, Card.contents_cons, Card.contents_nil, Content.card.injEq,
        List.cons.injEq] at same
      exact absurd same.2.2.2.1.1.symm ((valueReader ..).kind_ne rfl reads)
    | @unknown index' d' first' =>
      simp only [Card.content_mk, Card.contents_cons, Card.contents_nil, Content.card.injEq,
        List.cons.injEq] at same
      obtain ⟨-, hlabel, -, ⟨-, hraw, -, -⟩, -⟩ := same
      have hindex := UInt8.toNat_inj.1 (Nat.repr_injective ((String.append_right_inj _).1 hlabel))
      rw [first.rest, first'.rest, hindex, Hex.show0x_injective hraw]

theorem Era.text_injective {a b : Era} (h : a.text = b.text) : a = b := by
  have hlist := congrArg String.toList h
  cases a with
  | immortal =>
    cases b with
    | immortal => rfl
    | mortal period phase =>
      dsimp only [text] at hlist
      simp at hlist
  | mortal period phase =>
    cases b with
    | immortal =>
      dsimp only [text] at hlist
      simp at hlist
    | mortal period' phase' =>
      have hcomma : Char.isDigit ',' = false := by decide
      dsimp only [text] at hlist
      simp only [Nat.toString_eq_ofList_toDigits, String.toList_append, String.toList_ofList,
        List.append_assoc, List.append_cancel_left_eq] at hlist
      obtain ⟨hphase, hperiod⟩ := append_separator_inj (notMem_toDigits hcomma phase)
        (notMem_toDigits hcomma phase') hlist
      rw [toDigits_injective hphase, toDigits_injective ((List.append_right_inj _).1 hperiod)]

/-- The cards of two transactions that show the same content tell the same parts. -/
theorem Transaction.Accepted.eq_of_contents {t s : Transaction} {source : MetadataSource} {l : Limits}
    (ht : t.Accepted source l) (hs : s.Accepted source l) (names : t.entry.NamesDistinct)
    (same : Card.contents t.review.cards = Card.contents s.review.cards) :
    t.signer = s.signer ∧ t.network = s.network ∧ t.call = s.call ∧
      t.extensions.encode = s.extensions.encode := by
  simp only [review, Extensions.cards, List.cons_append, List.nil_append, Card.contents_cons,
    Card.contents_nil, Card.content_mk, Content.card.injEq, List.cons.injEq, and_true, true_and] at same
  obtain ⟨hauthor, hcall, hera, hnonce, htip, hspec, htx, hgenesis, hblock, hname⟩ := same
  have hgenesis := Hex.show0x_injective hgenesis
  have hnetwork : t.network = s.network := FixedBytes.ext <| by
    rw [← ht.genesis, ← hs.genesis, hgenesis]
  rw [hname] at hspec
  have hspec := Nat.repr_injective ((String.append_right_inj _).1 hspec)
  -- network and version lead to one entry
  have hentry : t.entry = s.entry := by
    have he := ht.entry
    rw [hnetwork, hspec, hs.entry] at he
    exact (Except.ok.inj he).symm
  rw [hentry] at hauthor htip names
  have hscheme : t.signer.scheme = s.signer.scheme := by
    rw [← ht.scheme, ← hs.scheme, hentry]
  have hsigner : t.signer = s.signer :=
    PublicKey.ext hscheme (Address.encode_eq_iff.1 hauthor).2.2
  refine ⟨hsigner, hnetwork, ?_, ?_⟩
  · have hcall' := ht.call
    rw [hentry] at hcall'
    exact hcall'.tells names hs.call hcall
  · rw [Extensions.encode, Extensions.encode, Era.text_injective hera, Nat.repr_injective hnonce,
      Amount.render_injective htip, hspec, Nat.repr_injective htx, hgenesis,
      Hex.show0x_injective hblock]

/-- The cards of a transaction tell its payload, and with it what is signed. -/
theorem cards_tell_transaction (r : Registry) (l : Limits) (p q : Bytes) (a b : Review)
    (names : ∀ e ∈ r.entries.values, e.NamesDistinct)
    (hp : decodeKind .transaction p r.source l = .ok a)
    (hq : decodeKind .transaction q r.source l = .ok b)
    (same : Card.contents a.cards = Card.contents b.cards) : p = q ∧ a.request = b.request := by
  obtain ⟨t, ht, rfl, rfl, -⟩ := exists_of_decodeKind hp
  obtain ⟨s, hs, rfl, rfl, -⟩ := exists_of_decodeKind hq
  have hmem : t.entry ∈ r.entries.values := r.mem_values_of_get ht.entry
  obtain ⟨hsigner, hnetwork, hcall, hextensions⟩ := ht.eq_of_contents hs (names _ hmem) same
  refine ⟨?_, ?_⟩
  · simp only [Transaction.encode, Transaction.front, Transaction.counted, hsigner, hnetwork, hcall,
      hextensions]
  · simp only [Transaction.review, Transaction.signed, hsigner, hnetwork, hcall, hextensions]

theorem sampleEntry_namesDistinct : sampleEntry.NamesDistinct where
  variants := by
    intro t ht variants hd
    obtain rfl | rfl : t = _ ∨ t = _ := by simpa [sampleEntry, Entry.types, sampleMetadata] using ht
    · cases hd
    · obtain rfl := TypeDef.variant.inj hd
      decide
  pallets := by decide

theorem sample_cards_tell_transaction :
    (∀ e ∈ sampleRegistry.entries.values, e.NamesDistinct) ∧
      decodeKind .transaction sampleTransaction.encode sampleRegistry.source {} =
        .ok sampleTransaction.review ∧
      sampleTransaction.encode = sampleTransaction.encode ∧
      sampleTransaction.review.request = sampleTransaction.review.request := by
  have names : ∀ e ∈ sampleRegistry.entries.values, e.NamesDistinct := by
    intro e he
    obtain rfl : e = sampleEntry := List.mem_singleton.1 he
    exact sampleEntry_namesDistinct
  exact ⟨names, decodeKind_sampleTransaction, cards_tell_transaction sampleRegistry {} _ _ _ _ names
    decodeKind_sampleTransaction decodeKind_sampleTransaction rfl⟩

end Review

end ColdSigner
