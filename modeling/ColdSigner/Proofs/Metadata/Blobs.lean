import ColdSigner.Metadata.Reader
import ColdSigner.Proofs.Review.Transaction
import ColdSigner.Proofs.Wire.CompactForm

/-! What blobs hold metadata.

Reading and writing go over metadata part by part, and `Reads` says of a reader and a
writer of one part that they agree: the reader accepts what the writer gives, whatever
stands behind it, and nothing else. It holds of a record if it holds of its fields, and
of a list if it holds of its elements, since no element is written as nothing: so there
are never more of them than bytes. A blob is then read exactly if it is the one that is
written for its metadata. -/
namespace ColdSigner

namespace Cursor

/-- A compact integer counts as far as the region goes. -/
def Countable (c : Cursor) : Prop := c.stop < 256 ^ 16

theorem Consumes.countable {c d : Cursor} {b : Bytes} (h : c.Consumes b d) (hc : c.Countable) :
    d.Countable := by
  rw [Countable, h.stop_eq]
  exact hc

/-- What is taken is no longer than what there is. -/
theorem Consumes.length_lt {c d : Cursor} {b : Bytes} (h : c.Consumes b d) (hc : c.Countable) :
    b.length < 256 ^ 16 := by
  have hbounded := c.bounded
  rw [h.rest, List.length_append] at hbounded
  unfold Countable at hc
  omega

end Cursor

theorem Primitive.ofByte?_eq_some {b : UInt8} {p : Primitive} :
    Primitive.ofByte? b = some p ↔ p.toByte = b := by
  constructor
  · intro h
    simpa using List.find?_some h
  · rintro rfl
    cases p <;> rfl

namespace Metadata

/-! ### Numbers -/

theorem readBytes_eq_ok {c d : Cursor} {n : Nat} {b : Bytes} :
    readBytes n c = .ok (b, d) ↔ b.length = n ∧ c.Consumes b d := by
  rw [← Cursor.take?_eq_some]
  unfold readBytes
  split
  · next r hr => rw [hr, Except.ok.injEq, Option.some.injEq]
  · next hr => simp [hr, misread]

theorem readNumber_eq_ok {c d : Cursor} {n v : Nat} :
    readNumber n c = .ok (v, d) ↔ v < 256 ^ n ∧ c.Consumes (Bytes.ofNat n v) d := by
  simp only [readNumber, bind_eq_ok, Prod.exists, readBytes_eq_ok, pure_eq_ok, Prod.mk.injEq]
  constructor
  · rintro ⟨b, p, ⟨hl, hp⟩, rfl, rfl⟩
    have hlt := b.toNat_lt
    rw [hl] at hlt
    exact ⟨hlt, by rwa [Bytes.ofNat_eq_of_toNat hl rfl]⟩
  · rintro ⟨hv, h⟩
    exact ⟨_, d, ⟨Bytes.length_ofNat .., h⟩, Bytes.toNat_ofNat_of_lt hv, rfl⟩

theorem readByte_eq_ok {c d : Cursor} {b : UInt8} : readByte c = .ok (b, d) ↔ c.Consumes [b] d := by
  simp only [readByte, bind_eq_ok, Prod.exists, readNumber_eq_ok, pure_eq_ok, Prod.mk.injEq]
  constructor
  · rintro ⟨v, p, ⟨-, hp⟩, rfl, rfl⟩
    exact hp
  · intro h
    exact ⟨b.toNat, d, ⟨b.toNat_lt, by simpa [Bytes.ofNat] using h⟩, by simp, rfl⟩

theorem readCompact_eq_ok {c d : Cursor} {v : Nat} :
    readCompact c = .ok (v, d) ↔ v < 256 ^ 16 ∧ c.Consumes (Wire.Compact.encode v) d := by
  rw [← Cursor.compact_eq_ok]
  unfold readCompact
  split
  · next r hr => rw [hr, Except.ok.injEq, Except.ok.injEq]
  · next e he => simp [he, misread]

theorem readCount_eq_ok {c d : Cursor} {n : Nat} :
    readCount c = .ok (n, d) ↔
      (n < 256 ^ 16 ∧ c.Consumes (Wire.Compact.encode n) d) ∧ n ≤ d.remaining := by
  simp only [readCount, bind_eq_ok, Prod.exists, readCompact_eq_ok]
  constructor
  · rintro ⟨v, p, hp, h⟩
    split at h
    · cases h
    · next hfew =>
      obtain ⟨rfl, rfl⟩ := Prod.mk.inj (pure_eq_ok.1 h)
      exact ⟨hp, Nat.not_lt.1 hfew⟩
  · rintro ⟨hp, hfew⟩
    exact ⟨n, d, hp, by rw [if_neg (Nat.not_lt.2 hfew)]; rfl⟩

/-! ### Parts of metadata -/

/-- The reader takes what the writer gives, and nothing else. -/
def Reads {α : Type} (read : Read α) (write : α → Bytes) : Prop :=
  ∀ ⦃c d : Cursor⦄ ⦃x : α⦄, c.Countable → (read c = .ok (x, d) ↔ c.Consumes (write x) d)

theorem reads_readTypeId : Reads readTypeId writeTypeId := by
  intro c d t _
  simp only [readTypeId, bind_eq_ok, Prod.exists, readCompact_eq_ok]
  constructor
  · rintro ⟨v, p, ⟨-, hp⟩, h⟩
    split at h
    · next hv =>
      obtain ⟨rfl, rfl⟩ := Prod.mk.inj (pure_eq_ok.1 h)
      rwa [writeTypeId, UInt32.toNat_ofNat_of_lt' hv]
    · cases h
  · intro h
    have hlt := t.toNat_lt
    refine ⟨t.toNat, d, ⟨Nat.lt_trans hlt (by decide), h⟩, ?_⟩
    rw [if_pos hlt, UInt32.ofNat_toNat]
    rfl

theorem reads_readText : Reads readText writeText := by
  intro c d s hc
  simp only [readText, bind_eq_ok, Prod.exists, readCount_eq_ok, readBytes_eq_ok]
  constructor
  · rintro ⟨n, p, ⟨⟨-, hp⟩, -⟩, b, q, ⟨rfl, hq⟩, h⟩
    split at h
    · next hs =>
      obtain ⟨rfl, rfl⟩ := Prod.mk.inj (pure_eq_ok.1 h)
      have hb := Bytes.ofText_of_toText? hs
      subst hb
      exact hp.trans hq
    · cases h
  · intro h
    have hlt := h.length_lt hc
    obtain ⟨p, hp, hq⟩ := h.split
    simp only [writeText, List.length_append] at hlt
    refine ⟨_, p, ⟨⟨by omega, hp⟩, ?_⟩, _, d, ⟨rfl, hq⟩, ?_⟩
    · rw [p.remaining_eq, hq.rest, List.length_append]
      exact Nat.le_add_right ..
    · rw [Bytes.toText?_ofText]
      rfl

section Composite

variable {α : Type} {read : Read α} {write : α → Bytes}

theorem Reads.readOption (h : Reads read write) : Reads (readOption read) (writeOption write) := by
  intro c d x hc
  simp only [Metadata.readOption, bind_eq_ok, Prod.exists, readByte_eq_ok]
  constructor
  · rintro ⟨tag, p, hp, hx⟩
    split at hx
    · next htag =>
      obtain ⟨rfl, rfl⟩ := Prod.mk.inj (pure_eq_ok.1 hx)
      rwa [htag] at hp
    · split at hx
      · next htag =>
        simp only [bind_eq_ok, Prod.exists, pure_eq_ok, Prod.mk.injEq] at hx
        obtain ⟨y, q, hq, rfl, rfl⟩ := hx
        rw [htag] at hp
        exact hp.trans ((h (hp.countable hc)).1 hq)
      · cases hx
  · intro hx
    cases x with
    | none => exact ⟨0, d, hx, rfl⟩
    | some y =>
      obtain ⟨p, hp, hy⟩ := Cursor.Consumes.split (a := [1]) hx
      refine ⟨1, p, hp, ?_⟩
      rw [if_neg (by decide), if_pos rfl, (h (hp.countable hc)).2 hy]
      rfl

/-- So many elements are read one after another. -/
theorem Reads.readTimes (h : Reads read write) {n : Nat} {before xs : List α} {c d : Cursor}
    (hc : c.Countable) :
    readTimes read n before c = .ok (xs, d) ↔
      ∃ more, xs = before.reverse ++ more ∧ more.length = n ∧ c.Consumes (more.flatMap write) d := by
  induction n generalizing before c with
  | zero =>
    rw [Metadata.readTimes, Except.ok.injEq, Prod.mk.injEq]
    constructor
    · rintro ⟨rfl, rfl⟩
      exact ⟨[], (List.append_nil _).symm, rfl, .refl c⟩
    · rintro ⟨more, rfl, hlength, hmore⟩
      obtain rfl := List.length_eq_zero_iff.1 hlength
      exact ⟨(List.append_nil _).symm, (Cursor.Consumes.refl c).unique hmore⟩
  | succ n ih =>
    simp only [Metadata.readTimes, bind_eq_ok, Prod.exists]
    constructor
    · rintro ⟨x, p, hx, hrest⟩
      have hp := (h hc).1 hx
      obtain ⟨more, rfl, rfl, hmore⟩ := (ih (hp.countable hc)).1 hrest
      exact ⟨x :: more, by simp, rfl, hp.trans hmore⟩
    · rintro ⟨more, rfl, hlength, hmore⟩
      obtain ⟨x, more, rfl⟩ := List.exists_cons_of_length_eq_add_one hlength
      rw [List.flatMap_cons] at hmore
      obtain ⟨p, hp, hmore⟩ := hmore.split
      refine ⟨x, p, (h hc).2 hp, (ih (hp.countable hc)).2 ⟨more, by simp, ?_, hmore⟩⟩
      exact Nat.succ.inj hlength

/-- Elements that are not written as nothing take a byte each. -/
theorem length_le_flatMap (something : ∀ x, write x ≠ []) (xs : List α) :
    xs.length ≤ (xs.flatMap write).length := by
  induction xs with
  | nil => exact Nat.le_refl _
  | cons x xs ih =>
    have hx := List.length_pos_iff.2 (something x)
    rw [List.flatMap_cons, List.length_append, List.length_cons]
    omega

/-- The test that there are no more elements than bytes refuses no list that is written. -/
theorem Reads.readList (h : Reads read write) (something : ∀ x, write x ≠ []) :
    Reads (readList read) (writeList write) := by
  intro c d xs hc
  simp only [Metadata.readList, bind_eq_ok, Prod.exists, readCount_eq_ok]
  constructor
  · rintro ⟨n, p, ⟨⟨-, hp⟩, -⟩, hxs⟩
    obtain ⟨more, rfl, rfl, hmore⟩ := (h.readTimes (hp.countable hc)).1 hxs
    exact hp.trans hmore
  · intro hxs
    have hlt := hxs.length_lt hc
    obtain ⟨p, hp, hmore⟩ := hxs.split
    have hfew := length_le_flatMap something xs
    rw [writeList, List.length_append] at hlt
    refine ⟨xs.length, p, ⟨⟨by omega, hp⟩, ?_⟩, ?_⟩
    · rw [p.remaining_eq, hmore.rest, List.length_append]
      omega
    · exact (h.readTimes (hp.countable hc)).2 ⟨xs, rfl, rfl, hmore⟩

end Composite

/-! ### Types and pallets -/

theorem writeTypeId_ne_nil (t : TypeId) : writeTypeId t ≠ [] := Wire.Compact.encode_ne_nil _

theorem writeText_ne_nil (s : String) : writeText s ≠ [] := by
  simp [writeText, Wire.Compact.encode_ne_nil]

theorem writeField_ne_nil (f : Field) : writeField f ≠ [] := by
  simp [writeField, writeTypeId_ne_nil]

theorem writeVariant_ne_nil (v : Variant) : writeVariant v ≠ [] := List.cons_ne_nil _ _

theorem writeType_ne_nil (t : TypeEntry) : writeType t ≠ [] := by
  simp [writeType, writeText_ne_nil]

theorem writePallet_ne_nil (p : Pallet) : writePallet p ≠ [] := by
  simp [writePallet]

theorem reads_readField : Reads readField writeField := by
  intro c d f hc
  simp only [readField, bind_eq_ok, Prod.exists, pure_eq_ok, Prod.mk.injEq]
  constructor
  · rintro ⟨name, p, hname, typeName, q, htypeName, type, r, htype, rfl, rfl⟩
    have hp := (reads_readText.readOption hc).1 hname
    have hq := hp.trans ((reads_readText.readOption (hp.countable hc)).1 htypeName)
    exact hq.trans ((reads_readTypeId (hq.countable hc)).1 htype)
  · intro hf
    obtain ⟨q, hq, htype⟩ := hf.split
    obtain ⟨p, hname, htypeName⟩ := hq.split
    exact ⟨f.name, p, (reads_readText.readOption hc).2 hname, f.typeName, q,
      (reads_readText.readOption (hname.countable hc)).2 htypeName, f.type, d,
      (reads_readTypeId (hq.countable hc)).2 htype, rfl, rfl⟩

theorem reads_readVariant : Reads readVariant writeVariant := by
  intro c d v hc
  simp only [readVariant, bind_eq_ok, Prod.exists, pure_eq_ok, Prod.mk.injEq, readByte_eq_ok]
  have hfields := reads_readField.readList writeField_ne_nil
  constructor
  · rintro ⟨index, p, hp, name, q, hname, fields, r, hf, rfl, rfl⟩
    have hq := (reads_readText (hp.countable hc)).1 hname
    exact hp.trans (hq.trans ((hfields (hq.countable (hp.countable hc))).1 hf))
  · intro hv
    obtain ⟨p, hp, hv⟩ := Cursor.Consumes.split (a := [v.index]) hv
    obtain ⟨q, hname, hf⟩ := hv.split
    have hpc := hp.countable hc
    exact ⟨v.index, p, hp, v.name, q, (reads_readText hpc).2 hname, v.fields, d,
      (hfields (hname.countable hpc)).2 hf, rfl, rfl⟩

/-- What is read makes up the whole. -/
theorem Reads.map {α β : Type} {read : Read α} {write : α → Bytes} (h : Reads read write) (f : α → β)
    {c d : Cursor} {y : β} (hc : c.Countable) :
    (do let (x, p) ← read c; return (f x, p)) = Except.ok (y, d) ↔
      ∃ x, f x = y ∧ c.Consumes (write x) d := by
  simp only [bind_eq_ok, Prod.exists, pure_eq_ok, Prod.mk.injEq]
  constructor
  · rintro ⟨x, p, hx, rfl, rfl⟩
    exact ⟨x, rfl, (h hc).1 hx⟩
  · rintro ⟨x, rfl, hx⟩
    exact ⟨x, d, (h hc).2 hx, rfl, rfl⟩

/-- A tag is followed by what it announces. -/
theorem reads_readTypeDef : Reads readTypeDef writeTypeDef := by
  intro c d t hc
  simp only [readTypeDef, bind_eq_ok, Prod.exists, readByte_eq_ok]
  have hids := reads_readTypeId.readList writeTypeId_ne_nil
  have hfields := reads_readField.readList writeField_ne_nil
  have hvariants := reads_readVariant.readList writeVariant_ne_nil
  constructor
  · rintro ⟨tag, p, hp, h⟩
    have hpc := hp.countable hc
    have htag {n : Nat} (hn : tag.toNat = n) : c.Consumes [UInt8.ofNat n] p := by
      rwa [← hn, UInt8.ofNat_toNat]
    split at h
    · next hn =>
      simp only [bind_eq_ok, Prod.exists, readByte_eq_ok] at h
      obtain ⟨b, q, hq, h⟩ := h
      split at h
      · next primitive hb =>
        obtain ⟨rfl, rfl⟩ := Prod.mk.inj (pure_eq_ok.1 h)
        rw [← Primitive.ofByte?_eq_some.1 hb] at hq
        exact (htag hn).trans hq
      · cases h
    · next hn =>
      obtain ⟨inner, rfl, hq⟩ := (reads_readTypeId.map _ hpc).1 h
      exact (htag hn).trans hq
    · next hn =>
      obtain ⟨inner, rfl, hq⟩ := (reads_readTypeId.map _ hpc).1 h
      exact (htag hn).trans hq
    · next hn =>
      simp only [bind_eq_ok, Prod.exists, readNumber_eq_ok] at h
      obtain ⟨length, q, ⟨hlength, hq⟩, inner, r, hr, h⟩ := h
      obtain ⟨rfl, rfl⟩ := Prod.mk.inj (pure_eq_ok.1 h)
      rw [writeTypeDef, UInt32.toNat_ofNat_of_lt' hlength]
      exact (htag hn).trans (hq.trans ((reads_readTypeId (hq.countable hpc)).1 hr))
    · next hn =>
      obtain ⟨types, rfl, hq⟩ := (hids.map _ hpc).1 h
      exact (htag hn).trans hq
    · next hn =>
      obtain ⟨fields, rfl, hq⟩ := (hfields.map _ hpc).1 h
      exact (htag hn).trans hq
    · next hn =>
      obtain ⟨variants, rfl, hq⟩ := (hvariants.map _ hpc).1 h
      exact (htag hn).trans hq
    · cases h
  · intro h
    cases t with
    | primitive primitive =>
      obtain ⟨p, hp, hb⟩ := Cursor.Consumes.split (a := [0]) h
      refine ⟨0, p, hp, bind_eq_ok.2 ⟨(primitive.toByte, d), readByte_eq_ok.2 hb, ?_⟩⟩
      dsimp only
      rw [Primitive.ofByte?_eq_some.2 rfl]
      rfl
    | compact inner =>
      obtain ⟨p, hp, hinner⟩ := Cursor.Consumes.split (a := [1]) h
      exact ⟨1, p, hp, (reads_readTypeId.map _ (hp.countable hc)).2 ⟨inner, rfl, hinner⟩⟩
    | sequence inner =>
      obtain ⟨p, hp, hinner⟩ := Cursor.Consumes.split (a := [2]) h
      exact ⟨2, p, hp, (reads_readTypeId.map _ (hp.countable hc)).2 ⟨inner, rfl, hinner⟩⟩
    | array length inner =>
      obtain ⟨p, hp, h⟩ := Cursor.Consumes.split (a := [3]) h
      obtain ⟨q, hq, hinner⟩ := Cursor.Consumes.split (a := Bytes.ofNat 4 length.toNat) h
      refine ⟨3, p, hp, ?_⟩
      show readNumber 4 p >>= _ = _
      rw [readNumber_eq_ok.2 ⟨length.toNat_lt, hq⟩]
      refine (reads_readTypeId.map _ (hq.countable (hp.countable hc))).2 ⟨inner, ?_, hinner⟩
      exact congrArg (TypeDef.array · inner) (UInt32.ofNat_toNat ..)
    | tuple types =>
      obtain ⟨p, hp, htypes⟩ := Cursor.Consumes.split (a := [4]) h
      exact ⟨4, p, hp, (hids.map _ (hp.countable hc)).2 ⟨types, rfl, htypes⟩⟩
    | composite fields =>
      obtain ⟨p, hp, hfs⟩ := Cursor.Consumes.split (a := [5]) h
      exact ⟨5, p, hp, (hfields.map _ (hp.countable hc)).2 ⟨fields, rfl, hfs⟩⟩
    | variant variants =>
      obtain ⟨p, hp, hvs⟩ := Cursor.Consumes.split (a := [6]) h
      exact ⟨6, p, hp, (hvariants.map _ (hp.countable hc)).2 ⟨variants, rfl, hvs⟩⟩

theorem reads_readType : Reads readType writeType := by
  intro c d t hc
  simp only [readType, bind_eq_ok, Prod.exists, pure_eq_ok, Prod.mk.injEq]
  constructor
  · rintro ⟨path, p, hpath, definition, q, hdef, rfl, rfl⟩
    have hp := (reads_readText hc).1 hpath
    exact hp.trans ((reads_readTypeDef (hp.countable hc)).1 hdef)
  · intro h
    obtain ⟨p, hp, hdef⟩ := h.split
    exact ⟨t.path, p, (reads_readText hc).2 hp, t.definition, d,
      (reads_readTypeDef (hp.countable hc)).2 hdef, rfl, rfl⟩

theorem reads_readPallet : Reads readPallet writePallet := by
  intro c d x hc
  simp only [readPallet, bind_eq_ok, Prod.exists, pure_eq_ok, Prod.mk.injEq, readByte_eq_ok]
  have hcalls := reads_readTypeId.readOption
  constructor
  · rintro ⟨name, p, hname, index, q, hq, calls, r, hr, rfl, rfl⟩
    have hp := (reads_readText hc).1 hname
    exact hp.trans (hq.trans ((hcalls (hq.countable (hp.countable hc))).1 hr))
  · intro h
    obtain ⟨p, hp, h⟩ := h.split
    obtain ⟨q, hq, hr⟩ := Cursor.Consumes.split (a := [x.index]) h
    have hqc := hq.countable (hp.countable hc)
    exact ⟨x.name, p, (reads_readText hc).2 hp, x.index, q, hq, x.calls, d, (hcalls hqc).2 hr,
      rfl, rfl⟩

/-! ### Blobs -/

/-- The scheme of a network signs. -/
theorem readScheme_eq_ok {c d : Cursor} {s : Scheme} :
    readScheme c = .ok (s, d) ↔ s ≠ .unsigned ∧ c.Consumes [s.toByte] d := by
  simp only [readScheme, bind_eq_ok, Prod.exists, readByte_eq_ok]
  constructor
  · rintro ⟨b, p, hp, h⟩
    split at h
    · cases h
    · next t ht hb =>
      obtain ⟨rfl, rfl⟩ := Prod.mk.inj (pure_eq_ok.1 h)
      rw [Scheme.toByte_of_ofByte? hb]
      exact ⟨ht, hp⟩
    · cases h
  · rintro ⟨hs, h⟩
    refine ⟨s.toByte, d, h, ?_⟩
    rw [Scheme.ofByte?_toByte]
    cases s with
    | unsigned => exact absurd rfl hs
    | _ => rfl

theorem readHead_eq_ok {c d : Cursor} :
    readHead c = .ok ((), d) ↔ c.Consumes (magic ++ [formatVersion]) d := by
  simp only [readHead, bind_eq_ok, Prod.exists, readBytes_eq_ok]
  constructor
  · rintro ⟨m, p, ⟨-, hp⟩, h⟩
    split at h
    · cases h
    · next hm =>
      simp only [bind_eq_ok, Prod.exists, readByte_eq_ok] at h
      obtain ⟨v, q, hq, h⟩ := h
      split at h
      · cases h
      · next hv =>
        obtain ⟨-, rfl⟩ := Prod.mk.inj (pure_eq_ok.1 h)
        rw [not_ne_iff.1 hm] at hp
        rw [not_ne_iff.1 hv] at hq
        exact hp.trans hq
  · intro h
    obtain ⟨p, hp, hq⟩ := h.split
    refine ⟨magic, p, ⟨rfl, hp⟩, ?_⟩
    rw [if_neg (not_ne_iff.2 rfl), readByte_eq_ok.2 hq]
    rfl

/-- The specs of a network, around the version of its runtime. -/
def writeSpecs (version : UInt32) (specs : NetworkSpecs) : Bytes :=
  writeText specs.name ++ Bytes.ofNat 4 version.toNat ++ Bytes.ofNat 2 specs.addressFormat.toNat
    ++ [specs.decimals] ++ writeText specs.unit ++ [specs.scheme.toByte]

theorem readSpecs_eq_ok {c d : Cursor} {version : UInt32} {specs : NetworkSpecs} (hc : c.Countable) :
    readSpecs c = .ok ((version, specs), d) ↔
      specs.scheme ≠ .unsigned ∧ c.Consumes (writeSpecs version specs) d := by
  simp only [readSpecs, bind_eq_ok, Prod.exists, pure_eq_ok, Prod.mk.injEq, readNumber_eq_ok,
    readByte_eq_ok, readScheme_eq_ok]
  constructor
  · rintro ⟨name, p, hname, v, q, ⟨hv, hq⟩, f, r, ⟨hf, hr⟩, decimals, t, ht, unit, u, hunit, scheme, w,
      ⟨hscheme, hw⟩, ⟨rfl, rfl⟩, rfl⟩
    have hfront := (((reads_readText hc).1 hname).trans hq).trans (hr.trans ht)
    have hu := (reads_readText (hfront.countable hc)).1 hunit
    refine ⟨hscheme, ?_⟩
    simp only [writeSpecs, UInt32.toNat_ofNat_of_lt' hv, UInt16.toNat_ofNat_of_lt' hf]
    simpa using (hfront.trans hu).trans hw
  · rintro ⟨hscheme, h⟩
    obtain ⟨u, h, hw⟩ := h.split
    obtain ⟨t, h, hu⟩ := h.split
    obtain ⟨r, h, ht⟩ := h.split
    obtain ⟨q, h, hr⟩ := h.split
    obtain ⟨p, hp, hq⟩ := h.split
    have htc := (((hp.trans hq).trans hr).trans ht).countable hc
    exact ⟨specs.name, p, (reads_readText hc).2 hp, _, q, ⟨version.toNat_lt, hq⟩, _, r,
      ⟨specs.addressFormat.toNat_lt, hr⟩, specs.decimals, t, ht, specs.unit, u,
      (reads_readText htc).2 hu, specs.scheme, d, ⟨hscheme, hw⟩, by simp, rfl⟩

theorem encode_eq (m : Metadata) :
    m.encode = magic ++ [formatVersion] ++ writeSpecs m.specVersion m.specs
      ++ writeList writeType m.types.toList ++ writeList writePallet m.pallets := by
  simp [encode, writeSpecs]

/-- Metadata are read from the blob that is written for them, if they sign. -/
theorem decode_eq_ok {blob : Bytes} {m : Metadata} (fits : blob.length < 256 ^ 16) :
    decode blob = .ok m ↔ m.specs.scheme ≠ .unsigned ∧ blob = m.encode := by
  have hc : (Cursor.start blob).Countable := fits
  have htypes := reads_readType.readList writeType_ne_nil
  have hpallets := reads_readPallet.readList writePallet_ne_nil
  simp only [decode, bind_eq_ok, Prod.exists]
  constructor
  · rintro ⟨⟨⟩, p, hhead, version, specs, q, hspecs, types, r, hr, pallets, s, hs, h⟩
    have hp := readHead_eq_ok.1 hhead
    obtain ⟨hscheme, hq⟩ := (readSpecs_eq_ok (hp.countable hc)).1 hspecs
    have hq := hp.trans hq
    have hr := hq.trans ((htypes (hq.countable hc)).1 hr)
    have hs := hr.trans ((hpallets (hr.countable hc)).1 hs)
    split at h
    · next hend =>
      obtain rfl := pure_eq_ok.1 h
      refine ⟨hscheme, ?_⟩
      have hblob := hs.rest
      rw [List.isEmpty_iff.1 hend, List.append_nil] at hblob
      rw [encode_eq, List.toList_toArray]
      exact hblob
    · cases h
  · rintro ⟨hscheme, rfl⟩
    obtain ⟨s, hs, hend⟩ := Cursor.exists_consumes (c := .start m.encode)
      (m.encode_eq.trans (List.append_nil _).symm)
    obtain ⟨r, hr, hpallet⟩ := hs.split
    obtain ⟨q, hq, htype⟩ := hr.split
    obtain ⟨p, hp, hspecs⟩ := hq.split
    refine ⟨(), p, readHead_eq_ok.2 hp, m.specVersion, m.specs, q,
      (readSpecs_eq_ok (hp.countable hc)).2 ⟨hscheme, hspecs⟩, m.types.toList, r,
      (htypes (hq.countable hc)).2 htype, m.pallets, s, (hpallets (hr.countable hc)).2 hpallet, ?_⟩
    rw [hend, Array.toArray_toList]
    rfl

end Metadata

namespace Entry

theorem build_eq_ok {network : NetworkId} {m : Metadata} {e : Entry} :
    build network m = .ok e ↔ e.network = network ∧ e.metadata = m := by
  unfold build
  constructor
  · intro h
    split at h
    · cases h
    · split at h
      · cases h
      · obtain rfl := Except.ok.inj h
        exact ⟨rfl, rfl⟩
  · rintro ⟨rfl, rfl⟩
    obtain ⟨network, m, sizes, hfault, hsizes⟩ := e
    split
    · next f hf => cases hfault.symm.trans hf
    · split
      · next i hi => cases hsizes.symm.trans hi
      · next sizes' hs =>
        obtain rfl := Except.ok.inj (hsizes.symm.trans hs)
        rfl

/-- A blob is loaded exactly if it is the one that is written for an entry, which holds
together and signs; so an entry has one blob, and a blob one entry. A blob of `256 ^ 16`
bytes could hold more than a compact integer counts. -/
theorem load_exact (network : NetworkId) (blob : Bytes) (fits : blob.length < 256 ^ 16) (e : Entry) :
    load network blob = .ok e ↔
      build network e.metadata = .ok e ∧ e.specs.scheme ≠ .unsigned ∧ blob = e.encode := by
  simp only [load, bind_eq_ok, Metadata.decode_eq_ok fits]
  constructor
  · rintro ⟨m, ⟨hscheme, rfl⟩, hbuild⟩
    obtain ⟨-, rfl⟩ := build_eq_ok.1 hbuild
    exact ⟨hbuild, hscheme, rfl⟩
  · rintro ⟨hbuild, hscheme, rfl⟩
    exact ⟨e.metadata, ⟨hscheme, rfl⟩, hbuild⟩

theorem sample_blob_loads :
    Review.sampleEntry.encode.length < 256 ^ 16 ∧ Review.sampleEntry.specs.scheme ≠ .unsigned ∧
      build Review.sampleEntry.network Review.sampleEntry.metadata = .ok Review.sampleEntry ∧
      load Review.sampleEntry.network Review.sampleEntry.encode = .ok Review.sampleEntry := by
  have fits : Review.sampleEntry.encode.length < 256 ^ 16 := by
    show 66 < 256 ^ 16
    decide
  have built := build_eq_ok.2 (⟨rfl, rfl⟩ : Review.sampleEntry.network = _ ∧ _)
  exact ⟨fits, nofun, built, (load_exact _ _ fits _).2 ⟨built, nofun, rfl⟩⟩

end Entry

end ColdSigner
