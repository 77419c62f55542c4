import ColdSigner.Bytes.Lemmas
import ColdSigner.Key.Path
import ColdSigner.Proofs.Text.Numerals
import ColdSigner.Proofs.Wire.CompactForm
import Mathlib.Data.List.Basic
import Mathlib.Tactic.SplitIfs

/-! What a chain code tells.

A code is encoded as a number of eight bytes or as a text behind its length, and what fits
into 32 bytes is filled up with zeros. So a short code is known as a number, little-endian,
and no more than that: numerals of one number share their chain code, and so does a text that
spells it with its length and its bytes. Nothing else does, unless hashes collide:
`chainCode_eq_iff`. -/
namespace ColdSigner

theorem FixedBytes.toNat_fit {n : Nat} {b : Bytes} (h : b.length ≤ n) :
    (FixedBytes.fit n b).bytes.toNat = b.toNat := by
  show Bytes.toNat ((b ++ List.replicate n 0).take n) = _
  rw [List.take_append, List.take_of_length_le h, List.take_replicate, Bytes.toNat_append,
    Bytes.toNat_zeros, Nat.mul_zero, Nat.add_zero]

/-- Bytes that are filled up with zeros are known as a number. -/
theorem FixedBytes.fit_eq_iff {n : Nat} {a b : Bytes} (ha : a.length ≤ n) (hb : b.length ≤ n) :
    FixedBytes.fit n a = .fit n b ↔ a.toNat = b.toNat := by
  constructor
  · intro h
    rw [← toNat_fit ha, h, toNat_fit hb]
  · intro h
    refine FixedBytes.ext (Bytes.toNat_injective ?_ ?_)
    · rw [FixedBytes.length_eq, FixedBytes.length_eq]
    · rw [toNat_fit ha, toNat_fit hb, h]

namespace Wire.Compact

theorem byteLength_le {v w : Nat} (h : v ≤ w) : byteLength v ≤ byteLength w := by
  by_cases hv : v = 0
  · rw [byteLength, if_pos hv]
    exact Nat.zero_le _
  · have hw : w ≠ 0 := by omega
    have hlog : v.log2 ≤ w.log2 :=
      (Nat.le_log2 hw).2 (Nat.le_trans ((Nat.le_log2 hv).1 (Nat.le_refl _)) h)
    rw [byteLength, byteLength, if_neg hv, if_neg hw]
    omega

/-- A larger value takes no fewer bytes. -/
theorem length_le {v w : Nat} (h : v ≤ w) : length v ≤ length w := by
  have hbytes := byteLength_le h
  have hone : maxOne < maxTwo := by decide
  have htwo : maxTwo < maxFour := by decide
  simp only [length, bigLength]
  split_ifs <;> omega

end Wire.Compact

namespace Junction

/-- The UTF-8 bytes of a code. -/
def textBytes (code : List Char) : Bytes := Bytes.ofText (String.ofList code)

theorem textBytes_injective {a b : List Char} (h : textBytes a = textBytes b) : a = b :=
  String.ofList_injective (Bytes.ofText_injective h)

/-- The bytes of a code, before they are filled up or hashed. -/
def encoded (code : List Char) : Bytes :=
  match Text.numeral? Text.max64 code with
  | some n => Bytes.ofNat 8 n
  | none => Wire.Compact.encode (textBytes code).length ++ textBytes code

/-- A code that is hashed. -/
def IsLong (code : List Char) : Prop := 32 < (encoded code).length

instance (code : List Char) : Decidable (IsLong code) := inferInstanceAs (Decidable (_ < _))

/-- The hash of a code is the chain code of no other, where one is hashed. -/
def HashedApart (a b : List Char) : Prop :=
  IsLong a ∨ IsLong b → chainCode a = chainCode b → encoded a = encoded b

/-- The number that a text spells with its length and its bytes, little-endian. -/
def spelled (code : List Char) : Nat := 4 * (textBytes code).length + 256 * (textBytes code).toNat

/-- A text that is filled up to the bytes of `n`. -/
structure Spells (code : List Char) (n : Nat) : Prop where
  text : Text.numeral? Text.max64 code = none
  short : (textBytes code).length ≤ 31
  eq : spelled code = n

/-- Codes that stand for the same number, or are the same. -/
inductive Alike : List Char → List Char → Prop
  | refl (code : List Char) : Alike code code
  | numerals {a b : List Char} {n : Nat} (ha : Text.numeral? Text.max64 a = some n)
      (hb : Text.numeral? Text.max64 b = some n) : Alike a b
  | numeralText {a b : List Char} {n : Nat} (ha : Text.numeral? Text.max64 a = some n)
      (hb : Spells b n) : Alike a b
  | textNumeral {a b : List Char} {n : Nat} (ha : Spells a n)
      (hb : Text.numeral? Text.max64 b = some n) : Alike a b

variable {a b code : List Char} {n : Nat}

theorem chainCode_of_short (h : ¬IsLong code) : chainCode code = .fit 32 (encoded code) :=
  if_neg h

theorem encoded_of_some (h : Text.numeral? Text.max64 code = some n) :
    encoded code = Bytes.ofNat 8 n := by
  rw [encoded, h]

theorem encoded_of_none (h : Text.numeral? Text.max64 code = none) :
    encoded code = Wire.Compact.encode (textBytes code).length ++ textBytes code := by
  rw [encoded, h]

theorem hashedApart_of_short (ha : ¬IsLong a) (hb : ¬IsLong b) : HashedApart a b :=
  fun hlong => absurd hlong (not_or.2 ⟨ha, hb⟩)

/-! ### Numbers -/

theorem not_isLong_of_some (h : Text.numeral? Text.max64 code = some n) : ¬IsLong code := by
  rw [IsLong, encoded_of_some h, Bytes.length_ofNat]
  decide

theorem toNat_encoded_of_some (h : Text.numeral? Text.max64 code = some n) :
    (encoded code).toNat = n := by
  have hlt : n < 256 ^ 8 := Nat.lt_of_le_of_lt (Text.numeral?_le h) (by decide)
  rw [encoded_of_some h, Bytes.toNat_ofNat_of_lt hlt]

/-! ### Texts -/

theorem encode_of_short {k : Nat} (h : k ≤ 31) :
    Wire.Compact.encode k = [UInt8.ofNat (4 * k)] := by
  rw [Wire.Compact.encode, if_pos (Nat.le_trans h (by decide))]
  rfl

theorem not_isLong_iff_of_none (h : Text.numeral? Text.max64 code = none) :
    ¬IsLong code ↔ (textBytes code).length ≤ 31 := by
  rw [IsLong, encoded_of_none h, List.length_append]
  constructor
  · intro hshort
    have hne := Wire.Compact.encode_ne_nil (textBytes code).length
    have := List.length_pos_iff.2 hne
    omega
  · intro hshort
    rw [encode_of_short hshort, List.length_singleton]
    omega

theorem toNat_encoded_of_none (h : Text.numeral? Text.max64 code = none)
    (hshort : (textBytes code).length ≤ 31) : (encoded code).toNat = spelled code := by
  rw [encoded_of_none h, encode_of_short hshort, Bytes.toNat_append]
  show (UInt8.ofNat (4 * (textBytes code).length)).toNat + 256 * 0 + 256 ^ 1 * _ = _
  rw [UInt8.toNat_ofNat', spelled]
  omega

/-- The bytes of a text tell it. -/
theorem eq_of_encoded (ha : Text.numeral? Text.max64 a = none)
    (hb : Text.numeral? Text.max64 b = none) (h : encoded a = encoded b) : a = b := by
  rw [encoded_of_none ha, encoded_of_none hb] at h
  -- a code has any length, which `encode_append_inj` does not cover; but lengths that differ
  -- make a difference in the length of the whole
  have hlength : (textBytes a).length = (textBytes b).length := by
    have hwhole := congrArg List.length h
    simp only [List.length_append, Wire.Compact.length_encode] at hwhole
    rcases Nat.le_total (textBytes a).length (textBytes b).length with hle | hle
    · have := Wire.Compact.length_le hle
      omega
    · have := Wire.Compact.length_le hle
      omega
  exact textBytes_injective (List.append_inj' h hlength).2

theorem eq_of_spelled (ha : (textBytes a).length ≤ 31) (hb : (textBytes b).length ≤ 31)
    (h : spelled a = spelled b) : a = b := by
  unfold spelled at h
  exact textBytes_injective (Bytes.toNat_injective (by omega) (by omega))

/-! ### Chain codes -/

theorem chainCode_eq_of_alike (h : Alike a b) : chainCode a = chainCode b := by
  -- a text that spells a number is filled up to its bytes
  have spells {text numeral : List Char} {n : Nat} (ht : Spells text n)
      (hn : Text.numeral? Text.max64 numeral = some n) : chainCode text = chainCode numeral := by
    have hshort := (not_isLong_iff_of_none ht.text).2 ht.short
    have hnumeral := not_isLong_of_some hn
    rw [chainCode_of_short hshort, chainCode_of_short hnumeral,
      FixedBytes.fit_eq_iff (Nat.not_lt.1 hshort) (Nat.not_lt.1 hnumeral),
      toNat_encoded_of_none ht.text ht.short, toNat_encoded_of_some hn, ht.eq]
  cases h with
  | refl => rfl
  | numerals ha hb =>
    rw [chainCode_of_short (not_isLong_of_some ha), chainCode_of_short (not_isLong_of_some hb),
      encoded_of_some ha, encoded_of_some hb]
  | numeralText ha hb => exact (spells hb ha).symm
  | textNumeral ha hb => exact spells ha hb

/-- Short codes with one chain code are alike. -/
theorem alike_of_short (ha : ¬IsLong a) (hb : ¬IsLong b) (h : chainCode a = chainCode b) :
    Alike a b := by
  rw [chainCode_of_short ha, chainCode_of_short hb,
    FixedBytes.fit_eq_iff (Nat.not_lt.1 ha) (Nat.not_lt.1 hb)] at h
  cases hna : Text.numeral? Text.max64 a with
  | some n =>
    rw [toNat_encoded_of_some hna] at h
    cases hnb : Text.numeral? Text.max64 b with
    | some m =>
      rw [toNat_encoded_of_some hnb] at h
      exact .numerals hna (h ▸ hnb)
    | none =>
      have hshort := (not_isLong_iff_of_none hnb).1 hb
      exact .numeralText hna ⟨hnb, hshort, (h.trans (toNat_encoded_of_none hnb hshort)).symm⟩
  | none =>
    have hshort := (not_isLong_iff_of_none hna).1 ha
    rw [toNat_encoded_of_none hna hshort] at h
    cases hnb : Text.numeral? Text.max64 b with
    | some m => exact .textNumeral ⟨hna, hshort, h.trans (toNat_encoded_of_some hnb)⟩ hnb
    | none =>
      have hshort' := (not_isLong_iff_of_none hnb).1 hb
      rw [eq_of_spelled hshort hshort' (h.trans (toNat_encoded_of_none hnb hshort'))]
      exact .refl b

/-- Codes share their chain code if they are alike, and otherwise only where a hash meets
another chain code. -/
theorem chainCode_eq_iff (apart : HashedApart a b) : chainCode a = chainCode b ↔ Alike a b := by
  refine ⟨fun h => ?_, chainCode_eq_of_alike⟩
  by_cases hlong : IsLong a ∨ IsLong b
  · have hencoded := apart hlong h
    have hboth : IsLong a ∧ IsLong b := by
      unfold IsLong at hlong ⊢
      rw [hencoded] at hlong ⊢
      simpa using hlong
    have text {code : List Char} (h : IsLong code) : Text.numeral? Text.max64 code = none :=
      Option.eq_none_iff_forall_ne_some.2 fun _ hn => not_isLong_of_some hn h
    rw [eq_of_encoded (text hboth.1) (text hboth.2) hencoded]
    exact .refl b
  · obtain ⟨ha, hb⟩ := not_or.1 hlong
    exact alike_of_short ha hb h

/-! ### Numerals of any size -/

/-- A numeral has a byte for every character. -/
theorem textBytes_of_isNumeral (h : Text.IsNumeral code) :
    textBytes code = code.map fun c => c.val.toUInt8 := by
  rw [textBytes, Bytes.ofText_eq_flatMap, String.toList_ofList, List.map_eq_flatMap]
  refine List.flatMap_congr fun c hc => String.utf8EncodeChar_eq_singleton ?_
  exact Char.utf8Size_eq_one_iff.2 (UInt32.le_iff_toNat_le.2 (Nat.le_of_lt_succ (h.range hc).2))

theorem ne_zero_of_isNumeral (h : Text.IsNumeral code) : ∀ x ∈ textBytes code, x ≠ 0 := by
  intro x hx hzero
  rw [textBytes_of_isNumeral h] at hx
  obtain ⟨c, hc, rfl⟩ := List.mem_map.1 hx
  obtain ⟨hpos, hlt⟩ := h.range hc
  have hbyte : c.toNat % 256 = 0 := congrArg UInt8.toNat hzero
  omega

/-- A numeral past 64 bits spells a number past 64 bits too. -/
theorem lt_spelled_of_isNumeral (h : Text.IsNumeral code)
    (hnone : Text.numeral? Text.max64 code = none) : Text.max64 < spelled code := by
  have hlong : 8 ≤ (textBytes code).length := by
    rw [textBytes_of_isNumeral h, List.length_map]
    refine Nat.le_of_not_lt fun hshort => ?_
    have hpow : 10 ^ code.length ≤ 10 ^ 7 := Nat.pow_le_pow_right (by decide) (by omega)
    exact absurd (Nat.lt_of_lt_of_le (h.lt_of_eq_none hnone) hpow) (by decide)
  have hfill := Bytes.pow_le_toNat (List.ne_nil_of_length_pos (by omega))
    (ne_zero_of_isNumeral h)
  have hpow : 256 ^ 8 ≤ 256 ^ (textBytes code).length := Nat.pow_le_pow_right (by decide) hlong
  have hmax : Text.max64 < 256 ^ 8 := by decide
  rw [spelled]
  omega

/-- A numeral shares the chain code of a number only if it is a numeral of that number. -/
theorem chainCode_isNumeral_iff (h : Text.IsNumeral a) (hb : Text.numeral? Text.max64 b = some n)
    (apart : HashedApart a b) :
    chainCode a = chainCode b ↔ Text.numeral? Text.max64 a = some n := by
  rw [chainCode_eq_iff apart]
  refine ⟨fun halike => ?_, fun ha => .numerals ha hb⟩
  cases halike with
  | refl => exact hb
  | numerals ha hb' => rw [ha, ← hb', hb]
  | numeralText ha ht => cases ht.text.symm.trans hb
  | textNumeral ht hb' =>
    have hlarge := lt_spelled_of_isNumeral h ht.text
    rw [ht.eq] at hlarge
    exact absurd (Text.numeral?_le hb') (Nat.not_le.2 hlarge)

end Junction

end ColdSigner
