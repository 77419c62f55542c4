import ColdSigner.Bytes.Lemmas
import ColdSigner.Wire.Checksum
import Mathlib.Logic.Function.Iterate

/-! The register of the checksum.

A step of the register is linear over exclusive or and loses nothing: the bit that
leaves comes back as the highest bit of the polynomial. Up to four bytes fit the
register at once, and feeding them one by one is adding them all and then making as
many steps as they have bits. So bytes that differ in no more than four places next to
each other leave different registers, whatever stands before and after.

What is accepted is then said without cutting a payload off: bytes end in the checksum
of those before exactly when they leave the register at one fixed value. -/
namespace ColdSigner.Wire.Checksum

/-! ### One step -/

theorem and_one_eq_one {c : UInt32} : c &&& 1 = 1 ↔ c.toNat % 2 = 1 := by
  rw [← UInt32.toNat_inj, UInt32.toNat_and]
  exact Nat.and_one_is_mod _ ▸ Iff.rfl

theorem shift_of_odd {c : UInt32} (h : c.toNat % 2 = 1) : shift c = polynomial ^^^ (c >>> 1) :=
  if_pos (and_one_eq_one.2 h)

theorem shift_of_even {c : UInt32} (h : c.toNat % 2 = 0) : shift c = c >>> 1 :=
  if_neg fun hodd => absurd (and_one_eq_one.1 hodd) (by omega)

theorem toNat_shiftRight_one (c : UInt32) : (c >>> 1).toNat = c.toNat / 2 := by
  rw [UInt32.toNat_shiftRight]
  exact Nat.shiftRight_one _

/-- The bit that leaves a sum is the sum of those that leave its parts. -/
theorem shift_xor (a b : UInt32) : shift (a ^^^ b) = shift a ^^^ shift b := by
  have hparity : (a ^^^ b).toNat % 2 = 1 ↔ ¬ (a.toNat % 2 = 1 ↔ b.toNat % 2 = 1) := by
    rw [UInt32.toNat_xor, Nat.xor_mod_two_eq_one]
  rcases Nat.mod_two_eq_zero_or_one a.toNat with ha | ha <;>
    rcases Nat.mod_two_eq_zero_or_one b.toNat with hb | hb
  · rw [shift_of_even ha, shift_of_even hb, shift_of_even (by omega), UInt32.shiftRight_xor]
  · rw [shift_of_even ha, shift_of_odd hb, shift_of_odd (by omega), UInt32.shiftRight_xor]
    ac_rfl
  · rw [shift_of_odd ha, shift_of_even hb, shift_of_odd (by omega), UInt32.shiftRight_xor]
    ac_rfl
  · -- the polynomial comes in twice
    have hcancel : (polynomial ^^^ (a >>> 1)) ^^^ (polynomial ^^^ (b >>> 1)) =
        (polynomial ^^^ polynomial) ^^^ ((a >>> 1) ^^^ (b >>> 1)) := by ac_rfl
    rw [shift_of_odd ha, shift_of_odd hb, shift_of_even (by omega), UInt32.shiftRight_xor, hcancel,
      UInt32.xor_self, UInt32.zero_xor]

theorem eq_zero_of_shift {c : UInt32} (h : shift c = 0) : c = 0 := by
  have hhalf := toNat_shiftRight_one c
  rcases Nat.mod_two_eq_zero_or_one c.toNat with hc | hc
  · rw [shift_of_even hc] at h
    rw [h, UInt32.toNat_zero] at hhalf
    exact UInt32.toNat_inj.1 (by rw [UInt32.toNat_zero]; omega)
  · -- what is left of the register would be the polynomial, which has the highest bit
    rw [shift_of_odd hc, UInt32.xor_eq_zero_iff] at h
    have hpolynomial : polynomial.toNat = 0xEDB88320 := rfl
    have hlt := c.toNat_lt
    rw [← h, hpolynomial] at hhalf
    omega

theorem shift_injective : Function.Injective shift := fun a b h => by
  refine UInt32.xor_eq_zero_iff.1 (eq_zero_of_shift ?_)
  rw [shift_xor, h, UInt32.xor_self]

theorem iterate_shift_xor (n : Nat) (a b : UInt32) :
    shift^[n] (a ^^^ b) = shift^[n] a ^^^ shift^[n] b := by
  induction n generalizing a b with
  | zero => rfl
  | succ n ih =>
    rw [Function.iterate_succ_apply, shift_xor, ih]
    rfl

/-- Zeros leave the register as they came. -/
theorem iterate_shift_of_mul {n v : Nat} {c : UInt32} (h : c.toNat = 2 ^ n * v) :
    (shift^[n] c).toNat = v := by
  induction n generalizing c with
  | zero => simpa using h
  | succ n ih =>
    rw [Nat.pow_succ', Nat.mul_assoc] at h
    rw [Function.iterate_succ_apply, shift_of_even (by omega), ih]
    rw [toNat_shiftRight_one]
    omega

/-! ### Bytes -/

theorem feed_eq (c : UInt32) (b : UInt8) : feed c b = shift^[8] (c ^^^ b.toUInt32) := rfl

theorem xor_left_injective (m : UInt32) : Function.Injective (· ^^^ m) := fun a b h => by
  have hcancel (c : UInt32) : (c ^^^ m) ^^^ m = c := by
    rw [UInt32.xor_assoc, UInt32.xor_self, UInt32.xor_zero]
  rw [← hcancel a, ← hcancel b]
  exact congrArg (· ^^^ m) h

/-- The same bytes take different registers to different registers. -/
theorem foldl_feed_injective (b : Bytes) : Function.Injective fun c => b.foldl feed c := by
  induction b with
  | nil => exact fun _ _ h => h
  | cons x rest ih =>
    intro c d h
    have hfeed : feed c x = feed d x := ih h
    exact xor_left_injective _ (shift_injective.iterate 8 hfeed)

/-- Up to four bytes as one word, the first of them lowest. -/
def word (b : Bytes) : UInt32 := UInt32.ofNat (Bytes.toNat b)

theorem toNat_word {b : Bytes} (h : b.length ≤ 4) : (word b).toNat = Bytes.toNat b := by
  refine UInt32.toNat_ofNat_of_lt' (Nat.lt_of_lt_of_le (Bytes.toNat_lt b) ?_)
  exact Nat.pow_le_pow_right (by decide) h

theorem word_injective {a b : Bytes} (hlength : a.length = b.length) (h : a.length ≤ 4)
    (hword : word a = word b) : a = b := by
  have hnat : Bytes.toNat a = Bytes.toNat b := by
    rw [← toNat_word h, hword, toNat_word (hlength ▸ h)]
  rw [← Bytes.ofNat_toNat a, ← Bytes.ofNat_toNat b, hlength, hnat]

theorem add_eq_xor {x r : Nat} (h : x < 2 ^ 8) : x + 2 ^ 8 * r = x ^^^ (2 ^ 8 * r) := by
  refine Nat.eq_of_testBit_eq fun i => ?_
  rw [Nat.add_comm, Nat.testBit_two_pow_mul_add r h, Nat.testBit_xor, Nat.testBit_two_pow_mul]
  split
  · next hi => simp [Nat.not_le.2 hi]
  · next hi =>
    have hle := Nat.le_of_not_lt hi
    have hlt : x < 2 ^ i := Nat.lt_of_lt_of_le h (Nat.pow_le_pow_right (by decide) hle)
    simp [hle, Nat.testBit_lt_two_pow hlt]

theorem word_cons (x : UInt8) (rest : Bytes) :
    word (x :: rest) = x.toUInt32 ^^^ UInt32.ofNat (2 ^ 8 * Bytes.toNat rest) := by
  show UInt32.ofNat (x.toNat + 2 ^ 8 * Bytes.toNat rest) = _
  rw [add_eq_xor x.toNat_lt, UInt32.ofNat_xor, UInt32.ofNat_uInt8ToNat]

/-- Bytes that fit the register may enter it all at once. -/
theorem foldl_feed {b : Bytes} (h : b.length ≤ 4) (c : UInt32) :
    b.foldl feed c = shift^[8 * b.length] (c ^^^ word b) := by
  induction b generalizing c with
  | nil => exact (UInt32.xor_zero (a := c)).symm
  | cons x rest ih =>
    have hrest : rest.length < 4 := h
    have hword : shift^[8] (UInt32.ofNat (2 ^ 8 * Bytes.toNat rest)) = word rest := by
      refine UInt32.toNat_inj.1 ?_
      rw [toNat_word (by omega)]
      refine iterate_shift_of_mul (UInt32.toNat_ofNat_of_lt' ?_)
      have hbytes := Bytes.toNat_lt rest
      have hpow : 256 ^ rest.length ≤ 256 ^ 3 := Nat.pow_le_pow_right (by decide) (by omega)
      have hsize : UInt32.size = 4294967296 := rfl
      omega
    have hlinear := iterate_shift_xor 8 (c ^^^ x.toUInt32) (UInt32.ofNat (2 ^ 8 * Bytes.toNat rest))
    rw [List.foldl_cons, ih (by omega), feed_eq, ← hword, ← hlinear, ← Function.iterate_add_apply,
      word_cons, UInt32.xor_assoc]
    rfl

/-- Runs of up to four bytes that differ leave different registers. -/
theorem foldl_feed_ne {front old new back : Bytes} (hlength : old.length = new.length)
    (h : old.length ≤ 4) (hne : old ≠ new) (c : UInt32) :
    (front ++ old ++ back).foldl feed c ≠ (front ++ new ++ back).foldl feed c := by
  intro heq
  simp only [List.foldl_append] at heq
  have hmiddle : old.foldl feed (front.foldl feed c) = new.foldl feed (front.foldl feed c) :=
    foldl_feed_injective back heq
  rw [foldl_feed h, foldl_feed (hlength ▸ h : new.length ≤ 4), ← hlength] at hmiddle
  have hword := shift_injective.iterate _ hmiddle
  rw [UInt32.xor_comm _ (word old), UInt32.xor_comm _ (word new)] at hword
  exact hne (word_injective hlength h (xor_left_injective _ hword))

/-! ### What is accepted -/

/-- The register after some bytes. -/
def register (b : Bytes) : UInt32 := b.foldl feed 0xFFFFFFFF

/-- The register after a payload and its checksum. -/
def residue : UInt32 := shift^[8 * length] 0xFFFFFFFF

theorem length_encode (b : Bytes) : (encode b).length = length := Bytes.length_ofNat ..

theorem length_append_encode (b : Bytes) : (b ++ encode b).length = b.length + length := by
  rw [List.length_append, length_encode]

theorem word_encode (b : Bytes) : word (encode b) = register b ^^^ 0xFFFFFFFF := by
  have hlt : (crc32 b).toNat < 256 ^ length := (crc32 b).toNat_lt
  rw [word, encode, Bytes.toNat_ofNat_of_lt hlt, UInt32.ofNat_toNat]
  exact UInt32.xor_neg_one.symm

/-- Four bytes are the checksum of those before exactly when the register comes to the
residue. -/
theorem eq_encode_iff {payload tail : Bytes} (h : tail.length = length) :
    tail = encode payload ↔ register (payload ++ tail) = residue := by
  have hregister : register (payload ++ tail) = shift^[8 * length] (register payload ^^^ word tail) := by
    rw [register, List.foldl_append, foldl_feed (Nat.le_of_eq h), h]
    rfl
  have hcancel (m : UInt32) : register payload ^^^ (register payload ^^^ m) = m := by
    rw [← UInt32.xor_assoc, UInt32.xor_self, UInt32.zero_xor]
  rw [hregister]
  constructor
  · rintro rfl
    rw [word_encode, hcancel]
    rfl
  · intro heq
    have hword : register payload ^^^ word tail = 0xFFFFFFFF := shift_injective.iterate _ heq
    refine word_injective (h.trans (length_encode payload).symm) (Nat.le_of_eq h) ?_
    rw [word_encode, ← hword, hcancel]

/-- The residue of CRC-32/ISO-HDLC, and its check value. -/
example : residue = 0xDEBB20E3 ∧ crc32 (Bytes.ofText "123456789") = 0xCBF43926 := by cbv

end ColdSigner.Wire.Checksum
