import ColdSigner.Proofs.Wire.Consumption
import ColdSigner.Wire.Compact

/-! The one form of a compact integer.

`decode_eq_ok` says what reading accepts: a value below `256 ^ 16` in the form that
writing gives it, with anything behind. A value therefore tells its bytes, and no
form is the start of another. `forms_are_exact` adds the length that is announced. -/
namespace ColdSigner

namespace Wire.Compact

theorem split_eq_ok {n : Nat} {b d rest : Bytes} :
    split n b = .ok (d, rest) ↔ d.length = n ∧ b = d ++ rest := by
  dsimp only [split]
  constructor
  · intro h
    split at h
    · cases h
    · next hn =>
      obtain ⟨rfl, rfl⟩ := Prod.mk.inj (Except.ok.inj h)
      have hl := List.length_take_le n b
      exact ⟨by omega, (List.take_append_drop n b).symm⟩
  · intro h
    obtain ⟨rfl, rfl⟩ := h
    simp

/-! ### The length of large values -/

theorem pow_256 (k : Nat) : 256 ^ k = 2 ^ (8 * k) := by
  rw [Nat.pow_mul]

theorem byteLength_eq {v k : Nat} (hlow : 256 ^ k ≤ v) (hhigh : v < 256 ^ (k + 1)) :
    byteLength v = k + 1 := by
  have hpos : 0 < 256 ^ k := Nat.pow_pos (by decide)
  have hv : v ≠ 0 := by omega
  rw [pow_256] at hlow hhigh
  have h1 := (Nat.le_log2 hv).2 hlow
  have h2 := (Nat.log2_lt hv).2 hhigh
  rw [byteLength, if_neg hv]
  omega

theorem bigLength_eq {v k : Nat} (hk : 3 ≤ k) (hlow : 256 ^ k ≤ v) (hhigh : v < 256 ^ (k + 1)) :
    bigLength v = k + 1 := by
  rw [bigLength, byteLength_eq hlow hhigh]
  omega

/-- A value that four bytes do not hold lies between two powers of 256. -/
theorem exists_pow_le {v : Nat} (low : maxFour < v) (high : v < 256 ^ 16) :
    ∃ k, 3 ≤ k ∧ k < 16 ∧ 256 ^ k ≤ v ∧ v < 256 ^ (k + 1) := by
  have h0 : v ≠ 0 := by omega
  have hle : 2 ^ v.log2 ≤ v := (Nat.le_log2 h0).1 (Nat.le_refl _)
  have hlt : v < 2 ^ (v.log2 + 1) := (Nat.log2_lt h0).1 (Nat.lt_succ_self _)
  have hsixteen : v.log2 < 8 * 16 := (Nat.log2_lt h0).2 (pow_256 16 ▸ high)
  have hthree : 30 ≤ v.log2 := (Nat.le_log2 h0).2 low
  refine ⟨v.log2 / 8, by omega, by omega, ?_, ?_⟩
  · rw [pow_256]
    exact Nat.le_trans (Nat.pow_le_pow_right (by decide) (by omega)) hle
  · rw [pow_256]
    exact Nat.lt_of_lt_of_le hlt (Nat.pow_le_pow_right (by decide) (by omega))

/-! ### Reading by mode -/

/-- A form of `n` bytes, with a value beyond `least` above its mode. -/
def decodeWide (n least : Nat) (b : Bytes) : Except Error (Nat × Nat) :=
  (split n b).bind fun d =>
    if d.1.toNat / 4 ≤ least then .error .invalidCompact else .ok (d.1.toNat / 4, n)

/-- A form of a value alone, of `n` bytes behind the first. -/
def decodeBig (n : Nat) (b : Bytes) : Except Error (Nat × Nat) :=
  if 16 < n then .error .invalidCompact
  else
    (split n b).bind fun d =>
      if d.1.toNat ≤ maxFour ∨ d.1.toNat < 256 ^ (n - 1) then .error .invalidCompact
      else .ok (d.1.toNat, 1 + n)

theorem decode_cons (x : UInt8) (t : Bytes) :
    decode (x :: t) =
      match x.toNat % 4 with
      | 0 => .ok (x.toNat / 4, 1)
      | 1 => decodeWide 2 maxOne (x :: t)
      | 2 => decodeWide 4 maxTwo (x :: t)
      | _ => decodeBig (x.toNat / 4 + 4) t :=
  rfl

theorem decodeWide_eq_ok {n least v k : Nat} {b : Bytes} :
    decodeWide n least b = .ok (v, k) ↔
      k = n ∧ least < v ∧ ∃ d rest : Bytes, b = d ++ rest ∧ d.length = n ∧ d.toNat / 4 = v := by
  show split n b >>= _ = _ ↔ _
  simp only [bind_eq_ok, Prod.exists, split_eq_ok]
  constructor
  · intro h
    obtain ⟨d, rest, ⟨hl, hb⟩, h⟩ := h
    split at h
    · cases h
    · obtain ⟨rfl, rfl⟩ := Prod.mk.inj (Except.ok.inj h)
      exact ⟨rfl, by omega, d, rest, hb, hl, rfl⟩
  · intro h
    obtain ⟨rfl, hv, d, rest, hb, hl, rfl⟩ := h
    exact ⟨d, rest, ⟨hl, hb⟩, if_neg (by omega)⟩

theorem decodeBig_eq_ok {n v k : Nat} {b : Bytes} :
    decodeBig n b = .ok (v, k) ↔
      k = 1 + n ∧ n ≤ 16 ∧ maxFour < v ∧ 256 ^ (n - 1) ≤ v ∧
        ∃ d rest : Bytes, b = d ++ rest ∧ d.length = n ∧ d.toNat = v := by
  unfold decodeBig
  split
  · next hn =>
    simp only [reduceCtorEq, false_iff]
    intro h
    obtain ⟨-, hle, -⟩ := h
    omega
  · next hn =>
    show split n b >>= _ = _ ↔ _
    simp only [bind_eq_ok, Prod.exists, split_eq_ok]
    constructor
    · intro h
      obtain ⟨d, rest, ⟨hl, hb⟩, h⟩ := h
      split at h
      · cases h
      · obtain ⟨rfl, rfl⟩ := Prod.mk.inj (Except.ok.inj h)
        exact ⟨rfl, by omega, by omega, by omega, d, rest, hb, hl, rfl⟩
    · intro h
      obtain ⟨rfl, -, hfour, hlow, d, rest, hb, hl, rfl⟩ := h
      exact ⟨d, rest, ⟨hl, hb⟩, if_neg (by omega)⟩

/-! ### What reading accepts -/

/-- The number that some bytes hold has the remainders of the first. -/
theorem toNat_cons_mod (x : UInt8) (t : Bytes) : Bytes.toNat (x :: t) % 4 = x.toNat % 4 := by
  show (x.toNat + 256 * Bytes.toNat t) % 4 = x.toNat % 4
  omega

/-- Written numbers of the two wide forms are read back. -/
theorem decodeWide_ofNat {n least v m : Nat} (low : least < v) (hm : m < 4)
    (high : 4 * v + m < 256 ^ n) (rest : Bytes) :
    decodeWide n least (Bytes.ofNat n (4 * v + m) ++ rest) = .ok (v, n) :=
  decodeWide_eq_ok.2 ⟨rfl, low, _, rest, rfl, Bytes.length_ofNat .., by
    rw [Bytes.toNat_ofNat_of_lt high]
    omega⟩

/-- Reading takes what writing gave, whatever follows. -/
theorem decode_encode {v : Nat} (h : v < 256 ^ 16) (rest : Bytes) :
    decode (encode v ++ rest) = .ok (v, (encode v).length) := by
  have hone : maxOne = 63 := rfl
  have htwo : maxTwo = 16383 := rfl
  have hfour : maxFour = 1073741823 := rfl
  unfold encode
  split
  · show decode (UInt8.ofNat (4 * v) :: rest) = .ok (v, 1)
    have hx : (UInt8.ofNat (4 * v)).toNat = 4 * v := by
      rw [UInt8.toNat_ofNat']
      omega
    simp only [decode_cons, hx, show 4 * v % 4 = 0 by omega, show 4 * v / 4 = v by omega]
  · split
    · have hx : (UInt8.ofNat (4 * v + 1)).toNat % 4 = 1 := by
        rw [UInt8.toNat_ofNat']
        omega
      have := decodeWide_ofNat (n := 2) (show maxOne < v by omega) (show 1 < 4 by decide)
        (by omega) rest
      rw [Bytes.length_ofNat, ← this]
      show decode (UInt8.ofNat (4 * v + 1) :: _) = _
      simp only [decode_cons, hx]
      rfl
    · split
      · have hx : (UInt8.ofNat (4 * v + 2)).toNat % 4 = 2 := by
          rw [UInt8.toNat_ofNat']
          omega
        have := decodeWide_ofNat (n := 4) (show maxTwo < v by omega) (show 2 < 4 by decide)
          (by omega) rest
        rw [Bytes.length_ofNat, ← this]
        show decode (UInt8.ofNat (4 * v + 2) :: _) = _
        simp only [decode_cons, hx]
        rfl
      · obtain ⟨k, hk, hk', hlow, hhigh⟩ := exists_pow_le (show maxFour < v by omega) h
        have hx : (UInt8.ofNat (4 * (k + 1 - 4) + 3)).toNat = 4 * (k + 1 - 4) + 3 := by
          rw [UInt8.toNat_ofNat']
          omega
        rw [bigLength_eq hk hlow hhigh, List.length_cons, Bytes.length_ofNat, List.cons_append,
          decode_cons, hx]
        simp only [show (4 * (k + 1 - 4) + 3) % 4 = 3 by omega,
          show (4 * (k + 1 - 4) + 3) / 4 + 4 = k + 1 by omega]
        refine decodeBig_eq_ok.2 ⟨by omega, by omega, by omega, hlow, _, rest, rfl, ?_, ?_⟩
        · exact Bytes.length_ofNat ..
        · exact Bytes.toNat_ofNat_of_lt hhigh

/-- A wide form that was read is the one that writing gives. -/
theorem eq_ofNat_of_div {n v m : Nat} {x : UInt8} {t d rest : Bytes} (hb : x :: t = d ++ rest)
    (hl : d.length = n) (hn : n ≠ 0) (hm : x.toNat % 4 = m) (hv : d.toNat / 4 = v) :
    d = Bytes.ofNat n (4 * v + m) := by
  cases d with
  | nil => exact absurd hl.symm hn
  | cons y d =>
    obtain ⟨rfl, -⟩ := List.cons.inj hb
    have := toNat_cons_mod x d
    exact (Bytes.ofNat_eq_of_toNat hl (by omega)).symm

/-- What reading accepts is what writing gives. -/
theorem encode_of_decode {b : Bytes} {v n : Nat} (h : decode b = .ok (v, n)) :
    v < 256 ^ 16 ∧ n = (encode v).length ∧ ∃ rest, b = encode v ++ rest := by
  have hone : maxOne = 63 := rfl
  have htwo : maxTwo = 16383 := rfl
  have hfour : maxFour = 1073741823 := rfl
  cases b with
  | nil => cases h
  | cons x t =>
    have hx := x.toNat_lt
    rw [decode_cons] at h
    split at h
    · next hm =>
      obtain ⟨rfl, rfl⟩ := Prod.mk.inj (Except.ok.inj h)
      have he : encode (x.toNat / 4) = [x] := by
        rw [encode, if_pos (by omega)]
        exact Bytes.ofNat_eq_of_toNat rfl (by show x.toNat + 256 * 0 = _; omega)
      rw [he]
      exact ⟨by omega, rfl, t, rfl⟩
    · next hm =>
      obtain ⟨rfl, hlow, d, rest, hb, hl, hv⟩ := decodeWide_eq_ok.1 h
      have hd := eq_ofNat_of_div hb hl (by decide) hm hv
      have hlt := d.toNat_lt
      rw [hl] at hlt
      rw [encode, if_neg (by omega), if_pos (by omega), ← hd]
      exact ⟨by omega, hl.symm, rest, hb⟩
    · next hm =>
      obtain ⟨rfl, hlow, d, rest, hb, hl, hv⟩ := decodeWide_eq_ok.1 h
      have hd := eq_ofNat_of_div hb hl (by decide) hm hv
      have hlt := d.toNat_lt
      rw [hl] at hlt
      rw [encode, if_neg (by omega), if_neg (by omega), if_pos (by omega), ← hd]
      exact ⟨by omega, hl.symm, rest, hb⟩
    · next h0 h1 h2 =>
      obtain ⟨rfl, hn, hlow, hpow, d, rest, hb, hl, hv⟩ := decodeBig_eq_ok.1 h
      have hd := Bytes.ofNat_eq_of_toNat hl hv
      have hlt := d.toNat_lt
      rw [hl, hv] at hlt
      have hm : x.toNat % 4 = 3 := by
        have h0 : x.toNat % 4 ≠ 0 := h0
        have h1 : x.toNat % 4 ≠ 1 := h1
        have h2 : x.toNat % 4 ≠ 2 := h2
        omega
      have hbig : bigLength v = x.toNat / 4 + 4 :=
        bigLength_eq (k := x.toNat / 4 + 3) (by omega) hpow hlt
      have hfirst : UInt8.ofNat (4 * (x.toNat / 4 + 4 - 4) + 3) = x := by
        rw [← UInt8.toNat_inj, UInt8.toNat_ofNat']
        omega
      rw [encode, if_neg (by omega), if_neg (by omega), if_neg (by omega), hbig, hfirst, hd]
      refine ⟨Nat.lt_of_lt_of_le hlt (Nat.pow_le_pow_right (by decide) hn), ?_, rest, ?_⟩
      · rw [List.length_cons, hl, Nat.add_comm]
      · rw [List.cons_append, hb]

theorem decode_eq_ok {b : Bytes} {v n : Nat} :
    decode b = .ok (v, n) ↔ v < 256 ^ 16 ∧ n = (encode v).length ∧ ∃ rest, b = encode v ++ rest := by
  constructor
  · exact encode_of_decode
  · intro h
    obtain ⟨hv, rfl, rest, rfl⟩ := h
    exact decode_encode hv rest

/-- No form is the start of another. -/
theorem encode_append_inj {v w : Nat} {s t : Bytes} (hv : v < 256 ^ 16) (hw : w < 256 ^ 16)
    (h : encode v ++ s = encode w ++ t) : v = w ∧ s = t := by
  have hd := decode_encode hv s
  rw [h, decode_encode hw] at hd
  obtain ⟨rfl, -⟩ := Prod.mk.inj (Except.ok.inj hd)
  exact ⟨rfl, List.append_cancel_left h⟩

theorem encode_ne_nil (v : Nat) : encode v ≠ [] := by
  unfold encode
  repeat' split
  all_goals simp [Bytes.ofNat]

/-- A form has the length that is announced for it. -/
theorem length_encode (v : Nat) : (encode v).length = length v := by
  unfold encode length
  split
  · exact Bytes.length_ofNat ..
  · split
    · exact Bytes.length_ofNat ..
    · split
      · exact Bytes.length_ofNat ..
      · rw [List.length_cons, Bytes.length_ofNat, Nat.add_comm]

/-- Every number of 16 bytes is written in the announced length, and read back from that
form whatever follows it. What is read is nothing but such a form, and so a number has
only one. -/
theorem forms_are_exact :
    (∀ v, v < 2 ^ 128 → (encode v).length = length v ∧
        ∀ rest, decode (encode v ++ rest) = .ok (v, length v)) ∧
      (∀ b v n, decode b = .ok (v, n) →
        v < 2 ^ 128 ∧ n = length v ∧ n ≤ b.length ∧ b.take n = encode v) ∧
      ∀ b c v m n, decode b = .ok (v, m) → decode c = .ok (v, n) → b.take m = c.take n := by
  have hpow : 256 ^ 16 = 2 ^ 128 := pow_256 16
  have hform (b : Bytes) (v n : Nat) (h : decode b = .ok (v, n)) :
      v < 2 ^ 128 ∧ n = length v ∧ n ≤ b.length ∧ b.take n = encode v := by
    obtain ⟨hv, hn, rest, hb⟩ := encode_of_decode h
    refine ⟨hpow ▸ hv, hn.trans (length_encode v), used_le h, ?_⟩
    rw [hb, hn, List.take_left]
  refine ⟨fun v hv => ⟨length_encode v, fun rest => ?_⟩, hform, fun b c v m n hb hc => ?_⟩
  · rw [decode_encode (hpow ▸ hv), length_encode]
  · exact (hform b v m hb).2.2.2.trans (hform c v n hc).2.2.2.symm

/-- The largest number takes all of its 16 bytes. It is read from the front of a byte string
that goes on, and every other string that it is read from starts in the same way. -/
theorem largest_form_is_exact : 2 ^ 128 - 1 < 2 ^ 128 ∧ length (2 ^ 128 - 1) = 17 ∧
    decode (0x33 :: List.replicate 16 0xFF ++ [7]) = .ok (2 ^ 128 - 1, 17) ∧
      ∀ b n, decode b = .ok (2 ^ 128 - 1, n) → b.take n = 0x33 :: List.replicate 16 0xFF := by
  obtain ⟨hwritten, hread, hone⟩ := forms_are_exact
  have hencode : encode (2 ^ 128 - 1) = 0x33 :: List.replicate 16 0xFF := by decide +kernel
  obtain ⟨-, hdecode⟩ := hwritten (2 ^ 128 - 1) (by decide)
  have hlength : length (2 ^ 128 - 1) = 17 := by decide +kernel
  have hseven := hdecode [7]
  rw [hencode, hlength] at hseven
  obtain ⟨-, -, -, htake⟩ := hread _ _ _ hseven
  refine ⟨by decide, hlength, hseven, fun b n hb => ?_⟩
  exact (hone b _ _ n 17 hb hseven).trans (htake.trans hencode)

end Wire.Compact

namespace Cursor

theorem compact_eq_ok {c d : Cursor} {v : Nat} :
    c.compact = .ok (v, d) ↔ v < 256 ^ 16 ∧ c.Consumes (Wire.Compact.encode v) d := by
  unfold compact
  split
  · next e he =>
    simp only [reduceCtorEq, false_iff]
    intro h
    obtain ⟨hv, h⟩ := h
    rw [h.rest, Wire.Compact.decode_encode hv] at he
    cases he
  · next w n hd =>
    obtain ⟨hw, hn, rest, hrest⟩ := Wire.Compact.encode_of_decode hd
    have htake : c.rest.take n = Wire.Compact.encode w := by rw [hrest, hn, List.take_left]
    have hs := c.consumes_skip n (Wire.Compact.used_le hd)
    rw [htake] at hs
    rw [Except.ok.injEq, Prod.mk.injEq]
    constructor
    · intro h
      obtain ⟨rfl, rfl⟩ := h
      exact ⟨hw, hs⟩
    · intro h
      obtain ⟨hv, h⟩ := h
      rw [h.rest, Wire.Compact.decode_encode hv] at hd
      obtain ⟨rfl, -⟩ := Prod.mk.inj (Except.ok.inj hd)
      exact ⟨rfl, hs.unique h⟩

@[simp] theorem integer_eq_ok {c d : Cursor} {v : Nat} :
    c.integer = .ok (v, d) ↔ v < 256 ^ 16 ∧ c.Consumes (Wire.Compact.encode v) d := by
  rw [← compact_eq_ok]
  unfold integer
  split
  · next h => rw [h, Except.ok.injEq, Except.ok.injEq]
  · next h => simp [h, fail]
  · next h => simp [h, fail]

@[simp] theorem count_eq_ok {c d : Cursor} {minSize limit n : Nat} :
    c.count minSize limit = .ok (n, d) ↔
      n < 256 ^ 16 ∧ c.Consumes (Wire.Compact.encode n) d ∧
        if minSize = 0 then n ≤ limit else n * minSize ≤ d.remaining := by
  have hfits (v : Nat) (e : Cursor) :
      (if (if minSize = 0 then limit < v else e.remaining < v * minSize) then
          c.fail (.lengthOverrun v e.remaining) else pure (v, e)) =
        (.ok (n, d) : Except DecodeFailure (Nat × Cursor)) ↔
      v = n ∧ e = d ∧ if minSize = 0 then n ≤ limit else n * minSize ≤ d.remaining := by
    by_cases hm : minSize = 0
    · by_cases ho : limit < v
      · simp [hm, ho, fail]
        omega
      · simp [hm, ho]
        omega
    · by_cases ho : e.remaining < v * minSize
      · simp only [hm, ho, if_false, if_true, fail, reduceCtorEq, false_iff]
        intro h
        obtain ⟨rfl, rfl, h⟩ := h
        omega
      · simp only [hm, ho, if_false, pure_eq_ok, Prod.mk.injEq]
        constructor
        · intro h
          obtain ⟨rfl, rfl⟩ := h
          exact ⟨rfl, rfl, by omega⟩
        · intro h
          obtain ⟨rfl, rfl, -⟩ := h
          exact ⟨rfl, rfl⟩
  simp only [count, bind_eq_ok, Prod.exists, integer_eq_ok, hfits]
  constructor
  · intro h
    obtain ⟨v, e, ⟨hv, hc⟩, rfl, rfl, h⟩ := h
    exact ⟨hv, hc, h⟩
  · intro h
    obtain ⟨hv, hc, h⟩ := h
    exact ⟨n, d, ⟨hv, hc⟩, rfl, rfl, h⟩

end Cursor

end ColdSigner
