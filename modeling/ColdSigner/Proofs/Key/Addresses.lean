import ColdSigner.Bytes.Lemmas
import ColdSigner.Key.Address
import Mathlib.Algebra.Order.Ring.Nat
import Mathlib.Data.List.TakeWhile

/-! What an address tells.

Base 58 keeps a byte string: its zeros at the front as zero digits, and the rest as a number
without any. So an address tells the bytes of its format and its key, and the first of these
says how many there are. Two bytes hold 14 bits. Of a format that has more of them, the two
highest meet the two lowest in the same place, and `folded` is what is left. -/
namespace ColdSigner

/-! ### Numbers and their first byte -/

namespace Bytes

theorem toNatBE_cons (x : UInt8) (b : Bytes) :
    toNatBE (x :: b) = toNatBE b + 256 ^ b.length * x.toNat := by
  unfold toNatBE
  rw [List.reverse_cons, toNat_append, List.length_reverse]
  rfl

theorem toNatBE_dropWhile (b : Bytes) : toNatBE (b.dropWhile (· == 0)) = toNatBE b := by
  induction b with
  | nil => rfl
  | cons x b ih =>
    by_cases hx : x = 0
    · subst hx
      rw [List.dropWhile_cons_of_pos (by decide), ih, toNatBE_cons]
      rfl
    · rw [List.dropWhile_cons_of_neg (by simpa using hx)]

theorem toNatBE_lt (b : Bytes) : toNatBE b < 256 ^ b.length := by
  have h := toNat_lt b.reverse
  rwa [List.length_reverse] at h

/-- A first byte that is not zero counts. -/
theorem pow_le_toNatBE {b : Bytes} (h : ∀ x ∈ b.head?, x ≠ 0) (hb : b ≠ []) :
    256 ^ (b.length - 1) ≤ toNatBE b := by
  obtain ⟨x, rest, rfl⟩ := List.exists_cons_of_ne_nil hb
  have hx : 0 < x.toNat := Nat.pos_of_ne_zero fun hzero => h x rfl (UInt8.toNat_inj.1 hzero)
  rw [toNatBE_cons]
  calc 256 ^ rest.length
      ≤ 256 ^ rest.length * x.toNat := Nat.le_mul_of_pos_right _ hx
    _ ≤ toNatBE rest + 256 ^ rest.length * x.toNat := Nat.le_add_left _ _

/-- Without zeros at the front, a number tells how many bytes it has. -/
theorem length_le_of_toNatBE {a b : Bytes} (ha : ∀ x ∈ a.head?, x ≠ 0)
    (h : toNatBE a = toNatBE b) : a.length ≤ b.length := by
  by_cases hnil : a = []
  · rw [hnil]
    exact Nat.zero_le _
  · have hpow : 256 ^ (a.length - 1) < 256 ^ b.length :=
      (pow_le_toNatBE ha hnil).trans_lt (h ▸ toNatBE_lt b)
    have := (Nat.pow_lt_pow_iff_right (by decide)).1 hpow
    omega

theorem eq_of_toNatBE {a b : Bytes} (ha : ∀ x ∈ a.head?, x ≠ 0) (hb : ∀ x ∈ b.head?, x ≠ 0)
    (h : toNatBE a = toNatBE b) : a = b := by
  have hlength := Nat.le_antisymm (length_le_of_toNatBE ha h) (length_le_of_toNatBE hb h.symm)
  exact toNatBE_injective hlength h

end Bytes

/-! ### Base 58 -/

namespace Base58

/-- The number that digits spell after `acc`. -/
def value (acc : Nat) (s : List Char) : Nat :=
  s.foldl (fun acc c => 58 * acc + alphabet.idxOf c) acc

theorem value_cons (acc : Nat) (c : Char) (s : List Char) :
    value acc (c :: s) = value (58 * acc + alphabet.idxOf c) s := rfl

theorem idxOf_digit {v : Nat} (h : v < 58) : alphabet.idxOf (digit v) = v := by
  have hall : ∀ v : Fin 58, alphabet.idxOf (digit v) = v := by decide +kernel
  exact hall ⟨v, h⟩

/-- Digits in front of others spell the number that the others continue. -/
theorem value_digits (n : Nat) (acc : List Char) : value 0 (digits n acc) = value n acc := by
  induction n using Nat.strongRecOn generalizing acc with
  | ind n ih =>
    rw [digits]
    split
    · next hn => rw [hn]
    · next hn =>
      rw [ih (n / 58) (by omega), value_cons, idxOf_digit (Nat.mod_lt n (by decide)),
        Nat.div_add_mod]

theorem value_zeros (zeros : Bytes) (s : List Char) :
    value 0 (zeros.map (fun _ => digit 0) ++ s) = value 0 s := by
  induction zeros with
  | nil => rfl
  | cons z rest ih =>
    rw [List.map_cons, List.cons_append, value_cons, idxOf_digit (by decide)]
    exact ih

theorem digit_ne {v : Nat} (hv : v < 58) (hne : v ≠ 0) : digit v ≠ digit 0 := by
  intro h
  have hindex := congrArg alphabet.idxOf h
  rw [idxOf_digit hv, idxOf_digit (by decide)] at hindex
  exact hne hindex

/-- The first digit of a number is not zero. -/
theorem takeWhile_digits (n : Nat) (hn : n ≠ 0) (acc : List Char) :
    (digits n acc).takeWhile (· == digit 0) = [] := by
  induction n using Nat.strongRecOn generalizing acc with
  | ind n ih =>
    rw [digits, dif_neg hn]
    by_cases hlow : n / 58 = 0
    · have hdigit : digit (n % 58) ≠ digit 0 := digit_ne (Nat.mod_lt _ (by decide)) (by omega)
      rw [digits, dif_pos hlow, List.takeWhile_cons_of_neg (by simpa using hdigit)]
    · exact ih (n / 58) (by omega) hlow _

theorem takeWhile_encode (b : Bytes) :
    (encode b).toList.takeWhile (· == digit 0) = (b.takeWhile (· == 0)).map fun _ => digit 0 := by
  rw [encode, String.toList_ofList, List.takeWhile_append_of_pos (by simp)]
  by_cases hb : b.toNatBE = 0
  · rw [hb, digits, dif_pos rfl, List.takeWhile_nil, List.append_nil]
  · rw [takeWhile_digits _ hb, List.append_nil]

theorem value_encode (b : Bytes) : value 0 (encode b).toList = b.toNatBE := by
  rw [encode, String.toList_ofList, value_zeros, value_digits]
  rfl

/-- Byte strings of any length are told by their digits. -/
theorem encode_inj {a b : Bytes} (h : encode a = encode b) : a = b := by
  have hzeros : a.takeWhile (· == 0) = b.takeWhile (· == 0) := by
    have hlead := congrArg (fun s : String => (s.toList.takeWhile (· == digit 0)).length) h
    simp only [takeWhile_encode, List.length_map] at hlead
    have replicate (c : Bytes) :
        c.takeWhile (· == 0) = List.replicate (c.takeWhile (· == 0)).length 0 :=
      List.eq_replicate_iff.2 ⟨rfl, fun x hx => by simpa using List.mem_takeWhile_imp hx⟩
    rw [replicate a, replicate b, hlead]
  have hhead (c : Bytes) : ∀ x ∈ (c.dropWhile (· == 0)).head?, x ≠ 0 := by
    intro x hx hzero
    have hstop := List.head?_dropWhile_not (· == 0) c
    rw [Option.mem_def.1 hx, hzero] at hstop
    cases hstop
  have hrest : a.dropWhile (· == 0) = b.dropWhile (· == 0) := by
    refine Bytes.eq_of_toNatBE (hhead a) (hhead b) ?_
    rw [Bytes.toNatBE_dropWhile, Bytes.toNatBE_dropWhile, ← value_encode, ← value_encode, h]
  rw [← List.takeWhile_append_dropWhile (p := (· == 0)) (l := a), hzeros, hrest,
    List.takeWhile_append_dropWhile]

end Base58

/-! ### Formats -/

namespace Address

theorem or_above {i c : Nat} (hc : c < 2 ^ i) (a b : Nat) :
    (2 ^ i * a + c) ||| 2 ^ i * b = 2 ^ i * (a ||| b) + c := by
  have hor : 2 ^ i * a ||| 2 ^ i * b = 2 ^ i * (a ||| b) := by
    simp only [Nat.mul_comm (2 ^ i), ← Nat.shiftLeft_eq, Nat.shiftLeft_or_distrib]
  rw [Nat.two_pow_add_eq_or_of_lt hc, Nat.two_pow_add_eq_or_of_lt hc, ← hor, Nat.or_assoc,
    Nat.or_comm c, Nat.or_assoc]

theorem or_below {i c d : Nat} (hc : c < 2 ^ i) (hd : d < 2 ^ i) (a : Nat) :
    (2 ^ i * a + c) ||| d = 2 ^ i * a + (c ||| d) := by
  rw [Nat.two_pow_add_eq_or_of_lt hc, Nat.two_pow_add_eq_or_of_lt (Nat.or_lt_two_pow hc hd),
    Nat.or_assoc]

/-- The 14 low bits of a format, the two lowest of them together with the two highest bits
of all. -/
def folded (format : UInt16) : UInt16 := (format &&& (0x3FFF : UInt16)) ||| (format >>> 14)

/-- The two lowest bits of a format together with the two highest. -/
def meeting (n : Nat) : Nat := n % 4 ||| n / 16384

theorem meeting_lt {n : Nat} (hn : n < 65536) : meeting n < 4 :=
  Nat.or_lt_two_pow (n := 2) (by omega) (by omega)

theorem toNat_folded (format : UInt16) :
    (folded format).toNat =
      256 * (format.toNat / 256 % 64) + 4 * (format.toNat / 4 % 64) + meeting format.toNat := by
  have hn := format.toNat_lt
  have hmask : format.toNat &&& 16383 = 2 ^ 2 * (format.toNat % 16384 / 4) + format.toNat % 4 := by
    have h : format.toNat &&& 16383 = format.toNat % 16384 := Nat.and_two_pow_sub_one_eq_mod _ 14
    omega
  have hshift : format.toNat >>> 14 = format.toNat / 16384 := Nat.shiftRight_eq_div_pow _ 14
  have hjoin := or_below (i := 2) (c := format.toNat % 4) (d := format.toNat / 16384)
    (by omega) (by omega) (format.toNat % 16384 / 4)
  have htoNat : (folded format).toNat = (format.toNat &&& 16383) ||| (format.toNat >>> 14) := by
    simp [folded]
  rw [htoNat, hmask, hshift, hjoin, meeting]
  omega

theorem toNat_first (format : UInt16) :
    (((format &&& 0xFC) >>> 2).toUInt8 ||| 0x40).toNat = 64 + format.toNat / 4 % 64 := by
  have hmask : (format.toNat &&& 252) >>> 2 % 256 = format.toNat / 4 % 64 := by
    have h : format.toNat >>> 2 &&& 63 = format.toNat >>> 2 % 64 := Nat.and_two_pow_sub_one_eq_mod _ 6
    rw [Nat.shiftRight_and_distrib, show 252 >>> 2 = 63 from rfl, h, Nat.shiftRight_eq_div_pow]
    omega
  have hflag := or_above (i := 6) (c := format.toNat / 4 % 64) (by omega) 0 1
  have htoNat : (((format &&& 0xFC) >>> 2).toUInt8 ||| 0x40).toNat =
      (format.toNat &&& 252) >>> 2 % 256 ||| 64 := by simp
  rw [htoNat, hmask]
  simpa using hflag

theorem toNat_second (format : UInt16) :
    ((format >>> 8).toUInt8 ||| ((format &&& 3).toUInt8 <<< 6)).toNat =
      64 * meeting format.toNat + format.toNat / 256 % 64 := by
  have hn := format.toNat_lt
  have hhigh : format.toNat >>> 8 % 256 =
      2 ^ 6 * (format.toNat / 16384) + format.toNat / 256 % 64 := by
    rw [Nat.shiftRight_eq_div_pow]
    omega
  have hlow : (format.toNat % 256 &&& 3) <<< 6 % 256 = 2 ^ 6 * (format.toNat % 4) := by
    have h : format.toNat % 256 &&& 3 = format.toNat % 256 % 4 := Nat.and_two_pow_sub_one_eq_mod _ 2
    rw [h, Nat.shiftLeft_eq]
    omega
  have hjoin := or_above (i := 6) (c := format.toNat / 256 % 64) (by omega)
    (format.toNat / 16384) (format.toNat % 4)
  have htoNat : ((format >>> 8).toUInt8 ||| ((format &&& 3).toUInt8 <<< 6)).toNat =
      format.toNat >>> 8 % 256 ||| (format.toNat % 256 &&& 3) <<< 6 % 256 := by simp
  rw [htoNat, hhigh, hlow, hjoin, Nat.or_comm]
  rfl

/-- Nothing meets in a format of 14 bits. -/
theorem folded_of_lt {format : UInt16} (h : format < 16384) : folded format = format := by
  have hn : format.toNat < 16384 := UInt16.lt_iff_toNat_lt.1 h
  have hmeeting : meeting format.toNat = format.toNat % 4 := by
    rw [meeting, Nat.div_eq_of_lt hn, Nat.or_zero]
  refine UInt16.toNat_inj.1 ?_
  rw [toNat_folded, hmeeting]
  omega

theorem formatBytes_of_lt {format : UInt16} (h : format < 64) :
    formatBytes format = [format.toUInt8] := if_pos h

theorem formatBytes_of_le {format : UInt16} (h : ¬format < 64) :
    formatBytes format = [((format &&& 0xFC) >>> 2).toUInt8 ||| 0x40,
      (format >>> 8).toUInt8 ||| ((format &&& 3).toUInt8 <<< 6)] := if_neg h

/-- The first byte tells whether there is another one. -/
theorem exists_formatBytes (format : UInt16) : ∃ first rest, formatBytes format = first :: rest ∧
    (first < 64 ↔ format < 64) ∧ rest.length = if format < 64 then 0 else 1 := by
  by_cases hlow : format < 64
  · refine ⟨_, _, formatBytes_of_lt hlow, iff_of_true ?_ hlow, (if_pos hlow).symm⟩
    have hn : format.toNat < 64 := UInt16.lt_iff_toNat_lt.1 hlow
    rw [UInt8.lt_iff_toNat_lt, UInt16.toNat_toUInt8]
    exact (Nat.mod_le _ _).trans_lt hn
  · refine ⟨_, _, formatBytes_of_le hlow, iff_of_false ?_ hlow, (if_neg hlow).symm⟩
    rw [UInt8.lt_iff_toNat_lt, toNat_first]
    exact Nat.not_lt.2 (Nat.le_add_right ..)

variable {f g : UInt16} {a b : Bytes}

/-- What stands in front of a key can be told from it. -/
theorem formatBytes_append_inj (h : formatBytes f ++ a = formatBytes g ++ b) :
    (f < 64 ↔ g < 64) ∧ formatBytes f = formatBytes g ∧ a = b := by
  obtain ⟨first, rest, hf, hfirst, hrest⟩ := exists_formatBytes f
  obtain ⟨first', rest', hg, hfirst', hrest'⟩ := exists_formatBytes g
  rw [hf, hg] at h
  obtain ⟨rfl, -⟩ := List.cons.inj h
  have hlow : f < 64 ↔ g < 64 := hfirst.symm.trans hfirst'
  have hlength : (first :: rest).length = (first :: rest').length := by
    simp only [List.length_cons, hrest, hrest', hlow]
  rw [hf, hg]
  exact ⟨hlow, List.append_inj h hlength⟩

theorem formatBytes_eq_iff (hlow : f < 64 ↔ g < 64) :
    formatBytes f = formatBytes g ↔ folded f = folded g := by
  have hf := meeting_lt f.toNat_lt
  have hg := meeting_lt g.toNat_lt
  by_cases hfew : f < 64
  · have hf64 : f.toNat < 64 := UInt16.lt_iff_toNat_lt.1 hfew
    have hg64 : g.toNat < 64 := UInt16.lt_iff_toNat_lt.1 (hlow.1 hfew)
    rw [formatBytes_of_lt hfew, formatBytes_of_lt (hlow.1 hfew),
      folded_of_lt (UInt16.lt_iff_toNat_lt.2 (hf64.trans (by decide))),
      folded_of_lt (UInt16.lt_iff_toNat_lt.2 (hg64.trans (by decide)))]
    simp only [List.cons.injEq, and_true, ← UInt8.toNat_inj, ← UInt16.toNat_inj,
      UInt16.toNat_toUInt8]
    omega
  · rw [formatBytes_of_le hfew, formatBytes_of_le fun hg => hfew (hlow.2 hg)]
    simp only [List.cons.injEq, and_true, ← UInt8.toNat_inj, ← UInt16.toNat_inj, toNat_first,
      toNat_second, toNat_folded]
    omega

theorem encode_eq_iff :
    encode f a = encode g b ↔ (f < 64 ↔ g < 64) ∧ folded f = folded g ∧ a = b := by
  constructor
  · intro h
    have hbytes := Base58.encode_inj h
    have hcheck (k : Bytes) : (((Blake2b.hash 64 k).bytes).take 2).length = 2 := by
      rw [List.length_take, FixedBytes.length_eq]
      rfl
    have hbody := (List.append_inj' hbytes ((hcheck _).trans (hcheck _).symm)).1
    obtain ⟨hlow, hformat, hkey⟩ := formatBytes_append_inj hbody
    exact ⟨hlow, (formatBytes_eq_iff hlow).1 hformat, hkey⟩
  · intro ⟨hlow, hfolded, hkey⟩
    rw [encode, encode, (formatBytes_eq_iff hlow).2 hfolded, hkey]

/-- An address tells its key, and its format up to two bits: formats of 14 bits are told,
and of others it is known whether they are below 64, their 12 bits in the middle, and which
of the two lowest bits is set there or in the two highest. -/
theorem address_tells_key_and_format (f g : UInt16) (a b : Bytes) :
    (encode f a = encode g b ↔ (f < 64 ↔ g < 64) ∧ folded f = folded g ∧ a = b) ∧
      (f < 16384 → g < 16384 → encode f a = encode g b → f = g ∧ a = b) := by
  refine ⟨encode_eq_iff, fun hf hg h => ?_⟩
  obtain ⟨-, hfolded, hkey⟩ := encode_eq_iff.1 h
  rw [folded_of_lt hf, folded_of_lt hg] at hfolded
  exact ⟨hfolded, hkey⟩

/-- A key of 32 bytes. -/
def sampleKey : Bytes := List.replicate 32 7

/-- The formats 65 and 80 have addresses of their own. The bits of 16448 are those of 65 but
for the second highest, which meets the lowest. -/
theorem formats_apart_and_met : (65 : UInt16) < 16384 ∧ (80 : UInt16) < 16384 ∧
    encode 65 sampleKey ≠ encode 80 sampleKey ∧ encode 65 sampleKey = encode 16448 sampleKey := by
  have h65 : (65 : UInt16) < 16384 := by decide
  have h80 : (80 : UInt16) < 16384 := by decide
  refine ⟨h65, h80, fun h => ?_, (address_tells_key_and_format 65 16448 _ _).1.2 (by decide)⟩
  exact absurd ((address_tells_key_and_format 65 80 _ _).2 h65 h80 h).1 (by decide)

/-- Two formats may give one key the same address. -/
theorem not_address_tells_format : ¬∀ (f g : UInt16) (a b : Bytes), a.length ∈ [32, 33] →
    b.length ∈ [32, 33] → encode f a = encode g b → f = g ∧ a = b := by
  intro h
  have hsame : encode 65 sampleKey = encode 16448 sampleKey :=
    encode_eq_iff.2 ⟨by decide, by decide, rfl⟩
  exact absurd (h 65 16448 sampleKey sampleKey (by decide) (by decide) hsame).1 (by decide)

end Address

end ColdSigner
