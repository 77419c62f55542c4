import ColdSigner.Proofs.Text.Rendering
import ColdSigner.Text.Amount
import Mathlib.Algebra.Field.Rat
import Mathlib.Data.List.TakeWhile
import Mathlib.Data.Nat.Cast.Field
import Mathlib.Tactic.FieldSimp
import Mathlib.Tactic.NormNum

/-! Amounts are shown exactly.

`decimal?` reads a decimal numeral, and of an amount in whole units it reads the exact
quotient: the whole units in front of the point, and behind it the digits of what is left,
of which only zeros at the end are dropped. `amounts_shown_exactly` adds that there is one
such numeral, without zeros or a point that could be missed. -/
namespace ColdSigner.Amount

/-! ### Decimal numerals -/

/-- The number that a row of digits spells. -/
def natural? (s : List Char) : Option Nat :=
  if !s.isEmpty && s.all Char.isDigit then some (Nat.ofDigitChars 10 s 0) else none

/-- The number that a numeral spells: digits, and maybe a point with digits behind it. -/
def decimal? (s : List Char) : Option ℚ :=
  let whole := s.takeWhile (· != '.')
  match s.dropWhile (· != '.') with
  | [] => (natural? whole).map fun w : Nat => (w : ℚ)
  | _ :: fraction =>
    (natural? whole).bind fun w : Nat =>
      (natural? fraction).map fun f : Nat => (w : ℚ) + (f : ℚ) / 10 ^ fraction.length

/-- A numeral without a zero that could be left out. -/
structure Shortest (s : List Char) : Prop where
  leading : ∀ rest, s = '0' :: rest → rest = [] ∨ rest.head? = some '.'
  trailing : '.' ∈ s → s.getLast? ≠ some '0'

variable {s whole fraction : List Char}

theorem natural?_of_digits (hs : s ≠ []) (digits : ∀ c ∈ s, c.isDigit) :
    natural? s = some (Nat.ofDigitChars 10 s 0) :=
  if_pos (by simpa [hs] using digits)

theorem ne_point_of_digits (digits : ∀ c ∈ s, c.isDigit) : ∀ c ∈ s, (c != '.') = true := by
  intro c hc
  have hdigit := digits c hc
  simp only [bne_iff_ne, ne_eq]
  intro h
  rw [h] at hdigit
  cases hdigit

/-- Digits alone are a numeral. -/
theorem decimal?_whole (hs : whole ≠ []) (digits : ∀ c ∈ whole, c.isDigit) :
    decimal? whole = some (Nat.ofDigitChars 10 whole 0 : ℚ) := by
  have hpoint := ne_point_of_digits digits
  have htake : whole.takeWhile (· != '.') = whole := List.takeWhile_eq_self_iff.2 hpoint
  have hdrop : whole.dropWhile (· != '.') = [] := List.dropWhile_eq_nil_iff.2 hpoint
  simp only [decimal?, htake, hdrop, natural?_of_digits hs digits, Option.map_some]

/-- Digits, a point and digits are a numeral. -/
theorem decimal?_point (hw : whole ≠ []) (wholeDigits : ∀ c ∈ whole, c.isDigit)
    (hf : fraction ≠ []) (fractionDigits : ∀ c ∈ fraction, c.isDigit) :
    decimal? (whole ++ '.' :: fraction) =
      some ((Nat.ofDigitChars 10 whole 0 : ℚ) +
        (Nat.ofDigitChars 10 fraction 0 : ℚ) / 10 ^ fraction.length) := by
  have hpoint := ne_point_of_digits wholeDigits
  have htake : (whole ++ '.' :: fraction).takeWhile (· != '.') = whole := by
    rw [List.takeWhile_append_of_pos hpoint, List.takeWhile_cons_of_neg (by decide),
      List.append_nil]
  have hdrop : (whole ++ '.' :: fraction).dropWhile (· != '.') = '.' :: fraction := by
    rw [List.dropWhile_append_of_pos hpoint, List.dropWhile_cons_of_neg (by decide)]
  simp only [decimal?, htake, hdrop, natural?_of_digits hw wholeDigits,
    natural?_of_digits hf fractionDigits, Option.bind_some, Option.map_some]

/-! ### Digits of whole units -/

theorem digits_toDigits (n : Nat) : ∀ c ∈ Nat.toDigits 10 n, c.isDigit :=
  fun _ => Nat.isDigit_of_mem_toDigits (by decide) (by decide)

/-- Only zero starts with a zero. -/
theorem head?_toDigits {n : Nat} (hn : n ≠ 0) : (Nat.toDigits 10 n).head? ≠ some '0' := by
  induction n using Nat.strongRecOn with
  | ind n ih =>
    by_cases hlt : n < 10
    · have hall : ∀ m : Fin 10, m.val ≠ 0 → m.val.digitChar ≠ '0' := by decide
      rw [Nat.toDigits_of_lt_base hlt, List.head?_cons, ne_eq, Option.some.injEq]
      exact hall ⟨n, hlt⟩ hn
    · rw [Nat.toDigits_of_base_le (by decide) (by omega),
        List.head?_append_of_ne_nil _ Nat.toDigits_ne_nil]
      exact ih (n / 10) (by omega) (by omega)

theorem toDigits_append_eq_cons_zero {n : Nat} {rest : List Char}
    (h : Nat.toDigits 10 n ++ s = '0' :: rest) : rest = s := by
  by_cases hn : n = 0
  · subst hn
    exact (List.cons.inj h).2.symm
  · have hhead := congrArg List.head? h
    rw [List.head?_append_of_ne_nil _ Nat.toDigits_ne_nil] at hhead
    exact absurd hhead (head?_toDigits hn)

/-! ### Digits behind the point -/

theorem length_padded {width n : Nat} (h : n < 10 ^ width) (hn : n ≠ 0) :
    (padded width n).length = width := by
  have hwidth : 0 < width := by
    refine Nat.pos_of_ne_zero ?_
    intro h
    subst h
    omega
  have := (Nat.length_toDigits_le_iff (by decide) hwidth).2 h
  dsimp only [padded]
  rw [List.length_append, List.length_replicate]
  omega

theorem ofDigitChars_padded (width n : Nat) : Nat.ofDigitChars 10 (padded width n) 0 = n := by
  dsimp only [padded]
  rw [Nat.ofDigitChars_append, Nat.ofDigitChars_replicate_zero, Nat.mul_zero,
    Nat.ofDigitChars_ten_toDigits]

/-- Only zeros are dropped. -/
theorem exists_dropZeros (s : List Char) : ∃ n, s = dropZeros s ++ List.replicate n '0' := by
  refine ⟨(s.reverse.takeWhile (· == '0')).length, ?_⟩
  have hzeros : s.reverse.takeWhile (· == '0') =
      List.replicate (s.reverse.takeWhile (· == '0')).length '0' :=
    List.eq_replicate_iff.2 ⟨rfl, fun c hc => by simpa using List.mem_takeWhile_imp hc⟩
  rw [dropZeros, ← List.reverse_replicate, ← hzeros, ← List.reverse_append,
    List.takeWhile_append_dropWhile, List.reverse_reverse]

theorem digits_dropZeros_padded (width n : Nat) : ∀ c ∈ dropZeros (padded width n), c.isDigit := by
  intro c hc
  obtain ⟨k, hk⟩ := exists_dropZeros (padded width n)
  have hmem : c ∈ padded width n := by
    rw [hk]
    exact List.mem_append_left _ hc
  rcases List.mem_append.1 hmem with hzero | hdigit
  · obtain rfl := List.eq_of_mem_replicate hzero
    rfl
  · exact digits_toDigits n c hdigit

theorem getLast?_dropZeros (s : List Char) : (dropZeros s).getLast? ≠ some '0' := by
  intro h
  rw [dropZeros, List.getLast?_reverse] at h
  have hstop := List.head?_dropWhile_not (· == '0') s.reverse
  rw [h] at hstop
  cases hstop

/-- The digits that are left spell the same part of one. -/
theorem fraction_dropZeros {width n : Nat} (h : n < 10 ^ width) (hn : n ≠ 0) :
    (Nat.ofDigitChars 10 (dropZeros (padded width n)) 0 : ℚ) /
      10 ^ (dropZeros (padded width n)).length = (n : ℚ) / 10 ^ width := by
  obtain ⟨k, hk⟩ := exists_dropZeros (padded width n)
  have hlength := congrArg List.length hk
  have hvalue := congrArg (Nat.ofDigitChars 10 · 0) hk
  simp only [length_padded h hn, List.length_append, List.length_replicate] at hlength
  simp only [ofDigitChars_padded, Nat.ofDigitChars_append, Nat.ofDigitChars_replicate_zero] at hvalue
  have hcast : (n : ℚ) = 10 ^ k * (Nat.ofDigitChars 10 (dropZeros (padded width n)) 0 : ℚ) := by
    exact_mod_cast hvalue
  have hscale : (10 : ℚ) ^ width = 10 ^ (dropZeros (padded width n)).length * 10 ^ k := by
    rw [← pow_add, ← hlength]
  rw [hcast, hscale]
  field_simp

theorem dropZeros_padded_ne_nil {width n : Nat} (hn : n ≠ 0) : dropZeros (padded width n) ≠ [] := by
  intro hnil
  obtain ⟨k, hk⟩ := exists_dropZeros (padded width n)
  have hvalue := congrArg (Nat.ofDigitChars 10 · 0) hk
  simp only [hnil, ofDigitChars_padded, List.nil_append, Nat.ofDigitChars_replicate_zero,
    Nat.mul_zero] at hvalue
  exact hn hvalue

/-! ### The numeral of an amount -/

theorem numeral_of_dvd {value decimals : Nat} (h : 10 ^ decimals ∣ value) :
    numeral value decimals = Nat.toDigits 10 (value / 10 ^ decimals) :=
  if_pos (Nat.mod_eq_zero_of_dvd h)

theorem numeral_of_not_dvd {value decimals : Nat} (h : ¬10 ^ decimals ∣ value) :
    numeral value decimals = Nat.toDigits 10 (value / 10 ^ decimals) ++
      '.' :: dropZeros (padded decimals (value % 10 ^ decimals)) :=
  if_neg fun hmod => h (Nat.dvd_of_mod_eq_zero hmod)

/-- The numeral spells the quotient. -/
theorem decimal?_numeral (value decimals : Nat) :
    decimal? (numeral value decimals) = some ((value : ℚ) / 10 ^ decimals) := by
  have hscale : 0 < 10 ^ decimals := Nat.pow_pos (by decide)
  by_cases hdvd : 10 ^ decimals ∣ value
  · have hquotient : ((value / 10 ^ decimals : Nat) : ℚ) = (value : ℚ) / 10 ^ decimals := by
      rw [Nat.cast_div hdvd (by exact_mod_cast hscale.ne'), Nat.cast_pow, Nat.cast_ofNat]
    rw [numeral_of_dvd hdvd, decimal?_whole Nat.toDigits_ne_nil (digits_toDigits _),
      Nat.ofDigitChars_ten_toDigits, hquotient]
  · have hleft : value % 10 ^ decimals ≠ 0 := fun h => hdvd (Nat.dvd_of_mod_eq_zero h)
    have hsplit : (value : ℚ) =
        10 ^ decimals * (value / 10 ^ decimals : Nat) + (value % 10 ^ decimals : Nat) := by
      exact_mod_cast (Nat.div_add_mod value (10 ^ decimals)).symm
    rw [numeral_of_not_dvd hdvd, decimal?_point Nat.toDigits_ne_nil (digits_toDigits _)
      (dropZeros_padded_ne_nil hleft) (digits_dropZeros_padded _ _),
      Nat.ofDigitChars_ten_toDigits, fraction_dropZeros (Nat.mod_lt _ hscale) hleft]
    congr 1
    conv_rhs => rw [hsplit]
    field_simp

theorem shortest_numeral (value decimals : Nat) : Shortest (numeral value decimals) := by
  by_cases hdvd : 10 ^ decimals ∣ value
  · rw [numeral_of_dvd hdvd]
    refine ⟨fun rest h => .inl ?_, fun hpoint => absurd hpoint (notMem_toDigits (by decide) _)⟩
    exact toDigits_append_eq_cons_zero ((List.append_nil _).trans h)
  · rw [numeral_of_not_dvd hdvd]
    refine ⟨fun rest h => .inr ?_, fun _ => ?_⟩
    · rw [toDigits_append_eq_cons_zero h, List.head?_cons]
    · have hne : dropZeros (padded decimals (value % 10 ^ decimals)) ≠ [] :=
        dropZeros_padded_ne_nil fun h => hdvd (Nat.dvd_of_mod_eq_zero h)
      obtain ⟨c, rest, hc⟩ := List.exists_cons_of_ne_nil hne
      have hlast := getLast?_dropZeros (padded decimals (value % 10 ^ decimals))
      rw [hc] at hlast ⊢
      rw [List.getLast?_append_of_ne_nil _ (List.cons_ne_nil _ _), List.getLast?_cons_cons]
      exact hlast

theorem point_mem_numeral_iff (value decimals : Nat) :
    '.' ∈ numeral value decimals ↔ ¬10 ^ decimals ∣ value := by
  by_cases hdvd : 10 ^ decimals ∣ value
  · rw [numeral_of_dvd hdvd]
    exact iff_of_false (notMem_toDigits (by decide) _) (not_not_intro hdvd)
  · rw [numeral_of_not_dvd hdvd]
    exact iff_of_true (List.mem_append_right _ (List.mem_cons_self ..)) hdvd

/-! ### The numeral in 128 bits -/

/-- `10 ^ decimals` in 128 bits, where these hold it. -/
def scale? (decimals : UInt8) : Option (BitVec 128) :=
  if 10 ^ decimals.toNat < 2 ^ 128 then some (BitVec.ofNat 128 (10 ^ decimals.toNat)) else none

/-- The numeral by division in 128 bits. Every amount is below a scale that is too large
for them. -/
def wideNumeral (value : BitVec 128) (decimals : UInt8) : List Char :=
  match scale? decimals with
  | some scale =>
    let whole := Nat.toDigits 10 (value / scale).toNat
    let fraction := value % scale
    if fraction = 0 then whole
    else whole ++ '.' :: dropZeros (padded decimals.toNat fraction.toNat)
  | none =>
    if value = 0 then ['0'] else '0' :: '.' :: dropZeros (padded decimals.toNat value.toNat)

theorem wideNumeral_eq (value : BitVec 128) (decimals : UInt8) :
    wideNumeral value decimals = numeral value.toNat decimals.toNat := by
  have hzero (v : BitVec 128) : v = 0 ↔ v.toNat = 0 := by
    rw [← BitVec.toNat_inj]
    rfl
  unfold wideNumeral scale?
  by_cases hfits : 10 ^ decimals.toNat < 2 ^ 128
  · have hscale : (BitVec.ofNat 128 (10 ^ decimals.toNat)).toNat = 10 ^ decimals.toNat := by
      rw [BitVec.toNat_ofNat, Nat.mod_eq_of_lt hfits]
    simp only [if_pos hfits, hzero, BitVec.toNat_udiv, BitVec.toNat_umod, hscale]
    rfl
  · have hlt : value.toNat < 10 ^ decimals.toNat := by
      have := value.isLt
      omega
    simp only [if_neg hfits, hzero]
    by_cases hv : value.toNat = 0
    · rw [if_pos hv, hv, numeral_of_dvd (Nat.dvd_zero _), Nat.zero_div, Nat.toDigits_zero]
    · have hdvd : ¬10 ^ decimals.toNat ∣ value.toNat := fun h => hv (Nat.eq_zero_of_dvd_of_lt h hlt)
      rw [if_neg hv, numeral_of_not_dvd hdvd, Nat.div_eq_of_lt hlt, Nat.mod_eq_of_lt hlt,
        Nat.toDigits_zero]
      rfl

/-! ### The amount with its unit -/

/-- The characters before the first space. -/
def numberPart (shown : String) : List Char := shown.toList.takeWhile (· != ' ')

theorem space_notMem_numeral (value decimals : Nat) : ' ' ∉ numeral value decimals := by
  by_cases hdvd : 10 ^ decimals ∣ value
  · rw [numeral_of_dvd hdvd]
    exact notMem_toDigits (by decide) _
  · rw [numeral_of_not_dvd hdvd, List.mem_append, List.mem_cons]
    rintro (h | h | h)
    · exact notMem_toDigits (by decide) _ h
    · cases h
    · cases digits_dropZeros_padded _ _ _ h

theorem numberPart_render (value decimals : Nat) (unit : String) :
    numberPart (render value decimals unit) = numeral value decimals := by
  have hspace : ∀ c ∈ numeral value decimals, (c != ' ') = true := fun c hc => by
    simpa using ne_of_mem_of_not_mem hc (space_notMem_numeral value decimals)
  unfold numberPart render
  split
  · rw [String.toList_ofList, List.takeWhile_eq_self_iff.2 hspace]
  · rw [String.toList_append, String.toList_append, String.toList_ofList, List.append_assoc,
      List.takeWhile_append_of_pos hspace]
    show _ ++ List.takeWhile _ (' ' :: unit.toList) = _
    rw [List.takeWhile_cons_of_neg (by decide), List.append_nil]

theorem render_injective {v w decimals : Nat} {unit : String}
    (h : render v decimals unit = render w decimals unit) : v = w := by
  have hnumber := congrArg (fun shown => decimal? (numberPart shown)) h
  simp only [numberPart_render, decimal?_numeral, Option.some.injEq] at hnumber
  have hscale : (10 : ℚ) ^ decimals ≠ 0 := pow_ne_zero _ (by norm_num)
  exact_mod_cast (div_left_inj' hscale).1 hnumber

/-- The number shown of an amount spells `value / 10 ^ decimals` exactly. It has no zero
that could be left out, and a point only in front of digits that are not zero. So amounts of
the same decimals and unit that are shown alike are equal. A division in 128 bits gives the
same numeral for each amount that fits into them. -/
theorem amounts_shown_exactly (value decimals : Nat) (unit : String) :
    decimal? (numberPart (render value decimals unit)) = some ((value : ℚ) / 10 ^ decimals) ∧
      Shortest (numberPart (render value decimals unit)) ∧
      ('.' ∈ numberPart (render value decimals unit) ↔ ¬10 ^ decimals ∣ value) ∧
      (∀ other, render other decimals unit = render value decimals unit → other = value) ∧
      ∀ (wide : BitVec 128) (places : UInt8),
        numberPart (render wide.toNat places.toNat unit) = wideNumeral wide places := by
  simp only [numberPart_render]
  exact ⟨decimal?_numeral value decimals, shortest_numeral value decimals,
    point_mem_numeral_iff value decimals, fun other h => render_injective h,
    fun wide places => (wideNumeral_eq wide places).symm⟩

/-- An amount whose last digits are zeros, and the next one. -/
theorem neighbouring_amounts_shown :
    decimal? (numberPart (render 1500 3 "DOT")) = some (3 / 2) ∧
      render 1500 3 "DOT" = "1.5 DOT" ∧ render 1501 3 "DOT" ≠ render 1500 3 "DOT" := by
  obtain ⟨hexact, -, -, hapart, -⟩ := amounts_shown_exactly 1500 3 "DOT"
  refine ⟨?_, by decide +kernel, fun h => absurd (hapart 1501 h) (by decide)⟩
  rw [hexact]
  norm_num

end ColdSigner.Amount
