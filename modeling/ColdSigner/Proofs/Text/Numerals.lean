import ColdSigner.Text.Numeral
import Mathlib.Algebra.Group.Nat.Defs
import Std.Data.String.ToNat

/-! What is a numeral.

Digits, after a plus sign or without it; `numeral?_eq_some` says that they are read as the
number they spell, where this is within the limit. So a limit decides only which numbers are
read and not which one, and what a number is written as is read again. -/
namespace ColdSigner.Text

variable {limit limit' n : Nat} {s : List Char}

/-- Digits, after a plus sign or without it. -/
def IsNumeral (s : List Char) : Prop :=
  ∃ digits, (s = digits ∨ s = '+' :: digits) ∧ digits ≠ [] ∧ ∀ c ∈ digits, c.isDigit

theorem digit?_eq_some {c : Char} {d : Nat} : digit? c = some d ↔ c.isDigit ∧ c.toNat - 48 = d := by
  have hdigit : ('0' ≤ c ∧ c ≤ '9') ↔ c.isDigit := by
    simp [Char.isDigit, Char.le_def]
  rw [digit?, Option.ite_none_right_eq_some, Option.some.injEq, hdigit]

theorem le_ofDigitChars (s : List Char) (acc : Nat) : acc ≤ Nat.ofDigitChars 10 s acc := by
  rw [Nat.ofDigitChars_eq_ofDigitChars_zero]
  have hpos : 0 < 10 ^ s.length := Nat.pow_pos (by decide)
  exact Nat.le_trans (Nat.le_mul_of_pos_left acc hpos) (Nat.le_add_right ..)

/-- A run of digits never gets smaller, so only its number can pass the limit. -/
theorem digits?_eq_some {acc : Nat} (hacc : acc ≤ limit) :
    digits? limit acc s = some n ↔
      (∀ c ∈ s, c.isDigit) ∧ Nat.ofDigitChars 10 s acc = n ∧ n ≤ limit := by
  induction s generalizing acc with
  | nil =>
    rw [digits?, Option.some.injEq, Nat.ofDigitChars_nil]
    constructor
    · intro h
      exact ⟨nofun, h, h ▸ hacc⟩
    · intro h
      exact h.2.1
  | cons c s ih =>
    have hstep : digits? limit acc (c :: s) = some n ↔
        ∃ d, digit? c = some d ∧ 10 * acc + d ≤ limit ∧ digits? limit (10 * acc + d) s = some n := by
      rw [digits?, Option.bind_eq_bind, Option.bind_eq_some_iff]
      simp only [Option.ite_none_right_eq_some]
    rw [hstep, List.forall_mem_cons, Nat.ofDigitChars_cons]
    constructor
    · intro ⟨d, hd, hle, hrest⟩
      obtain ⟨hc, rfl⟩ := digit?_eq_some.1 hd
      obtain ⟨hs, hn, hlimit⟩ := (ih hle).1 hrest
      exact ⟨⟨hc, hs⟩, hn, hlimit⟩
    · intro ⟨⟨hc, hs⟩, hn, hlimit⟩
      have hle : 10 * acc + (c.toNat - 48) ≤ limit :=
        Nat.le_trans (le_ofDigitChars s _) (hn ▸ hlimit)
      exact ⟨_, digit?_eq_some.2 ⟨hc, rfl⟩, hle, (ih hle).2 ⟨hs, hn, hlimit⟩⟩

theorem numeral?_eq_some :
    numeral? limit s = some n ↔ ∃ digits, (s = digits ∨ s = '+' :: digits) ∧ digits ≠ [] ∧
      (∀ c ∈ digits, c.isDigit) ∧ Nat.ofDigitChars 10 digits 0 = n ∧ n ≤ limit := by
  have hread (digits : List Char) :
      (if digits.isEmpty then none else digits? limit 0 digits) = some n ↔ digits ≠ [] ∧
        (∀ c ∈ digits, c.isDigit) ∧ Nat.ofDigitChars 10 digits 0 = n ∧ n ≤ limit := by
    rw [Option.ite_none_left_eq_some, digits?_eq_some (Nat.zero_le _), List.isEmpty_iff]
  unfold numeral?
  split
  · next rest =>
    refine (hread rest).trans ⟨fun h => ⟨rest, .inr rfl, h⟩, ?_⟩
    rintro ⟨digits, rfl | hplus, h⟩
    · exact absurd (h.2.1 '+' (List.mem_cons_self ..)) (by decide)
    · obtain rfl := (List.cons.inj hplus).2
      exact h
  · next hno =>
    refine (hread s).trans ⟨fun h => ⟨s, .inl rfl, h⟩, ?_⟩
    rintro ⟨digits, rfl | hplus, h⟩
    · exact h
    · exact absurd hplus (hno digits)

theorem numeral?_le (h : numeral? limit s = some n) : n ≤ limit := by
  obtain ⟨_, _, _, _, _, hle⟩ := numeral?_eq_some.1 h
  exact hle

/-- The limit has no say in the number. -/
theorem numeral?_within (h : numeral? limit s = some n) (hle : n ≤ limit') :
    numeral? limit' s = some n := by
  obtain ⟨digits, hs, hne, hdigits, hn, -⟩ := numeral?_eq_some.1 h
  exact numeral?_eq_some.2 ⟨digits, hs, hne, hdigits, hn, hle⟩

theorem isNumeral_toString (n : Nat) : IsNumeral (toString n).toList := by
  rw [Nat.toString_eq_ofList_toDigits, String.toList_ofList]
  exact ⟨_, .inl rfl, Nat.toDigits_ne_nil,
    fun _ => Nat.isDigit_of_mem_toDigits (by decide) (by decide)⟩

theorem numeral?_toString (h : n ≤ limit) : numeral? limit (toString n).toList = some n := by
  rw [Nat.toString_eq_ofList_toDigits, String.toList_ofList]
  exact numeral?_eq_some.2 ⟨_, .inl rfl, Nat.toDigits_ne_nil,
    fun _ => Nat.isDigit_of_mem_toDigits (by decide) (by decide), Nat.ofDigitChars_ten_toDigits, h⟩

/-! ### Numerals past a limit -/

theorem range_of_isDigit {c : Char} (h : c.isDigit) : 48 ≤ c.toNat ∧ c.toNat ≤ 57 := by
  simpa [Char.isDigit, Char.le_def, UInt32.le_iff_toNat_le] using h

theorem ofDigitChars_lt (hs : ∀ c ∈ s, c.isDigit) (acc : Nat) :
    Nat.ofDigitChars 10 s acc < (acc + 1) * 10 ^ s.length := by
  induction s generalizing acc with
  | nil => simp
  | cons c s ih =>
    obtain ⟨hc, hs⟩ := List.forall_mem_cons.1 hs
    have hdigit : 10 * acc + (c.toNat - '0'.toNat) + 1 ≤ (acc + 1) * 10 := by
      have := (range_of_isDigit hc).2
      show 10 * acc + (c.toNat - 48) + 1 ≤ _
      omega
    rw [Nat.ofDigitChars_cons, List.length_cons, Nat.pow_succ', ← Nat.mul_assoc]
    exact Nat.lt_of_lt_of_le (ih hs _) (Nat.mul_le_mul_right _ hdigit)

/-- A numeral that is not read is a long one. -/
theorem IsNumeral.lt_of_eq_none (h : IsNumeral s) (hnone : numeral? limit s = none) :
    limit < 10 ^ s.length := by
  obtain ⟨digits, hs, hne, hdigits⟩ := h
  have hlength : digits.length ≤ s.length := by
    obtain rfl | rfl := hs
    · exact Nat.le_refl _
    · exact Nat.le_succ _
  have hnumber : limit < Nat.ofDigitChars 10 digits 0 := by
    refine Nat.lt_of_not_le fun hle => ?_
    rw [numeral?_eq_some.2 ⟨digits, hs, hne, hdigits, rfl, hle⟩] at hnone
    cases hnone
  have hlt := ofDigitChars_lt hdigits 0
  rw [Nat.zero_add, Nat.one_mul] at hlt
  exact Nat.lt_of_lt_of_le (Nat.lt_trans hnumber hlt) (Nat.pow_le_pow_right (by decide) hlength)

/-! ### Characters of numerals -/

theorem IsNumeral.isDigit_or_plus (h : IsNumeral s) {c : Char} (hc : c ∈ s) :
    c.isDigit ∨ c = '+' := by
  obtain ⟨digits, hs, -, hdigits⟩ := h
  obtain rfl | rfl := hs
  · exact .inl (hdigits c hc)
  · obtain rfl | hc := List.mem_cons.1 hc
    · exact .inr rfl
    · exact .inl (hdigits c hc)

theorem IsNumeral.notMem (h : IsNumeral s) {c : Char} (hdigit : c.isDigit = false) (hplus : c ≠ '+') :
    c ∉ s := by
  intro hc
  obtain hc | hc := h.isDigit_or_plus hc
  · cases hdigit.symm.trans hc
  · exact hplus hc

theorem IsNumeral.ne_nil (h : IsNumeral s) : s ≠ [] := by
  obtain ⟨digits, rfl | rfl, hne, -⟩ := h
  · exact hne
  · exact List.cons_ne_nil _ _

/-- The characters of a numeral are ASCII, and none is zero. -/
theorem IsNumeral.range (h : IsNumeral s) {c : Char} (hc : c ∈ s) : 0 < c.toNat ∧ c.toNat < 128 := by
  obtain hc | rfl := h.isDigit_or_plus hc
  · have := range_of_isDigit hc
    omega
  · decide

end ColdSigner.Text
