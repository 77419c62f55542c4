import ColdSigner.Bytes.Hex
import Std.Data.String.ToNat

/-! What a text shows can be read back.

Numbers in decimal and bytes in hexadecimal are shown without loss: equal texts show equal
values. -/
namespace ColdSigner

/-- A separator that stands in neither of two texts tells where they end. -/
theorem append_separator_inj {c : Char} {a b s t : List Char} (ha : c ∉ a) (hb : c ∉ b)
    (h : a ++ c :: s = b ++ c :: t) : a = b ∧ s = t := by
  induction a generalizing b with
  | nil =>
    cases b with
    | nil => exact ⟨rfl, (List.cons.inj h).2⟩
    | cons y b => exact absurd ((List.cons.inj h).1 ▸ List.mem_cons_self ..) hb
  | cons x a ih =>
    cases b with
    | nil => exact absurd ((List.cons.inj h).1 ▸ List.mem_cons_self ..) ha
    | cons y b =>
      obtain ⟨rfl, hrest⟩ := List.cons.inj h
      obtain ⟨rfl, rfl⟩ := ih (fun hc => ha (List.mem_cons_of_mem _ hc))
        (fun hc => hb (List.mem_cons_of_mem _ hc)) hrest
      exact ⟨rfl, rfl⟩

theorem toDigits_injective {v w : Nat} (h : Nat.toDigits 10 v = Nat.toDigits 10 w) : v = w := by
  rw [← Nat.ofDigitChars_ten_toDigits (n := v), h, Nat.ofDigitChars_ten_toDigits]

/-- A character that is no digit is in no numeral. -/
theorem notMem_toDigits {c : Char} (hc : c.isDigit = false) (v : Nat) : c ∉ Nat.toDigits 10 v := by
  intro hmem
  rw [Nat.isDigit_of_mem_toDigits (by decide) (by decide) hmem] at hc
  cases hc

/-! ### Digits of bytes -/

namespace Hex

theorem digit_injective {v w : Nat} (hv : v < 16) (hw : w < 16) (h : digit v = digit w) : v = w := by
  have hall : ∀ v w : Fin 16, digit v = digit w → v = w := by decide
  exact congrArg Fin.val (hall ⟨v, hv⟩ ⟨w, hw⟩ h)

theorem encodeChars_injective {a b : Bytes} (h : encodeChars a = encodeChars b) : a = b := by
  induction a generalizing b with
  | nil =>
    cases b with
    | nil => rfl
    | cons y b => cases h
  | cons x a ih =>
    cases b with
    | nil => cases h
    | cons y b =>
      have hx := x.toNat_lt
      have hy := y.toNat_lt
      simp only [encodeChars, List.flatMap_cons, List.cons_append, List.nil_append,
        List.cons.injEq] at h
      obtain ⟨hhigh, hlow, hrest⟩ := h
      have hdiv := digit_injective (by omega) (by omega) hhigh
      have hmod := digit_injective (by omega) (by omega) hlow
      obtain rfl : x = y := UInt8.toNat_inj.1 (by omega)
      rw [ih hrest]

theorem show0x_injective {a b : Bytes} (h : show0x a = show0x b) : a = b :=
  encodeChars_injective (List.cons.inj (List.cons.inj (String.ofList_injective h)).2).2

end Hex

end ColdSigner
