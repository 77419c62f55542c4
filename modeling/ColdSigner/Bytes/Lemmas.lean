import ColdSigner.Bytes
import Mathlib.Algebra.Group.Nat.Defs

/-! Numbers and their bytes.

The bytes of a number keep it up to the power of 256 that their count allows, and
every byte string stands for a number below that power. The bytes of a text are those of
its characters. -/
namespace ColdSigner.Bytes

theorem toNat_ofNat (n v : Nat) : toNat (ofNat n v) = v % 256 ^ n := by
  induction n generalizing v with
  | zero => simp [ofNat, toNat, Nat.mod_one]
  | succ n ih =>
    simp only [ofNat, toNat, ih, UInt8.toNat_ofNat']
    rw [show (256 : Nat) ^ (n + 1) = 256 * 256 ^ n from Nat.pow_succ', Nat.mod_mul]

theorem toNat_lt (b : Bytes) : toNat b < 256 ^ b.length := by
  induction b with
  | nil => simp [toNat]
  | cons x rest ih =>
    have hx : x.toNat < 256 := x.toNat_lt
    simp only [toNat, List.length_cons, Nat.pow_succ]
    omega

theorem toNat_ofNat_of_lt {n v : Nat} (h : v < 256 ^ n) : (ofNat n v).toNat = v := by
  rw [toNat_ofNat, Nat.mod_eq_of_lt h]

/-- A number that its bytes hold is written as these bytes. -/
theorem ofNat_eq_of_toNat {n v : Nat} {b : Bytes} (hl : b.length = n) (hv : b.toNat = v) :
    ofNat n v = b := by
  rw [← hl, ← hv, ofNat_toNat]

theorem toNat_injective {a b : Bytes} (hl : a.length = b.length) (h : a.toNat = b.toNat) :
    a = b := by
  rw [← ofNat_toNat a, ← ofNat_toNat b, hl, h]

theorem toNatBE_injective {a b : Bytes} (hl : a.length = b.length) (h : a.toNatBE = b.toNatBE) :
    a = b :=
  List.reverse_inj.1 (toNat_injective (by simpa using hl) h)

theorem toNat_append (a b : Bytes) : toNat (a ++ b) = toNat a + 256 ^ a.length * toNat b := by
  induction a with
  | nil => simp [toNat]
  | cons x rest ih =>
    rw [List.cons_append, toNat, toNat, ih, List.length_cons, Nat.pow_succ']
    grind

theorem toNat_zeros (n : Nat) : toNat (List.replicate n 0) = 0 := by
  induction n with
  | zero => rfl
  | succ n ih =>
    rw [List.replicate_succ, toNat, ih]
    rfl

/-- Bytes without a zero fill their number. -/
theorem pow_le_toNat {b : Bytes} (nonempty : b ≠ []) (nonzero : ∀ x ∈ b, x ≠ 0) :
    256 ^ b.length ≤ 256 * toNat b := by
  induction b with
  | nil => exact absurd rfl nonempty
  | cons x rest ih =>
    obtain ⟨hx, hrest⟩ := List.forall_mem_cons.1 nonzero
    have hpos : 0 < x.toNat := Nat.pos_of_ne_zero fun h => hx (UInt8.toNat_inj.1 h)
    rw [toNat, List.length_cons, Nat.pow_succ]
    cases rest with
    | nil =>
      rw [List.length_nil, toNat]
      omega
    | cons y rest =>
      have := ih (List.cons_ne_nil y rest) hrest
      omega

theorem ofText_eq_flatMap (s : String) : ofText s = s.toList.flatMap String.utf8EncodeChar := by
  conv => lhs; rw [← String.ofList_toList (s := s)]
  rw [ofText, String.toByteArray_ofList]
  simp [List.utf8Encode]

end ColdSigner.Bytes
