/-! Byte strings.

Everything that crosses the gap is a finite list of bytes. Numbers are written
little-endian unless the name says otherwise, text is written as UTF-8, and a
byte string of known length carries the proof of it. -/
namespace ColdSigner

abbrev Bytes := List UInt8

namespace Bytes

/-- The number whose little-endian digits are these bytes. -/
def toNat : Bytes → Nat
  | [] => 0
  | b :: rest => b.toNat + 256 * toNat rest

/-- The low `n` bytes of a number, little-endian. -/
def ofNat : Nat → Nat → Bytes
  | 0, _ => []
  | n + 1, v => UInt8.ofNat v :: ofNat n (v / 256)

/-- The number whose big-endian digits are these bytes. -/
def toNatBE (b : Bytes) : Nat := toNat b.reverse

/-- The low `n` bytes of a number, big-endian. -/
def ofNatBE (n v : Nat) : Bytes := (ofNat n v).reverse

/-- The UTF-8 bytes of a text. -/
def ofText (s : String) : Bytes := s.toByteArray.data.toList

/-- The text these bytes spell in UTF-8, if they do. -/
def toText? (b : Bytes) : Option String := String.fromUTF8? ⟨b.toArray⟩

@[simp] theorem length_ofNat (n v : Nat) : (ofNat n v).length = n := by
  induction n generalizing v with
  | zero => rfl
  | succ n ih => simp [ofNat, ih]

@[simp] theorem length_ofNatBE (n v : Nat) : (ofNatBE n v).length = n := by
  simp [ofNatBE]

theorem ofNat_toNat (b : Bytes) : ofNat b.length (toNat b) = b := by
  induction b with
  | nil => rfl
  | cons x rest ih =>
    have hx : x.toNat < 256 := x.toNat_lt
    have hd : (x.toNat + 256 * toNat rest) / 256 = toNat rest := by omega
    have hm : UInt8.ofNat (x.toNat + 256 * toNat rest) = x :=
      UInt8.toNat_inj.1 (by rw [UInt8.toNat_ofNat']; omega)
    simp only [List.length_cons, ofNat, toNat, hd, hm, ih]

theorem ofText_injective {s t : String} (h : ofText s = ofText t) : s = t := by
  apply String.toByteArray_inj.1
  exact ByteArray.ext (Array.toList_inj.1 h)

theorem toText?_ofText (s : String) : toText? (ofText s) = some s := by
  simp [toText?, ofText, String.fromUTF8?, String.fromUTF8, s.isValidUTF8]

theorem ofText_of_toText? {b : Bytes} {s : String} (h : toText? b = some s) : ofText s = b := by
  simp only [toText?, String.fromUTF8?] at h
  split at h
  · obtain rfl := Option.some.inj h
    simp [ofText, String.fromUTF8]
  · simp at h

end Bytes

/-- A byte string of length `n`. -/
structure FixedBytes (n : Nat) where
  bytes : Bytes
  length_eq : bytes.length = n
  deriving DecidableEq

namespace FixedBytes

/-- These bytes, where there are `n` of them. -/
def ofBytes? (n : Nat) (b : Bytes) : Option (FixedBytes n) :=
  if h : b.length = n then some ⟨b, h⟩ else none

/-- The first `n` bytes, filled up with zeros. -/
def fit (n : Nat) (b : Bytes) : FixedBytes n :=
  ⟨(b ++ List.replicate n 0).take n, by simp⟩

instance (n : Nat) : Inhabited (FixedBytes n) := ⟨fit n []⟩

/-- Byte strings are ordered like words in a dictionary. -/
instance (n : Nat) : LT (FixedBytes n) := ⟨fun a b => a.bytes < b.bytes⟩

instance (n : Nat) : DecidableLT (FixedBytes n) := fun a b =>
  inferInstanceAs (Decidable (a.bytes < b.bytes))

@[ext] theorem ext {n : Nat} {a b : FixedBytes n} (h : a.bytes = b.bytes) : a = b := by
  cases a; cases b; simp_all

end FixedBytes

end ColdSigner
