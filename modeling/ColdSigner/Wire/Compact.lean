import ColdSigner.Bytes
import ColdSigner.Wire.Error

/-! Compact integers.

The two low bits of the first byte are the mode. Modes 0, 1 and 2 keep the value
in the other bits of one, two or four bytes; mode 3 keeps in the other six bits
how many bytes beyond four follow, and these are the value. Reading refuses
every form but the shortest, and every value of more than 16 bytes. -/
namespace ColdSigner.Wire.Compact

def maxOne : Nat := Nat.pow 2 6 - 1
def maxTwo : Nat := Nat.pow 2 14 - 1
def maxFour : Nat := Nat.pow 2 30 - 1

/-- The number of bytes that `v` fills. -/
def byteLength (v : Nat) : Nat :=
  if v = 0 then 0 else v.log2 / 8 + 1

/-- The bytes that follow the first byte of a mode 3 value. -/
def bigLength (v : Nat) : Nat := max 4 (byteLength v)

/-- The length of the encoding of `v`. -/
def length (v : Nat) : Nat :=
  if v ≤ maxOne then 1 else if v ≤ maxTwo then 2 else if v ≤ maxFour then 4 else 1 + bigLength v

def encode (v : Nat) : Bytes :=
  if v ≤ maxOne then Bytes.ofNat 1 (4 * v)
  else if v ≤ maxTwo then Bytes.ofNat 2 (4 * v + 1)
  else if v ≤ maxFour then Bytes.ofNat 4 (4 * v + 2)
  else UInt8.ofNat (4 * (bigLength v - 4) + 3) :: Bytes.ofNat (bigLength v) v

/-- The first `n` bytes and the rest. -/
def split (n : Nat) (b : Bytes) : Except Error (Bytes × Bytes) :=
  let d := b.take n
  if d.length < n then .error .invalidLength else .ok (d, b.drop n)

/-- The integer at the front, and the number of bytes it takes. -/
def decode (b : Bytes) : Except Error (Nat × Nat) := do
  let (first, rest) ← split 1 b
  let head := first.toNat
  match head % 4 with
  | 0 => return (head / 4, 1)
  | 1 =>
    let (d, _) ← split 2 b
    let v := d.toNat / 4
    if v ≤ maxOne then .error .invalidCompact else return (v, 2)
  | 2 =>
    let (d, _) ← split 4 b
    let v := d.toNat / 4
    if v ≤ maxTwo then .error .invalidCompact else return (v, 4)
  | _ =>
    let n := head / 4 + 4
    if 16 < n then .error .invalidCompact
    else
      let (d, _) ← split n rest
      let v := d.toNat
      if v ≤ maxFour ∨ v < Nat.pow 256 (n - 1) then .error .invalidCompact else return (v, 1 + n)

theorem length_le_of_split {n : Nat} {b d rest : Bytes} (h : split n b = .ok (d, rest)) :
    n ≤ b.length := by
  simp only [split, List.length_take] at h
  split at h
  · simp at h
  · omega

theorem drop_of_split {n : Nat} {b d rest : Bytes} (h : split n b = .ok (d, rest)) :
    rest = b.drop n := by
  simp only [split] at h
  split at h
  · simp at h
  · exact (Prod.mk.inj (Except.ok.inj h)).2.symm

/-- An integer takes no more bytes than there are. -/
theorem used_le {b : Bytes} {v n : Nat} (h : decode b = .ok (v, n)) : n ≤ b.length := by
  simp only [decode, bind, Except.bind] at h
  split at h
  · simp at h
  · next first hs =>
    have hone := length_le_of_split hs
    have hrest : first.2 = b.drop 1 := drop_of_split hs
    have hl : first.2.length = b.length - 1 := by rw [hrest, List.length_drop]
    split at h
    · obtain ⟨-, rfl⟩ := Prod.mk.inj (Except.ok.inj h)
      exact hone
    · split at h
      · simp at h
      · next hd =>
        have := length_le_of_split hd
        split at h
        · simp at h
        · obtain ⟨-, rfl⟩ := Prod.mk.inj (Except.ok.inj h)
          exact this
    · split at h
      · simp at h
      · next hd =>
        have := length_le_of_split hd
        split at h
        · simp at h
        · obtain ⟨-, rfl⟩ := Prod.mk.inj (Except.ok.inj h)
          exact this
    · split at h
      · simp at h
      · split at h
        · simp at h
        · next hd =>
          have := length_le_of_split hd
          split at h
          · simp at h
          · obtain ⟨-, rfl⟩ := Prod.mk.inj (Except.ok.inj h)
            omega

end ColdSigner.Wire.Compact
