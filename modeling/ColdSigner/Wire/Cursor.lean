import ColdSigner.Wire.Compact

/-! Reading from front to back.

A cursor stands in a region of some bytes: it knows the offset of the next byte,
where the region stops, and the bytes between. -/
namespace ColdSigner

structure Cursor where
  offset : Nat
  stop : Nat
  rest : Bytes
  bounded : offset + rest.length = stop

namespace Cursor

/-- The start of some bytes. -/
def start (b : Bytes) : Cursor := ⟨0, b.length, b, Nat.zero_add _⟩

/-- The bytes from `first` up to `stop`, as far as there are any. -/
def region (b : Bytes) (first stop : Nat) : Cursor :=
  let stop := min stop b.length
  let first := min first stop
  ⟨first, stop, (b.take stop).drop first, by simp only [List.length_drop, List.length_take]; omega⟩

def remaining (c : Cursor) : Nat := c.stop - c.offset

theorem remaining_eq (c : Cursor) : c.remaining = c.rest.length := by
  have := c.bounded
  unfold remaining
  omega

/-- The cursor `n` bytes further. -/
def skip (c : Cursor) (n : Nat) (h : n ≤ c.rest.length) : Cursor :=
  ⟨c.offset + n, c.stop, c.rest.drop n, by
    have := c.bounded
    simp only [List.length_drop]
    omega⟩

/-- The next `n` bytes. -/
def take? (c : Cursor) (n : Nat) : Option (Bytes × Cursor) :=
  if h : n ≤ c.remaining then some (c.rest.take n, c.skip n (c.remaining_eq ▸ h)) else none

/-- The compact integer that comes next. -/
def compact (c : Cursor) : Except Wire.Error (Nat × Cursor) :=
  match h : Wire.Compact.decode c.rest with
  | .error e => .error e
  | .ok (v, n) => .ok (v, c.skip n (Wire.Compact.used_le h))

/-- All that is left, with the cursor at the stop. -/
def takeAll (c : Cursor) : Bytes × Cursor :=
  (c.rest, c.skip c.rest.length (Nat.le_refl _))

end Cursor

end ColdSigner
