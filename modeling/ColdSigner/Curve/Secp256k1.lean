import ColdSigner.Bytes
import ColdSigner.Curve.Power

/-! The curve `y² = x³ + 7` over the field of `2 ^ 256 - 2 ^ 32 - 977` elements.

A point is kept as `(x : y : z)`, standing for `(x / z, y / z)`; the point at
infinity has `z = 0`, and one law adds any two points. -/
namespace ColdSigner.Secp256k1

def fieldSize : Nat := Nat.pow 2 256 - Nat.pow 2 32 - 977

abbrev Field := Fin fieldSize

/-- The residue of a number. -/
def Field.ofNat (n : Nat) : Field := ⟨n % fieldSize, Nat.mod_lt n (by decide)⟩

instance (n : Nat) : OfNat Field n := ⟨.ofNat n⟩

def order : Nat := 0xFFFFFFFFFFFFFFFFFFFFFFFFFFFFFFFEBAAEDCE6AF48A03BBFD25E8CD0364141

abbrev Scalar := Fin order

/-- The residue of a number. -/
def Scalar.ofNat (n : Nat) : Scalar := ⟨n % order, Nat.mod_lt n (by decide)⟩

instance (n : Nat) : OfNat Scalar n := ⟨.ofNat n⟩

structure Point where
  x : Field
  y : Field
  z : Field

namespace Point

def zero : Point := ⟨0, 1, 0⟩

def base : Point :=
  ⟨0x79BE667EF9DCBBAC55A06295CE870B07029BFCDB2DCE28D959F2815B16F81798,
    0x483ADA7726A3C4655DA4FBFC0E1108A8FD17B448A68554199C47D08FFB10D4B8, 1⟩

def add (p q : Point) : Point :=
  let xx := p.x * q.x
  let yy := p.y * q.y
  let zz := 21 * p.z * q.z
  let xy := p.x * q.y + q.x * p.y
  let yz := p.y * q.z + q.y * p.z
  let xz := p.x * q.z + q.x * p.z
  ⟨xy * (yy - zz) - 21 * yz * xz, (yy + zz) * (yy - zz) + 63 * xx * xz,
    yz * (yy + zz) + 3 * xx * xy⟩

/-- `n` times a point, by doubling. -/
def times (n : Nat) (p : Point) : Point :=
  if _h : n = 0 then zero
  else
    let rest := times (n / 2) (p.add p)
    if n % 2 = 1 then p.add rest else rest
termination_by n

/-- The two coordinates of a point other than infinity. -/
def affine? (p : Point) : Option (Field × Field) :=
  if p.z = 0 then none
  else
    let zi := power p.z (fieldSize - 2)
    some (p.x * zi, p.y * zi)

/-- The parity of `y` as a tag of 2 or 3, and `x`, big-endian. -/
def compress? (p : Point) : Option Bytes := do
  let (x, y) ← p.affine?
  return (if y.val % 2 = 1 then 3 else 2) :: Bytes.ofNatBE 32 x.val

/-- The point with this first coordinate whose second is odd or even. -/
def lift? (x : Nat) (isOdd : Bool) : Option Point :=
  if x < fieldSize then
    let x : Field := .ofNat x
    let square := x * x * x + 7
    let y := power square ((fieldSize + 1) / 4)
    if y * y = square then
      some ⟨x, if (y.val % 2 == 1) == isOdd then y else -y, 1⟩
    else none
  else none

end Point

def Scalar.inverse (s : Scalar) : Scalar := power s (order - 2)

end ColdSigner.Secp256k1
