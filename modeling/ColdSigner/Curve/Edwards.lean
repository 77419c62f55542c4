import ColdSigner.Bytes
import ColdSigner.Curve.Power

/-! The twisted Edwards curve `-x² + y² = 1 + d x² y²` over the field of
`2 ^ 255 - 19` elements.

A point is kept as `(x : y : z : t)`, standing for `(x / z, y / z)` with
`t = x y / z`; one law adds any two points. -/
namespace ColdSigner.Edwards

def fieldSize : Nat := Nat.pow 2 255 - 19

abbrev Field := Fin fieldSize

/-- The residue of a number. -/
def Field.ofNat (n : Nat) : Field := ⟨n % fieldSize, Nat.mod_lt n (by decide)⟩

instance (n : Nat) : OfNat Field n := ⟨.ofNat n⟩

/-- The number of points in the large subgroup. -/
def order : Nat := Nat.pow 2 252 + 27742317777372353535851937790883648493

abbrev Scalar := Fin order

/-- The residue of a number. -/
def Scalar.ofNat (n : Nat) : Scalar := ⟨n % order, Nat.mod_lt n (by decide)⟩

/-- What the highest bit of 32 bytes counts. -/
def topBit : Nat := Nat.pow 2 255

def d : Field := 37095705934669439343138083508754565189542113879843219016388785533085940283555

/-- A square root of minus one. -/
def rootMinusOne : Field :=
  19681161376707505956807079304988542015446066515923890162744021073123829784752

namespace Field

/-- An element is negative when its least representative is odd. -/
def isNegative (x : Field) : Bool := x.val % 2 == 1

def abs (x : Field) : Field := if isNegative x then -x else x

def inverse (x : Field) : Field := power x (fieldSize - 2)

/-- The non-negative root of `u / v`, or of `i u / v` where that ratio is no square. -/
def sqrtRatio (u v : Field) : Bool × Field :=
  let v3 := v * v * v
  let r := u * v3 * power (u * v3 * v3 * v) ((fieldSize - 5) / 8)
  let check := v * r * r
  let isTurned := check == -u || check == -u * rootMinusOne
  (check == u || check == -u, abs (if isTurned then rootMinusOne * r else r))

def ofBytes (b : Bytes) : Field := .ofNat b.toNat

def bytes (x : Field) : Bytes := Bytes.ofNat 32 x.val

end Field

structure Point where
  x : Field
  y : Field
  z : Field
  t : Field

namespace Point

def zero : Point := ⟨0, 1, 1, 0⟩

def base : Point :=
  let x := 15112221349535400772501151409588531511454012693041857206046113283949847762202
  let y := 46316835694926478169428394003475163141307993866256225615783033603165251855960
  ⟨x, y, 1, x * y⟩

def add (p q : Point) : Point :=
  let a := (p.y - p.x) * (q.y - q.x)
  let b := (p.y + p.x) * (q.y + q.x)
  let c := 2 * d * p.t * q.t
  let e := 2 * p.z * q.z
  ⟨(b - a) * (e - c), (e + c) * (b + a), (e - c) * (e + c), (b - a) * (b + a)⟩

def neg (p : Point) : Point := ⟨-p.x, p.y, p.z, -p.t⟩

/-- `n` times a point, by doubling. -/
def times (n : Nat) (p : Point) : Point :=
  if _h : n = 0 then zero
  else
    let rest := times (n / 2) (p.add p)
    if n % 2 = 1 then p.add rest else rest
termination_by n

/-- The second coordinate, with the sign of the first in the top bit. -/
def compress (p : Point) : Bytes :=
  let zi := Field.inverse p.z
  let x := p.x * zi
  let y := p.y * zi
  Bytes.ofNat 32 (y.val + if Field.isNegative x then topBit else 0)

/-- The point of a compressed form. The second coordinate need not be in least
form, and a sign given to zero is ignored. -/
def decompress? (b : Bytes) : Option Point :=
  let n := b.toNat
  let y : Field := .ofNat (n % topBit)
  let (isSquare, root) := Field.sqrtRatio (y * y - 1) (d * y * y + 1)
  if isSquare then
    let x := if topBit ≤ n then -root else root
    some ⟨x, y, 1, x * y⟩
  else none

end Point

/-- The scalar of a number given little-endian, reduced. -/
def Scalar.ofBytes (b : Bytes) : Scalar := .ofNat b.toNat

/-- The scalar of a number given in least form. -/
def Scalar.ofCanonical? (b : Bytes) : Option Scalar :=
  if h : b.toNat < order then some ⟨b.toNat, h⟩ else none

def Scalar.bytes (s : Scalar) : Bytes := Bytes.ofNat 32 s.val

end ColdSigner.Edwards
