import ColdSigner.Curve.Edwards

/-! The group of prime order that the Edwards curve holds, with one encoding for
each element. -/
namespace ColdSigner.Ristretto

open Edwards

/-- The inverse of a root of `-1 - d`. -/
def invRootMinusOneMinusD : Field :=
  54469307008909316920995813868745141605393597292927456921205312896311721017578

def encode (p : Point) : Bytes :=
  let u1 := (p.z + p.y) * (p.z - p.y)
  let u2 := p.x * p.y
  let (_, root) := Field.sqrtRatio 1 (u1 * u2 * u2)
  let den1 := root * u1
  let den2 := root * u2
  let zi := den1 * den2 * p.t
  let turns := Field.isNegative (p.t * zi)
  let x := if turns then p.y * rootMinusOne else p.x
  let y := if turns then p.x * rootMinusOne else p.y
  let den := if turns then den1 * invRootMinusOneMinusD else den2
  let y := if Field.isNegative (x * zi) then -y else y
  Field.bytes (Field.abs (den * (p.z - y)))

/-- The element of an encoding; only a non-negative field element in least form is one. -/
def decode? (b : Bytes) : Option Point :=
  let n := b.toNat
  if n < fieldSize ∧ n % 2 = 0 then
    let s := Field.ofBytes b
    let u1 := 1 - s * s
    let u2 := 1 + s * s
    let v := -(d * u1 * u1) - u2 * u2
    let (isSquare, root) := Field.sqrtRatio 1 (v * u2 * u2)
    let dx := root * u2
    let dy := root * dx * v
    let x := Field.abs (2 * s * dx)
    let y := u1 * dy
    let t := x * y
    if isSquare && !Field.isNegative t && y != 0 then some ⟨x, y, 1, t⟩ else none
  else none

end ColdSigner.Ristretto
