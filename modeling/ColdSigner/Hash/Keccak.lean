/-! The Keccak permutation of 200 bytes.

The state is 25 lanes of 64 bits, lane `x + 5 * y` in column `x` and row `y`, each
lane little-endian. -/
namespace ColdSigner.Keccak

abbrev Lanes := Array UInt64

def roundConstants : List UInt64 :=
  [0x0000000000000001, 0x0000000000008082, 0x800000000000808A, 0x8000000080008000,
    0x000000000000808B, 0x0000000080000001, 0x8000000080008081, 0x8000000000008009,
    0x000000000000008A, 0x0000000000000088, 0x0000000080008009, 0x000000008000000A,
    0x000000008000808B, 0x800000000000008B, 0x8000000000008089, 0x8000000000008003,
    0x8000000000008002, 0x8000000000000080, 0x000000000000800A, 0x800000008000000A,
    0x8000000080008081, 0x8000000000008080, 0x0000000080000001, 0x8000000080008008]

/-- How far each lane is rotated. -/
def offsets : Array UInt64 :=
  #[0, 1, 62, 28, 27, 36, 44, 6, 55, 20, 3, 10, 43, 25, 39, 41, 45, 15, 21, 8, 18, 2, 61, 56, 14]

def rotate (x n : UInt64) : UInt64 :=
  if n = 0 then x else (x <<< n) ||| (x >>> (64 - n))

def lane (a : Lanes) (x y : Nat) : UInt64 := a.getD (x % 5 + 5 * (y % 5)) 0

def column (a : Lanes) (x : Nat) : UInt64 :=
  lane a x 0 ^^^ lane a x 1 ^^^ lane a x 2 ^^^ lane a x 3 ^^^ lane a x 4

/-- Every lane with the parity of the two columns beside its own. -/
def theta (a : Lanes) : Lanes :=
  let parity : Array UInt64 := Array.ofFn fun i : Fin 5 => column a i
  let shifts : Array UInt64 := Array.ofFn fun i : Fin 5 =>
    parity.getD ((i + 4) % 5) 0 ^^^ rotate (parity.getD ((i + 1) % 5) 0) 1
  Array.ofFn fun i : Fin 25 => a.getD i 0 ^^^ shifts.getD (i % 5) 0

/-- Rotated lanes, each moved to its new place. -/
def rhoPi (a : Lanes) : Lanes :=
  Array.ofFn fun i : Fin 25 =>
    let x := i.val % 5
    let y := i.val / 5
    let source := (x + 3 * y) % 5 + 5 * x
    rotate (a.getD source 0) (offsets.getD source 0)

/-- Every lane with the two to its right. -/
def chi (a : Lanes) : Lanes :=
  Array.ofFn fun i : Fin 25 =>
    let x := i.val % 5
    let y := i.val / 5
    a.getD i 0 ^^^ (~~~lane a (x + 1) y &&& lane a (x + 2) y)

def round (a : Lanes) (constant : UInt64) : Lanes :=
  (chi (rhoPi (theta a))).modify 0 (· ^^^ constant)

def permuteLanes (a : Lanes) : Lanes := roundConstants.foldl round a

def laneOf (s : Array UInt8) (i : Nat) : UInt64 :=
  (List.range 8).foldr (fun k acc => (acc <<< 8) ||| (s.getD (8 * i + k) 0).toUInt64) 0

/-- The permutation on bytes. -/
def permute (s : Array UInt8) : Array UInt8 :=
  let lanes := permuteLanes (Array.ofFn fun i : Fin 25 => laneOf s i)
  Array.ofFn fun i : Fin 200 => (lanes.getD (i / 8) 0 >>> (8 * (i.val % 8)).toUInt64).toUInt8

end ColdSigner.Keccak
