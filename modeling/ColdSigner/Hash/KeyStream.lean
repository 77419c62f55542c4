import ColdSigner.Bytes

/-! The HC-128 stream cipher, as a source of bytes from a seed.

Two tables of 512 words feed each other. They are kept as one table of 1024 words,
the first half updated in steps 0 to 511 of each round of 1024 and the second half
in the others. -/
namespace ColdSigner.KeyStream

def rotateRight (x n : UInt32) : UInt32 := (x >>> n) ||| (x <<< (32 - n))

def rotateLeft (x n : UInt32) : UInt32 := (x <<< n) ||| (x >>> (32 - n))

def f1 (x : UInt32) : UInt32 := rotateRight x 7 ^^^ rotateRight x 18 ^^^ (x >>> 3)
def f2 (x : UInt32) : UInt32 := rotateRight x 17 ^^^ rotateRight x 19 ^^^ (x >>> 10)

/-- Adds `n` words, the first of them with the summand `i`. -/
def expand : Nat → Nat → Array UInt32 → Array UInt32
  | 0, _, w => w
  | n + 1, i, w =>
    let k := w.size
    let next := f2 (w.getD (k - 2) 0) + w.getD (k - 7) 0 + f1 (w.getD (k - 15) 0)
      + w.getD (k - 16) 0 + UInt32.ofNat i
    expand n (i + 1) (w.push next)

/-- The tables for eight seed words, before any step: key and vector twice each,
expanded, and the first 256 words dropped. -/
def initial (seed : List UInt32) : Array UInt32 :=
  let key := seed.take 4
  let vector := (seed.drop 4).take 4
  (expand 1264 16 (key ++ key ++ vector ++ vector).toArray).extract 256 1280

/-- Step `j` of a round: a word of the table is updated and a word of output made. -/
def step (t : Array UInt32) (j : Nat) : Array UInt32 × UInt32 :=
  let own := if j < 512 then 0 else 512
  let other := 512 - own
  let rotate := if j < 512 then rotateRight else rotateLeft
  let earlier (t : Array UInt32) (back : Nat) := t.getD (own + (j + 512 - back) % 512) 0
  let word := earlier t 0 + rotate (earlier t 10) 8
    + (rotate (earlier t 3) 10 ^^^ rotate (earlier t 511) 23)
  let t := t.setIfInBounds j word
  let pick := earlier t 12
  let mask := t.getD (other + (pick &&& 0xFF).toNat) 0
    + t.getD (other + 256 + ((pick >>> 16) &&& 0xFF).toNat) 0
  (t, mask ^^^ word)

/-- Steps `j`, `j + 1`, … of the first round, whose output replaces the table. -/
def warm : Nat → Nat → Array UInt32 → Array UInt32
  | 0, _, t => t
  | n + 1, j, t =>
    let (t, out) := step t j
    warm n (j + 1) (t.setIfInBounds j out)

def outputs : Nat → Nat → Array UInt32 → List UInt32
  | 0, _, _ => []
  | n + 1, j, t =>
    let (t, out) := step t j
    out :: outputs n (j + 1) t

def seedWords : Bytes → List UInt32
  | b0 :: b1 :: b2 :: b3 :: rest =>
    UInt32.ofNat (Bytes.toNat [b0, b1, b2, b3]) :: seedWords rest
  | _ => []

/-- The first 32 bytes of the stream of a seed of 32 bytes. -/
def bytes32 (seed : Bytes) : Bytes :=
  (outputs 8 0 (warm 1024 0 (initial (seedWords seed)))).flatMap fun w => Bytes.ofNat 4 w.toNat

end ColdSigner.KeyStream
