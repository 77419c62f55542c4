import ColdSigner.Bytes

/-! BLAKE2b without key.

The sixteen words of the working state are four rows of four. A round mixes the
columns, turns the rows so that the diagonals become columns, mixes these, and
turns the rows back. -/
namespace ColdSigner.Blake2b

structure Row where
  w0 : UInt64
  w1 : UInt64
  w2 : UInt64
  w3 : UInt64
  deriving DecidableEq, Repr

namespace Row

@[inline] def map2 (f : UInt64 → UInt64 → UInt64) (r s : Row) : Row :=
  ⟨f r.w0 s.w0, f r.w1 s.w1, f r.w2 s.w2, f r.w3 s.w3⟩

def add (r s : Row) : Row := map2 (· + ·) r s

def xor (r s : Row) : Row := map2 (· ^^^ ·) r s

/-- The exclusive or of two rows, each word rotated right by `n`. -/
def xorRotate (n : UInt64) (r s : Row) : Row :=
  map2 (fun x y => ((x ^^^ y) >>> n) ||| ((x ^^^ y) <<< (64 - n))) r s

def turn1 (r : Row) : Row := ⟨r.w1, r.w2, r.w3, r.w0⟩
def turn2 (r : Row) : Row := ⟨r.w2, r.w3, r.w0, r.w1⟩
def turn3 (r : Row) : Row := ⟨r.w3, r.w0, r.w1, r.w2⟩

end Row

structure Rows where
  a : Row
  b : Row
  c : Row
  d : Row

/-- Mixes every column, with a word of `x` and then one of `y`. -/
def mix (v : Rows) (x y : Row) : Rows :=
  let a := (v.a.add v.b).add x
  let d := v.d.xorRotate 32 a
  let c := v.c.add d
  let b := v.b.xorRotate 24 c
  let a := (a.add b).add y
  let d := d.xorRotate 16 a
  let c := c.add d
  let b := b.xorRotate 63 c
  ⟨a, b, c, d⟩

/-- The order in which each round takes the words of the block. -/
def schedule : List (List Nat) :=
  [[0, 1, 2, 3, 4, 5, 6, 7, 8, 9, 10, 11, 12, 13, 14, 15],
    [14, 10, 4, 8, 9, 15, 13, 6, 1, 12, 0, 2, 11, 7, 5, 3],
    [11, 8, 12, 0, 5, 2, 15, 13, 10, 14, 3, 6, 7, 1, 9, 4],
    [7, 9, 3, 1, 13, 12, 11, 14, 2, 6, 5, 10, 4, 0, 15, 8],
    [9, 0, 5, 7, 2, 4, 10, 15, 14, 1, 11, 12, 6, 8, 3, 13],
    [2, 12, 6, 10, 0, 11, 8, 3, 4, 13, 7, 5, 15, 14, 1, 9],
    [12, 5, 1, 15, 14, 13, 4, 10, 0, 7, 6, 3, 9, 2, 8, 11],
    [13, 11, 7, 14, 12, 1, 3, 9, 5, 0, 15, 4, 8, 6, 2, 10],
    [6, 15, 14, 9, 11, 3, 0, 8, 12, 2, 13, 7, 1, 4, 10, 5],
    [10, 2, 8, 4, 7, 6, 1, 5, 15, 11, 9, 14, 3, 12, 13, 0],
    [0, 1, 2, 3, 4, 5, 6, 7, 8, 9, 10, 11, 12, 13, 14, 15],
    [14, 10, 4, 8, 9, 15, 13, 6, 1, 12, 0, 2, 11, 7, 5, 3]]

def round (block : Array UInt64) (v : Rows) (order : List Nat) : Rows :=
  match order.map (block.getD · 0) with
  | [m0, m1, m2, m3, m4, m5, m6, m7, m8, m9, m10, m11, m12, m13, m14, m15] =>
    let v := mix v ⟨m0, m2, m4, m6⟩ ⟨m1, m3, m5, m7⟩
    let v := mix ⟨v.a, v.b.turn1, v.c.turn2, v.d.turn3⟩ ⟨m8, m10, m12, m14⟩ ⟨m9, m11, m13, m15⟩
    ⟨v.a, v.b.turn3, v.c.turn2, v.d.turn1⟩
  | _ => v

/-- The chaining value. -/
structure State where
  low : Row
  high : Row

/-- The fractional parts of the square roots of the first eight primes. -/
def initial : State :=
  ⟨⟨0x6A09E667F3BCC908, 0xBB67AE8584CAA73B, 0x3C6EF372FE94F82B, 0xA54FF53A5F1D36F1⟩,
    ⟨0x510E527FADE682D1, 0x9B05688C2B3E6C1F, 0x1F83D9ABFB41BD6B, 0x5BE0CD19137E2179⟩⟩

/-- Absorbs a block of sixteen words, `count` bytes into the message. -/
def compress (s : State) (block : Array UInt64) (count : Nat) (isLast : Bool) : State :=
  let d : Row := ⟨UInt64.ofNat count, UInt64.ofNat (count / UInt64.size),
    if isLast then 0xFFFFFFFFFFFFFFFF else 0, 0⟩
  let v := schedule.foldl (round block) ⟨s.low, s.high, initial.low, initial.high.xor d⟩
  ⟨(s.low.xor v.a).xor v.c, (s.high.xor v.b).xor v.d⟩

def word (b0 b1 b2 b3 b4 b5 b6 b7 : UInt8) : UInt64 :=
  b0.toUInt64 ||| (b1.toUInt64 <<< 8) ||| (b2.toUInt64 <<< 16) ||| (b3.toUInt64 <<< 24)
    ||| (b4.toUInt64 <<< 32) ||| (b5.toUInt64 <<< 40) ||| (b6.toUInt64 <<< 48)
    ||| (b7.toUInt64 <<< 56)

def wordBytes (w : UInt64) : Bytes :=
  [w.toUInt8, (w >>> 8).toUInt8, (w >>> 16).toUInt8, (w >>> 24).toUInt8,
    (w >>> 32).toUInt8, (w >>> 40).toUInt8, (w >>> 48).toUInt8, (w >>> 56).toUInt8]

def words : Array UInt64 → Bytes → Array UInt64
  | acc, b0 :: b1 :: b2 :: b3 :: b4 :: b5 :: b6 :: b7 :: rest =>
    words (acc.push (word b0 b1 b2 b3 b4 b5 b6 b7)) rest
  | acc, _ => acc

/-- Absorbs the rest of a message; the last block is filled up with zeros. -/
def absorb (s : State) (count : Nat) (message : Bytes) : State :=
  match _h : message.drop 128 with
  | [] =>
    let block := message ++ List.replicate (128 - message.length) 0
    compress s (words #[] block) (count + message.length) true
  | next :: rest =>
    let s := compress s (words #[] (message.take 128)) (count + 128) false
    absorb s (count + 128) (next :: rest)
termination_by message.length
decreasing_by
  have := congrArg List.length _h
  simp only [List.length_drop, List.length_cons] at this ⊢
  omega

def Row.bytes (r : Row) : Bytes :=
  wordBytes r.w0 ++ wordBytes r.w1 ++ wordBytes r.w2 ++ wordBytes r.w3

/-- The hash of `n` bytes; the parameters are mixed into the first word. -/
def hash (n : Nat) (message : Bytes) : FixedBytes n :=
  let w0 := initial.low.w0 ^^^ 0x01010000 ^^^ UInt64.ofNat n
  let start : State := { initial with low := { initial.low with w0 } }
  let s := absorb start 0 message
  .fit n (s.low.bytes ++ s.high.bytes)

end ColdSigner.Blake2b
