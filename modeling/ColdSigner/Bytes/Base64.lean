import ColdSigner.Bytes

/-! Base64 text with padding.

A text is read only in the one form that writing would give: padded to whole groups
of four, with no bits set beyond the last byte. -/
namespace ColdSigner.Base64

/-- The six bits that a character stands for. -/
def value? (c : Char) : Option Nat :=
  if 'A' ≤ c ∧ c ≤ 'Z' then some (c.toNat - 65)
  else if 'a' ≤ c ∧ c ≤ 'z' then some (c.toNat - 71)
  else if '0' ≤ c ∧ c ≤ '9' then some (c.toNat + 4)
  else if c = '+' then some 62
  else if c = '/' then some 63
  else none

/-- The bytes of groups of six bits; the last group may leave some bits unused, all zero. -/
def join (acc : Bytes) : List Nat → Option Bytes
  | a :: b :: c :: d :: rest =>
    let v := ((a * 64 + b) * 64 + c) * 64 + d
    join (UInt8.ofNat v :: UInt8.ofNat (v >>> 8) :: UInt8.ofNat (v >>> 16) :: acc) rest
  | [a, b, c] =>
    let v := (a * 64 + b) * 64 + c
    if v % 4 = 0 then some ((UInt8.ofNat (v >>> 2) :: UInt8.ofNat (v >>> 10) :: acc).reverse)
    else none
  | [a, b] =>
    let v := a * 64 + b
    if v % 16 = 0 then some ((UInt8.ofNat (v >>> 4) :: acc).reverse) else none
  | [_] => none
  | [] => some acc.reverse

def decode? (s : String) : Option Bytes :=
  let cs := s.toList
  let body := (cs.reverse.dropWhile (· == '=')).reverse
  if cs.length % 4 = 0 ∧ cs.length ≤ body.length + 2 then (body.mapM value?).bind (join [])
  else none

end ColdSigner.Base64
