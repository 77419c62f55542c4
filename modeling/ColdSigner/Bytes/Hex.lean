import ColdSigner.Bytes

/-! Hexadecimal text.

Bytes are shown with two lower-case digits each. Reading takes either case and
tells an odd number of digits from a character that is no digit. -/
namespace ColdSigner.Hex

/-- The lower-case digit for a value below sixteen. -/
def digit (v : Nat) : Char :=
  if v < 10 then Char.ofNat (48 + v) else Char.ofNat (87 + v)

def encodeChars (b : Bytes) : List Char :=
  b.flatMap fun x => [digit (x.toNat / 16), digit (x.toNat % 16)]

/-- Two digits for each byte. -/
def encode (b : Bytes) : String := String.ofList (encodeChars b)

/-- The digits after `0x`, as bytes are shown to the user. -/
def show0x (b : Bytes) : String := String.ofList ('0' :: 'x' :: encodeChars b)

inductive Fault where
  | oddLength
  /-- A byte of the text that is no digit, and where it stands. -/
  | notDigit (byte : UInt8) (position : Nat)
  deriving DecidableEq, Repr

/-- The value of a digit written as this ASCII byte. -/
def value? (b : UInt8) : Option Nat :=
  let v := b.toNat
  if 48 ≤ v ∧ v ≤ 57 then some (v - 48)
  else if 97 ≤ v ∧ v ≤ 102 then some (v - 87)
  else if 65 ≤ v ∧ v ≤ 70 then some (v - 55)
  else none

/-- Pairs of digits, the first of them at `position`. -/
def decodeFrom (position : Nat) (acc : Bytes) : Bytes → Except Fault Bytes
  | hi :: lo :: rest =>
    match value? hi, value? lo with
    | none, _ => .error (.notDigit hi position)
    | _, none => .error (.notDigit lo (position + 1))
    | some h, some l => decodeFrom (position + 2) (UInt8.ofNat (16 * h + l) :: acc) rest
  | _ => .ok acc.reverse

/-- The bytes a text spells; an odd length is noticed before any digit is read. -/
def decode (s : String) : Except Fault Bytes :=
  let text := Bytes.ofText s
  if text.length % 2 = 1 then .error .oddLength else decodeFrom 0 [] text

end ColdSigner.Hex
