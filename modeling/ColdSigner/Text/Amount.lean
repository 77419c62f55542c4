/-! Amounts of a currency.

An amount counts the smallest unit. It is shown in whole units, with as many
decimals as its exact value needs and no more. -/
namespace ColdSigner.Amount

/-- The least text of `width` digits that ends in the digits of `n`. -/
def padded (width n : Nat) : List Char :=
  let digits := Nat.toDigits 10 n
  List.replicate (width - digits.length) '0' ++ digits

/-- A text without the zeros at its end. -/
def dropZeros (s : List Char) : List Char := (s.reverse.dropWhile (· == '0')).reverse

/-- `value / 10 ^ decimals` as a decimal numeral. -/
def numeral (value decimals : Nat) : List Char :=
  let scale := Nat.pow 10 decimals
  let whole := Nat.toDigits 10 (value / scale)
  let fraction := value % scale
  if fraction = 0 then whole else whole ++ '.' :: dropZeros (padded decimals fraction)

/-- An amount with its unit, if that has a name. -/
def render (value decimals : Nat) (unit : String) : String :=
  let n := String.ofList (numeral value decimals)
  if unit.isEmpty then n else n ++ " " ++ unit

end ColdSigner.Amount
