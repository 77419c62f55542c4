/-! Decimal numerals of bounded size. -/
namespace ColdSigner.Text

def digit? (c : Char) : Option Nat :=
  if '0' ≤ c ∧ c ≤ '9' then some (c.toNat - 48) else none

/-- The number a run of ASCII digits spells after `acc`, unless it passes `limit`. -/
def digits? (limit acc : Nat) : List Char → Option Nat
  | [] => some acc
  | c :: rest => do
    let d ← digit? c
    let v := 10 * acc + d
    if v ≤ limit then digits? limit v rest else none

/-- A numeral up to `limit`: a plus sign may lead, zeros may follow it, and at
least one digit must. -/
def numeral? (limit : Nat) (s : List Char) : Option Nat :=
  let digits := match s with
    | '+' :: rest => rest
    | s => s
  if digits.isEmpty then none else digits? limit 0 digits

def max16 : Nat := UInt16.size - 1
def max32 : Nat := UInt32.size - 1
def max64 : Nat := UInt64.size - 1

end ColdSigner.Text
