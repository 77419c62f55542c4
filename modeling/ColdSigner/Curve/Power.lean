/-! Powers by squaring. -/
namespace ColdSigner

/-- `x` raised to `e`. -/
def power {α : Type} [Mul α] [OfNat α 1] (x : α) (e : Nat) : α :=
  if _h : e = 0 then 1
  else
    let rest := power (x * x) (e / 2)
    if e % 2 = 1 then x * rest else rest
termination_by e

end ColdSigner
