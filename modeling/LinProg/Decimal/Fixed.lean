import LinProg.Decimal.Binary

namespace LinProg.Decimal

/-- The integer nearest to `n / d`, the even one if two are equally near. -/
def roundQuotient (n d : Nat) : Nat :=
  let k := n / d
  let r := n % d
  if 2 * r < d ∨ 2 * r = d ∧ k % 2 = 0 then k else k + 1

def Binary.fixed (x : Binary) (places : Nat) : Nat :=
  roundQuotient (x.m * x.unit (-places)) (x.denominator (-places))

end LinProg.Decimal
