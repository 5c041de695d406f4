import LinProg.Decimal.Binary

namespace LinProg.Decimal

namespace Binary

/-- Whether `d * 10 ^ e` rounds to `x`: it lies at most halfway to the numbers around `x`, where
halfway counts only if `m` is even. -/
def readsBack (x : Binary) (d : Nat) (e : Int) : Bool :=
  let low := (if x.narrow then 4 * x.m - 1 else 4 * x.m - 2) * x.unit e
  let high := (4 * x.m + 2) * x.unit e
  let mid := 4 * d * x.denominator e
  if x.m % 2 = 0 then decide (low ≤ mid ∧ mid ≤ high) else decide (low < mid ∧ mid < high)

def onGrid? (x : Binary) (e : Int) : Option Nat :=
  let d := x.m * x.unit e / x.denominator e
  match x.readsBack d e, x.readsBack (d + 1) e with
  | true, true =>
    if 2 * x.m * x.unit e < (2 * d + 1) * x.denominator e then some d else some (d + 1)
  | true, false => some d
  | false, true => some (d + 1)
  | false, false => none

def shortestFrom (x : Binary) : Nat → Int → Nat × Int
  | 0, _ => if x.q < 0 then (x.m * Nat.pow 5 (-x.q).toNat, x.q) else (x.m * Nat.pow 2 x.q.toNat, 0)
  | n + 1, e =>
    match x.onGrid? e with
    | some d => (d, e)
    | none => shortestFrom x n (e - 1)

/-- The digits and the power of ten of the shortest decimal that reads back as `x`. The search
starts above `x`, since `10 ^ 3` is little less than `2 ^ 10`, and seventeen digits always suffice. -/
def shortest (x : Binary) : Nat × Int :=
  if x.m = 0 then (0, 0) else x.shortestFrom 22 ((x.m.log2 + 1 + x.q) * 3 / 10 + 2)

end Binary

end LinProg.Decimal
