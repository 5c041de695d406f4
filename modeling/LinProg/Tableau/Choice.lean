import LinProg.Tableau.Basic

namespace LinProg

namespace Tableau

variable {α : Type} [Scalar α]

def isOptimal (t : Tableau α) : Bool := t.objective.coeffs.all fun c => decide (-t.tol ≤ c)

def leastFrom (best : Nat) (least : α) (j : Nat) : List α → Nat
  | [] => best
  | c :: cs => if c < least then leastFrom j c (j + 1) cs else leastFrom best least (j + 1) cs

def entering (t : Tableau α) : Nat :=
  match t.objective.coeffs with
  | [] => 0
  | c :: cs => leastFrom 0 c 1 cs

def isUnbounded (t : Tableau α) (j : Nat) : Bool :=
  t.rows.all fun b => decide (b.row.cell j ≤ t.tol)

/-- The row of the least ratio among the rows from `i` on with an entry above `tol` in column `j`,
`best` being the row and ratio found so far. -/
def leastRatioFrom (tol : α) (j i : Nat) (best : Option (Nat × α)) :
    List (BasicRow α) → Option (Nat × α)
  | [] => best
  | b :: bs =>
    if b.row.cell j ≤ tol then leastRatioFrom tol j (i + 1) best bs
    else
      let ratio := b.row.rhs / b.row.cell j
      let keep := match best with
        | some (_, q) => decide (q ≤ ratio)
        | none => false
      leastRatioFrom tol j (i + 1) (if keep then best else some (i, ratio)) bs

def leaving (t : Tableau α) (j : Nat) : Option Nat :=
  (leastRatioFrom t.tol j 1 none t.rows).map (·.1)

end Tableau

end LinProg
