import LinProg.Expr.Linear

namespace LinProg

inductive Relation where
  | le
  | ge
  | eq
  deriving DecidableEq, Repr

def Relation.flip : Relation → Relation
  | le => ge
  | ge => le
  | eq => eq

/-- `expr relation bound`, the constants of both sides gathered in the bound. -/
@[ext]
structure Constraint (α : Type) where
  expr : LinExpr α
  relation : Relation
  bound : α
  /-- The row within the program that holds the constraint. -/
  index : Nat

namespace Constraint

variable {α : Type} [Scalar α]

def relate (lhs : LinExpr α) (r : Relation) (rhs : LinExpr α) : Constraint α :=
  let e := lhs - rhs
  ⟨{ e with constant := 0 }, r, -e.constant, 0⟩

def invert (c : Constraint α) : Constraint α :=
  { c with expr := c.expr.scale (-1), relation := c.relation.flip, bound := -c.bound }

def simplify (c : Constraint α) : Constraint α := { c with expr := c.expr.simplify }

def satisfied? (c : Constraint α) (x : List α) (tol : α) : Except Fault Bool := do
  let y ← c.expr.eval x
  return match c.relation with
    | .le => decide (y ≤ c.bound + tol)
    | .ge => decide (c.bound - tol ≤ y)
    | .eq => decide (Scalar.abs (y - c.bound) ≤ tol)

instance : BEq (Constraint α) :=
  ⟨fun c d => c.expr == d.expr && c.relation == d.relation && c.bound == d.bound &&
    c.index == d.index⟩

end Constraint

end LinProg
