import LinProg.Expr.Linear

namespace LinProg

inductive Direction where
  | max
  | min
  deriving DecidableEq, Repr

def Direction.flip : Direction → Direction
  | max => min
  | min => max

@[ext]
structure Objective (α : Type) where
  expr : LinExpr α
  direction : Direction

namespace Objective

variable {α : Type} [Scalar α]

def label : String := "z"

/-- The same optimal points, with values of the other sign. -/
def invert (o : Objective α) : Objective α := ⟨o.expr.scale (-1), o.direction.flip⟩

def simplify (o : Objective α) : Objective α := { o with expr := o.expr.simplify }

instance : BEq (Objective α) := ⟨fun o q => o.expr == q.expr && o.direction == q.direction⟩

end Objective

end LinProg
