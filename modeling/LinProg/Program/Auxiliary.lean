import LinProg.Program.FreshName

namespace LinProg

/-- A kind of variable that the solver adds: the constraints that get one, how it enters them, and
the letter its name starts with. -/
structure Auxiliary (α : Type) where
  letter : String
  wanted : Nat → Constraint α → Bool
  enter : Constraint α → Var → Constraint α

variable {α : Type} [Scalar α]

namespace Auxiliary

def slack : Auxiliary α where
  letter := "s"
  wanted _ c := c.relation == .le
  enter c v := { c with expr := c.expr.addVar v, relation := .eq }

def surplus : Auxiliary α where
  letter := "s"
  wanted _ c := c.relation == .ge
  enter c v := { c with expr := c.expr.subVar v, relation := .eq }

def artificial (covered : List Nat) : Auxiliary α where
  letter := "a"
  wanted i _ := !covered.contains i
  enter c v := { c with expr := c.expr.addVar v }

end Auxiliary

namespace Program

/-- Walks the constraints from row `i` on. Returns the program with the new variables, the
constraints they entered, and each new variable with its row. -/
def augmentFrom (a : Auxiliary α) (p : Program α) (i : Nat) :
    List (Constraint α) → Except Fault (Program α × List (Constraint α) × List (Var × Nat))
  | [] => .ok (p, [], [])
  | c :: cs =>
    if a.wanted i c then do
      let (v, p) ← p.addVariable (p.freshName s!"{a.letter}{i}")
      let (p, cs, added) ← augmentFrom a p (i + 1) cs
      return (p, a.enter c v :: cs, (v, i) :: added)
    else do
      let (p, cs, added) ← augmentFrom a p (i + 1) cs
      return (p, c :: cs, added)

def augment (p : Program α) (a : Auxiliary α) : Except Fault (Program α × List (Var × Nat)) := do
  let (p, cs, added) ← p.augmentFrom a 0 p.constraints
  return ({ p with constraints := cs }, added)

end Program

end LinProg
