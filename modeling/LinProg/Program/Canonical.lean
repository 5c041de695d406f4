import LinProg.Program.Auxiliary

namespace LinProg

/-- A program brought to the form the simplex method starts from: maximization over equations with
nonnegative bounds. Each added variable is listed with its row, and `flipped` tells whether the
objective was a minimum. -/
structure Canonical (α : Type) where
  program : Program α
  slacks : List (Var × Nat)
  surpluses : List (Var × Nat)
  flipped : Bool

variable {α : Type} [Scalar α]

def Constraint.orient (c : Constraint α) : Constraint α := if c.bound < 0 then c.invert else c

def Objective.orient (o : Objective α) : Objective α :=
  match o.direction with
  | .max => o
  | .min => o.invert

def Program.canonical? (p : Program α) : Except Fault (Canonical α) := do
  let p := p.simplify
  let some o := p.objective | throw .missingObjective
  let p := { p with objective := some o.orient, constraints := p.constraints.map Constraint.orient }
  let (p, slacks) ← p.augment .slack
  let (p, surpluses) ← p.augment .surplus
  return ⟨p, slacks, surpluses, o.direction == .min⟩

namespace Canonical

def needsPhaseOne (c : Canonical α) : Bool := c.slacks.length < c.program.constraints.length

def withArtificials (c : Canonical α) : Except Fault (Program α × List (Var × Nat)) :=
  c.program.augment (.artificial (c.slacks.map (·.2)))

end Canonical

end LinProg
