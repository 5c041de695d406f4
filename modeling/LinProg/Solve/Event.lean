import LinProg.Solve.Logged
import LinProg.Solve.Solution
import LinProg.Tableau.Ascent

namespace LinProg

inductive Event (α : Type) where
  | objectiveReplaced (program : String) (previous : Objective α)
  | canonical (program : String) (slacks surpluses : Nat) (flipped : Bool)
  | phaseOne (program : String) (artificials : Nat)
  | pivot (count : Nat) (step : PivotStep α)
  | optimal (t : Tableau α)
  | rowRemoved (row : Nat)
  | infeasible (program : String) (pivots : Nat)
  | solved (program : String) (status : Status) (pivots : Nat) (optimum : Optimum α)

variable {α : Type} [Scalar α]

/-- Sets the objective and reports the one that it replaces. -/
def Program.replaceObjective (p : Program α) (o : Objective α) :
    Logged (Event α) (Program α) := do
  let q ← p.setObjective o
  match p.objective with
  | some previous => .note (.objectiveReplaced p.name previous)
  | none => pure ()
  return q

end LinProg
