namespace LinProg

/-- Why a program could not be built, evaluated or solved. An infeasible or unbounded program is
a solution, not a fault. -/
inductive Fault where
  | tooFewValues (expected actual : Nat)
  | duplicateVariable (name : String)
  | foreignVariable (name : String)
  | missingObjective
  | pivotLimit (limit : Nat)
  | invalidPivot (row col : Nat)
  | unboundedPhaseOne
  deriving DecidableEq, Repr

def Fault.message : Fault → String
  | tooFewValues expected actual =>
    s!"assignment has {actual} values, expected at least {expected}"
  | duplicateVariable name => s!"variable `{name}` already exists in the model"
  | foreignVariable name => s!"variable `{name}` belongs to a different model"
  | missingObjective => "model has no objective, call minimize or maximize first"
  | pivotLimit limit => s!"simplex did not terminate within {limit} pivots"
  | invalidPivot row col => s!"cannot pivot on row {row}, column {col}"
  | unboundedPhaseOne => "phase one objective reported unbounded"

end LinProg
