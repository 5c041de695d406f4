import LinProg.Program.Basic
import LinProg.Tableau.Basic

namespace LinProg

inductive Status where
  | optimal
  | unbounded
  | infeasible
  deriving DecidableEq, Repr

inductive Optimum (α : Type) where
  | attained (x : α)
  | plusInfinity
  | minusInfinity
  | undefined
  deriving DecidableEq, Repr

/-- The outcome of a solve. The values cover the columns of the final tableau: first the variables
of the program, then those the solver added. -/
structure Solution (α : Type) where
  status : Status
  owner : Nat
  names : List String
  optimum : Optimum α
  values : List α
  initial : Tableau α
  final : Tableau α

namespace Solution

variable {α : Type} [Scalar α]

def isBounded (s : Solution α) : Bool := s.status != .unbounded

def isFeasible (s : Solution α) : Bool := s.status != .infeasible

def assignment (s : Solution α) (p : Program α) : List α :=
  (List.range p.vars.length).map fun i => s.values.getD i 0

def value (s : Solution α) (v : Var) : Except Fault α :=
  if v.owner ≠ s.owner ∨ s.names.length ≤ v.index then .error (.foreignVariable v.name)
  else .ok (s.values.getD v.index 0)

end Solution

end LinProg
