import LinProg.Program.Basic
import LinProg.Tableau.Basic

namespace LinProg

namespace Program

variable {α : Type} [Scalar α]

def rows (p : Program α) : List (Row α) :=
  p.constraints.map fun c => ⟨c.expr.dense p.vars.length, c.bound⟩

def objectiveRow (p : Program α) : Row α :=
  let e := match p.objective with
    | some o => o.expr
    | none => .const 0
  ⟨(-e).dense p.vars.length, e.constant⟩

def tableau (p : Program α) (tol : α) : Tableau α := .ofRows p.names p.objectiveRow p.rows tol

/-- The sum of the artificial variables as an objective, with their columns cleared by the rows
they stand in. -/
def phaseOneRow (p : Program α) (artificials : List (Var × Nat)) : Row α :=
  let total : Row α :=
    ⟨(List.range p.vars.length).map fun j => if artificials.any (·.1.index == j) then 1 else 0, 0⟩
  let rows := p.rows
  artificials.foldl (fun o a =>
    match rows[a.2]? with
    | some r => o.addScaled (-1) r
    | none => o) total

def phaseOneTableau (p : Program α) (artificials : List (Var × Nat)) (tol : α) : Tableau α :=
  .ofRows p.names (p.phaseOneRow artificials) p.rows tol

end Program

end LinProg
