import LinProg.Solve.Event
import LinProg.Solve.Start

namespace LinProg

variable {α : Type} [Scalar α]

def BasicRow.hasBasic (b : BasicRow α) (cols : List Nat) : Bool := b.basic.any cols.contains

namespace Tableau

def hasPositive (t : Tableau α) (cols : List Nat) : Bool :=
  t.rows.any fun b => b.hasBasic cols && decide (t.tol < b.row.rhs)

/-- Looks at `n` rows from row `r` on. Where one of the columns `cols` is basic another one takes
its place; a row that offers none says nothing about the other columns and is dropped. -/
def driveOutFrom (cols : List Nat) : Nat → Nat → Tableau α → Logged (Event α) (Tableau α)
  | 0, _, t => pure t
  | n + 1, r, t =>
    match t.rows[r]? with
    | none => pure t
    | some b =>
      if b.hasBasic cols then
        let other j := !cols.contains j && decide (t.tol < Scalar.abs (b.row.cell j))
        match (List.range t.width).find? other with
        | some j => do driveOutFrom cols n (r + 1) (← t.pivot (r + 1) j)
        | none => do
          .note (.rowRemoved r)
          driveOutFrom cols n r (t.removeRow r)
      else driveOutFrom cols n (r + 1) t

def driveOut (t : Tableau α) (cols : List Nat) : Logged (Event α) (Tableau α) :=
  t.driveOutFrom cols t.rows.length 0

def restore (t : Tableau α) (p : Program α) (cols : List Nat) :
    Logged (Event α) (Tableau α) := do
  let t ← t.driveOut cols
  return (t.removeColumns cols p.names).setObjective p.objectiveRow

end Tableau

end LinProg
