import LinProg.Decimal.Notation
import LinProg.Program.Objective
import LinProg.Tableau.Basic
import LinProg.Text.Table

namespace LinProg

open Text Decimal

/-- A line per row: the basic variable, the coefficient of the objective variable, those of the
labelled columns, and the right hand side. -/
def Tableau.text (t : Tableau Float) : String :=
  let labels := t.labels.take t.width
  let columns := ⟨"", .right⟩ :: List.replicate (labels.length + 2) ⟨" | ", .right⟩
  let cells (label : String) (z : Float) (r : Row Float) : List String :=
    label :: toPlaces 3 z :: (r.coeffs.take labels.length).map (toPlaces 3) ++ [toPlaces 3 r.rhs]
  let basic (b : BasicRow Float) : String := ((b.basic.bind fun c => t.labels[c]?).getD "-")
  table columns <|
    ("basis" :: Objective.label :: labels ++ ["b"]) :: cells Objective.label 1 t.objective ::
      t.rows.map fun b => cells (basic b) 0 b.row

end LinProg
