import LinProg.Fault
import LinProg.Tableau.Basic

namespace LinProg

namespace Tableau

variable {α : Type} [Scalar α]

def exchange (t : Tableau α) (r j : Nat) (b : BasicRow α) (hb : b ∈ t.rows) : Tableau α :=
  let p := (b.row.divide (b.row.cell j)).set j 1
  { t with
    objective := (t.objective.clear p j).set j 0
    rows := t.rows.mapIdx fun k c =>
      if k = r then ⟨some j, p⟩ else { c with row := (c.row.clear p j).set j 0 }
    aligned := by
      intro c hc
      obtain ⟨i, h, rfl⟩ := List.mem_mapIdx.1 hc
      split
      · simpa [p] using t.aligned b hb
      · simpa using t.aligned t.rows[i] (List.getElem_mem h) }

/-- A pivot needs a constraint row, a variable column and an entry that does not count as 0. -/
def pivot (t : Tableau α) (i j : Nat) : Except Fault (Tableau α) :=
  match i with
  | 0 => .error (.invalidPivot i j)
  | r + 1 =>
    match h : t.rows[r]? with
    | none => .error (.invalidPivot i j)
    | some b =>
      if t.width ≤ j ∨ Scalar.abs (b.row.cell j) ≤ t.tol then .error (.invalidPivot i j)
      else .ok (t.exchange r j b (List.mem_of_getElem? h))

end Tableau

end LinProg
