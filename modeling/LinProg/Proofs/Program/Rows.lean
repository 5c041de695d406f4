import LinProg.Proofs.Program.Equations
import LinProg.Solve.Start

namespace LinProg

variable {α : Type} [Scalar α]

theorem Row.width_dense (e : LinExpr α) (n : ℕ) (b : α) : (⟨e.dense n, b⟩ : Row α).width = n := by
  simp [width, LinExpr.dense]

namespace Program

variable {q : Program α}

theorem length_rows (q : Program α) : q.rows.length = q.constraints.length := List.length_map ..

theorem width_of_mem_rows : ∀ row ∈ q.rows, row.width = q.vars.length := by
  intro row hr
  obtain ⟨c, -, rfl⟩ := List.mem_map.1 hr
  exact Row.width_dense _ _ _

theorem width_objectiveRow (q : Program α) : q.objectiveRow.width = q.vars.length :=
  Row.width_dense _ _ _

/-- One step of clearing the columns of the artificial variables from the objective of phase one. -/
def subtractRow (rows : List (Row α)) (o : Row α) (a : Var × ℕ) : Row α :=
  rows[a.2]?.elim o (o.addScaled (-1))

def artificialRow (q : Program α) (added : List (Var × ℕ)) : Row α :=
  ⟨(List.range q.vars.length).map fun j => if added.any (·.1.index == j) then 1 else 0, 0⟩

theorem phaseOneRow_eq (q : Program α) (added : List (Var × ℕ)) :
    q.phaseOneRow added = added.foldl (subtractRow q.rows) (q.artificialRow added) := by
  unfold phaseOneRow
  dsimp only
  congr 1
  funext z a
  rw [subtractRow]
  cases q.rows[a.2]? <;> rfl

theorem width_subtractRow (rows : List (Row α)) (z : Row α) (a : Var × ℕ) :
    (subtractRow rows z a).width = z.width := by
  rw [subtractRow]
  cases rows[a.2]? with
  | none => rfl
  | some row => exact Row.width_addScaled _ _ _

theorem width_foldl_subtractRow (rows : List (Row α)) (l : List (Var × ℕ)) (z : Row α) :
    (l.foldl (subtractRow rows) z).width = z.width := by
  induction l generalizing z with
  | nil => rfl
  | cons a l ih => rw [List.foldl_cons, ih, width_subtractRow]

theorem width_artificialRow (q : Program α) (added : List (Var × ℕ)) :
    (q.artificialRow added).width = q.vars.length := by
  simp [artificialRow, Row.width]

theorem width_phaseOneRow (q : Program α) (added : List (Var × ℕ)) :
    (q.phaseOneRow added).width = q.vars.length := by
  rw [phaseOneRow_eq, width_foldl_subtractRow, width_artificialRow]

end Program

theorem Canonical.HasArtificials.width_not_mem_cols {k : Canonical α} {q : Program α}
    {added : List (Var × ℕ)} {t : Tableau α} (h : k.HasArtificials q added)
    (hw : t.width = q.vars.length) : t.width ∉ added.map (·.1.index) := by
  rw [h.mem_cols, hw, h.length_vars]
  omega

end LinProg
