import LinProg.Proofs.Tableau.Pivot
import LinProg.Solve.PhaseOne

namespace LinProg

variable {α : Type}

def Tableau.relabel (labels : List String) (t : Tableau α) : Tableau α := { t with labels }

def Ascent.relabel (labels : List String) (a : Ascent α) : Ascent α :=
  { a with last := a.last.relabel labels }

namespace Tableau

variable [Scalar α]

theorem pivot_relabel (labels : List String) (t : Tableau α) (i j : Nat) :
    (t.relabel labels).pivot i j = (t.pivot i j).map (relabel labels) := by
  cases i with
  | zero => rfl
  | succ r =>
      cases hb : t.rows[r]? with
      | none =>
          rw [pivot_of_none hb]
          exact pivot_of_none (t := t.relabel labels) hb j
      | some b =>
          rw [pivot_of_row hb]
          refine (pivot_of_row (t := t.relabel labels) hb j).trans ?_
          change (if t.width ≤ j ∨ Scalar.abs (b.row.cell j) ≤ t.tol then _ else _) = _
          split
          · rfl
          · rfl

theorem ascendFrom_relabel (labels : List String) (done : List (PivotStep α)) (n : Nat)
    (t : Tableau α) :
    (t.relabel labels).ascendFrom done n = (t.ascendFrom done n).relabel labels := by
  have hm (t : Tableau α) : (t.relabel labels).move = t.move := rfl
  induction n generalizing t done with
  | zero =>
      unfold ascendFrom
      rw [hm]
      cases t.move with
      | optimal | unbounded | pivot => rfl
  | succ n ih =>
      unfold ascendFrom
      rw [hm]
      cases t.move with
      | optimal | unbounded => rfl
      | pivot i j =>
          dsimp only
          rw [pivot_relabel]
          cases t.pivot i j with
          | ok u => exact ih _ u
          | error f => rfl

theorem driveOutFrom_relabel (cols : List Nat) (labels : List String) (n r : Nat)
    (t : Tableau α) :
    (driveOutFrom cols n r (t.relabel labels)).result =
      (driveOutFrom cols n r t).result.map (relabel labels) := by
  induction n generalizing r t with
  | zero => rfl
  | succ n ih =>
      have hrows : (t.relabel labels).rows = t.rows := rfl
      rw [driveOutFrom, driveOutFrom, hrows]
      cases t.rows[r]? with
      | none => rfl
      | some b =>
          dsimp only
          by_cases hb : b.hasBasic cols
          · simp only [hb, if_true]
            have hw : (t.relabel labels).width = t.width := rfl
            have htol : (t.relabel labels).tol = t.tol := rfl
            rw [hw, htol]
            generalize (List.range t.width).find? _ = f
            cases f with
            | none => exact (Logged.result_bind _ _).trans (ih r (t.removeRow r))
            | some j =>
                dsimp only
                rw [Logged.result_bind, Logged.result_bind, Logged.result_lift, Logged.result_lift,
                  pivot_relabel]
                cases t.pivot (r + 1) j with
                | ok u => exact ih (r + 1) u
                | error f => rfl
          · simp only [hb]
            exact ih (r + 1) t

/-- The columns that are put back have the names of the program. -/
theorem restore_relabel (cols : List Nat) (labels : List String) (t : Tableau α) {p q : Program α}
    (h : p.objectiveRow = q.objectiveRow) :
    ((t.relabel labels).restore q cols).result =
      (t.restore p cols).result.map (relabel q.names) := by
  rw [restore, restore, Logged.result_bind, Logged.result_bind, driveOut, driveOut]
  have hd := driveOutFrom_relabel cols labels t.rows.length 0 t
  change (driveOutFrom cols t.rows.length 0 (t.relabel labels)).result >>= _ = _
  rw [hd, ← h]
  cases (driveOutFrom cols t.rows.length 0 t).result with
  | ok u => rfl
  | error f => rfl

end Tableau

end LinProg
