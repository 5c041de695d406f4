import LinProg.Proofs.Tableau.Admission
import LinProg.Solve.PhaseOne

namespace LinProg.Tableau

variable {α : Type} [Scalar α]

/-- What driving out comes to at row `r` of `t`, when after it `n` more rows may be looked at. -/
inductive DrivesOn (cols : List ℕ) (n r : ℕ) (t : Tableau α) : Except Fault (Tableau α) → Prop
  | past (row : t.rows[r]? = none) : DrivesOn cols n r t (.ok t)
  | pass {b : BasicRow α} (row : t.rows[r]? = some b) (basic : ¬ b.hasBasic cols) :
      DrivesOn cols n r t (driveOutFrom cols n (r + 1) t).result
  | swap {b : BasicRow α} {j : ℕ} (row : t.rows[r]? = some b) (basic : b.hasBasic cols)
      (lt : j < t.width) (col : j ∉ cols) (entry : t.tol < Scalar.abs (b.row.cell j)) :
      DrivesOn cols n r t (t.pivot (r + 1) j >>= fun u => (driveOutFrom cols n (r + 1) u).result)
  | drop {b : BasicRow α} (row : t.rows[r]? = some b) (basic : b.hasBasic cols)
      (zero : ∀ j < t.width, j ∉ cols → ¬ t.tol < Scalar.abs (b.row.cell j)) :
      DrivesOn cols n r t (driveOutFrom cols n r (t.removeRow r)).result

variable {cols : List ℕ} {n r : ℕ} {t : Tableau α} {f : Fault}

theorem drivesOn (cols : List ℕ) (n r : ℕ) (t : Tableau α) :
    DrivesOn cols n r t (driveOutFrom cols (n + 1) r t).result := by
  rw [driveOutFrom]
  cases hr : t.rows[r]? with
  | none => exact .past hr
  | some b =>
      by_cases hb : b.hasBasic cols
      · simp only [hb, if_true]
        cases hf : (List.range t.width).find? fun j =>
            !cols.contains j && decide (t.tol < Scalar.abs (b.row.cell j)) with
        | none =>
            refine .drop hr hb fun j hj hjc => ?_
            have hn := List.find?_eq_none.1 hf j (List.mem_range.2 hj)
            simpa [hjc] using hn
        | some j =>
            have hj : j ∉ cols ∧ t.tol < Scalar.abs (b.row.cell j) := by
              simpa using List.find?_some hf
            dsimp only
            rw [Logged.result_bind, Logged.result_lift]
            exact .swap hr hb (List.mem_range.1 (List.mem_of_find?_eq_some hf)) hj.1 hj.2
      · simp only [hb]
        exact .pass hr hb

theorem driveOutFrom_fault (h : (driveOutFrom cols n r t).result = .error f) :
    ∃ i j, f = .invalidPivot i j := by
  induction n generalizing r t with
  | zero => cases h
  | succ n ih =>
      have hd := drivesOn cols n r t
      rw [h] at hd
      generalize hx : Except.error f = x at hd
      cases hd with
      | past => cases hx
      | pass | drop => exact ih hx.symm
      | @swap b j =>
          cases hp : t.pivot (r + 1) j with
          | error e =>
              rw [hp] at hx
              obtain rfl := Except.error.inj hx
              exact ⟨_, _, pivot_fault hp⟩
          | ok u =>
              rw [hp] at hx
              exact ih hx.symm

theorem restore_fault {p : Program α} (h : (t.restore p cols).result = .error f) :
    ∃ i j, f = .invalidPivot i j := by
  rw [restore, Logged.result_bind, driveOut] at h
  cases hd : (t.driveOutFrom cols t.rows.length 0).result with
  | error e =>
      rw [hd] at h
      obtain rfl := Except.error.inj h
      exact driveOutFrom_fault hd
  | ok u =>
      rw [hd] at h
      cases h

theorem exists_driveOutFrom_ok (hα : Comparable α) (cols : List ℕ) (n r : ℕ) (t : Tableau α) :
    ∃ u, (driveOutFrom cols n r t).result = .ok u := by
  induction n generalizing r t with
  | zero => exact ⟨t, rfl⟩
  | succ n ih =>
      have hd := drivesOn cols n r t
      generalize (driveOutFrom cols (n + 1) r t).result = x at hd
      cases hd with
      | past => exact ⟨t, rfl⟩
      | pass => exact ih (r + 1) t
      | drop => exact ih r (t.removeRow r)
      | @swap b j row _ lt _ entry =>
          have hadmit : ¬ (t.width ≤ j ∨ Scalar.abs (b.row.cell j) ≤ t.tol) :=
            not_or.2 ⟨Nat.not_le.2 lt, hα.above _ _ entry⟩
          rw [pivot_of_row row, if_neg hadmit]
          exact ih (r + 1) _

theorem exists_restore_ok (hα : Comparable α) (t : Tableau α) (p : Program α)
    (cols : List ℕ) : ∃ u, (t.restore p cols).result = .ok u := by
  obtain ⟨u, hu⟩ := exists_driveOutFrom_ok hα cols t.rows.length 0 t
  rw [restore, Logged.result_bind, driveOut, hu]
  exact ⟨_, rfl⟩

end LinProg.Tableau
