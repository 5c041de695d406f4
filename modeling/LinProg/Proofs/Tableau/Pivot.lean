import LinProg.Tableau.Ascent

namespace LinProg.Tableau

variable {α : Type} [Scalar α] {t u : Tableau α} {i j r : Nat} {b : BasicRow α}

theorem pivot_of_none (h : t.rows[r]? = none) (j : Nat) :
    t.pivot (r + 1) j = .error (.invalidPivot (r + 1) j) := by
  simp only [pivot]
  split
  · rfl
  · next b hb => rw [h] at hb; cases hb

theorem pivot_of_row (h : t.rows[r]? = some b) (j : Nat) :
    t.pivot (r + 1) j =
      if t.width ≤ j ∨ Scalar.abs (b.row.cell j) ≤ t.tol then .error (.invalidPivot (r + 1) j)
      else .ok (t.exchange r j b (List.mem_of_getElem? h)) := by
  simp only [pivot]
  split
  · next hn => rw [h] at hn; cases hn
  · next c hc =>
      rw [h] at hc
      cases hc
      rfl

theorem pivot_ok (h : t.pivot i j = .ok u) : ∃ r b, ∃ hb : t.rows[r]? = some b,
    i = r + 1 ∧ j < t.width ∧ ¬ Scalar.abs (b.row.cell j) ≤ t.tol ∧
      u = t.exchange r j b (List.mem_of_getElem? hb) := by
  cases i with
  | zero => cases h
  | succ r =>
      cases hb : t.rows[r]? with
      | none => rw [pivot_of_none hb] at h; cases h
      | some b =>
          rw [pivot_of_row hb] at h
          split at h
          · cases h
          · next hadmit =>
              obtain ⟨hj, ha⟩ := not_or.1 hadmit
              exact ⟨r, b, hb, rfl, Nat.not_le.1 hj, ha, (Except.ok.inj h).symm⟩

theorem width_exchange (hb : b ∈ t.rows) : (t.exchange r j b hb).width = t.width := by
  simp [exchange, width]

theorem width_of_pivot (h : t.pivot i j = .ok u) : u.width = t.width := by
  obtain ⟨r, b, hb, -, -, -, rfl⟩ := pivot_ok h
  exact width_exchange (List.mem_of_getElem? hb)

theorem labels_of_pivot (h : t.pivot i j = .ok u) : u.labels = t.labels := by
  obtain ⟨r, b, hb, -, -, -, rfl⟩ := pivot_ok h
  rfl

theorem length_rows_of_pivot (h : t.pivot i j = .ok u) : u.rows.length = t.rows.length := by
  obtain ⟨r, b, hb, -, -, -, rfl⟩ := pivot_ok h
  exact List.length_mapIdx ..

theorem pivot_fault {f : Fault} (h : t.pivot i j = .error f) : f = .invalidPivot i j := by
  cases i with
  | zero => cases h; rfl
  | succ r =>
      cases hb : t.rows[r]? with
      | none => rw [pivot_of_none hb] at h; cases h; rfl
      | some b =>
          rw [pivot_of_row hb] at h
          split at h
          · cases h; rfl
          · cases h

end LinProg.Tableau
