import LinProg.Proofs.Tableau.Ascent

namespace LinProg.Tableau

variable {t : Tableau ℚ} {x : ℕ → ℚ} {r j c : ℕ} {b : BasicRow ℚ}

/-- Weak duality: with no negative coefficient in the objective row, nonnegative values do not get
past the corner. -/
theorem residual_le_value (hcell : ∀ i < t.width, 0 ≤ t.objective.cell i) (hx : ∀ i, 0 ≤ x i) :
    t.objective.residual x ≤ t.value := by
  have hs : 0 ≤ ∑ i ∈ Finset.range t.objective.width, t.objective.cell i * x i :=
    Finset.sum_nonneg fun i hi => mul_nonneg (hcell i (Finset.mem_range.1 hi)) (hx i)
  exact sub_le_self _ hs

/-- The direction that raises column `j` alone and lets the basic columns make up for it. -/
def ray (t : Tableau ℚ) (j : ℕ) (i : ℕ) : ℚ :=
  if i = j then 1 else ((t.rows.find? (·.basic == some i)).map fun b => -b.row.cell j).getD 0

theorem ray_self (t : Tableau ℚ) (j : ℕ) : t.ray j j = 1 := if_pos rfl

theorem ray_basic (ht : t.HasUnitBasis) (hb : t.rows[r]? = some b) (hc : b.basic = some c)
    (hcj : c ≠ j) : t.ray j c = -b.row.cell j := by
  rw [ray, if_neg hcj]
  cases hf : t.rows.find? (·.basic == some c) with
  | none =>
      have hn := List.find?_eq_none.1 hf b (List.mem_of_getElem? hb)
      simp [hc] at hn
  | some d =>
      have hd : d.basic = some c := by simpa using List.find?_some hf
      obtain ⟨k, hk⟩ := List.getElem?_of_mem (List.mem_of_find?_eq_some hf)
      obtain rfl := ht.row_unique hb hk hc hd
      rw [hb] at hk
      obtain rfl := Option.some.inj hk
      rfl

theorem ray_eq_zero {i : ℕ} (hi : i ≠ j) (h : ∀ b ∈ t.rows, b.basic ≠ some i) : t.ray j i = 0 := by
  have hf : t.rows.find? (·.basic == some i) = none :=
    List.find?_eq_none.2 fun b hb => by simpa using h b hb
  rw [ray, if_neg hi, hf]
  rfl

theorem ray_nonneg (hcol : ∀ b ∈ t.rows, b.row.cell j ≤ 0) (i : ℕ) : 0 ≤ t.ray j i := by
  rw [ray]
  split
  · exact zero_le_one
  · cases hf : t.rows.find? (·.basic == some i) with
    | none => exact le_rfl
    | some d => exact neg_nonneg.2 (hcol d (List.mem_of_find?_eq_some hf))

theorem sum_row_ray (ht : t.HasUnitBasis) (hj : j < t.width)
    (hnb : ∀ b ∈ t.rows, b.basic ≠ some j) (hb : b ∈ t.rows) :
    ∑ i ∈ Finset.range b.row.width, b.row.cell i * t.ray j i = 0 := by
  obtain ⟨r, hr⟩ := List.getElem?_of_mem hb
  obtain ⟨c, hc, hlt, -, hcol⟩ := ht r b hr
  have hcj : c ≠ j := fun h => hnb b hb (h ▸ hc)
  have hw : b.row.width = t.width := t.aligned b hb
  have hrest : ∀ i ∈ Finset.range b.row.width, i ≠ j ∧ i ≠ c → b.row.cell i * t.ray j i = 0 :=
    fun i _ hi => cell_mul_eq_zero ht hr hc hi.2 (ray_eq_zero hi.1)
  rw [Finset.sum_eq_add_of_mem j c (by simpa [hw] using hj) (by simpa [hw] using hlt) hcj.symm hrest,
    ray_self, ray_basic ht hr hc hcj, hcol r b hr, if_pos rfl]
  ring

theorem sum_objective_ray (ht : t.HasUnitBasis) (hj : j < t.width) :
    ∑ i ∈ Finset.range t.objective.width, t.objective.cell i * t.ray j i = t.objective.cell j := by
  have hmem : j ∈ Finset.range t.objective.width := Finset.mem_range.2 hj
  rw [Finset.sum_eq_single_of_mem j hmem
    fun i _ hi => objective_mul_eq_zero ht (ray_eq_zero hi), ray_self, mul_one]

theorem not_basic_of_neg (ht : t.HasUnitBasis) (hneg : t.objective.cell j < 0) :
    ∀ b ∈ t.rows, b.basic ≠ some j := by
  intro b hb hbj
  obtain ⟨r, hr⟩ := List.getElem?_of_mem hb
  exact hneg.ne (ht.unitIn hr hbj).2.1

theorem exists_solves_above (ht : t.HasUnitBasis) (hn : t.RhsNonneg) (hj : j < t.width)
    (hneg : t.objective.cell j < 0) (hcol : ∀ b ∈ t.rows, b.row.cell j ≤ 0) (bound : ℚ) :
    ∃ x, (∀ i, 0 ≤ x i) ∧ t.Solves x ∧ bound < t.objective.residual x := by
  have hnb := not_basic_of_neg ht hneg
  -- So far along the ray the corner is more than `|bound - t.value|` behind.
  let s : ℚ := (|bound - t.value| + 1) / -t.objective.cell j
  have hpos : 0 < -t.objective.cell j := neg_pos.2 hneg
  have hs : 0 ≤ s := div_nonneg (by positivity) hpos.le
  refine ⟨fun i => t.point i + s * t.ray j i, fun i => ?_, fun b hb => ?_, ?_⟩
  · exact add_nonneg (point_nonneg ht hn i) (mul_nonneg hs (ray_nonneg hcol i))
  · rw [Row.residual_move, sum_row_ray ht hj hnb hb, solves_point ht b hb]
    ring
  · rw [Row.residual_move, sum_objective_ray ht hj, residual_point ht]
    have hmul : s * -t.objective.cell j = |bound - t.value| + 1 := div_mul_cancel₀ _ hpos.ne'
    have habs := le_abs_self (bound - t.value)
    linarith

theorem Vertex.residual_le_value (ht : t.Vertex) (hm : t.move = .optimal) (hx : ∀ i, 0 ≤ x i) :
    t.objective.residual x ≤ t.value := by
  have hs := t.shows_move
  rw [hm] at hs
  cases hs with
  | optimal h =>
      rw [ht.exact, neg_zero] at h
      exact Tableau.residual_le_value h hx

theorem Vertex.exists_solves_above (ht : t.Vertex) (hm : t.move = .unbounded) (bound : ℚ) :
    ∃ x, (∀ i, 0 ≤ x i) ∧ t.Solves x ∧ bound < t.objective.residual x := by
  have hs := t.shows_move
  rw [hm] at hs
  cases hs with
  | unbounded lt neg free =>
      rw [ht.exact, neg_zero] at neg
      rw [ht.exact] at free
      exact Tableau.exists_solves_above ht.unit ht.nonneg lt neg free bound

end LinProg.Tableau
