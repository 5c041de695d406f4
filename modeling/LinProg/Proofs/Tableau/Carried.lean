import LinProg.Proofs.Tableau.InPlace
import LinProg.Proofs.Tableau.ReducedCost
import LinProg.Proofs.Tableau.Undo

namespace LinProg.Tableau

variable {t u : Tableau ℚ}

/-- The basis and the values at the solutions leave no choice for the objective row. -/
theorem objective_eq_of_residual_eq (ht : t.HasUnitBasis) (hu : u.HasUnitBasis)
    (hw : u.width = t.width) (hr : u.rows = t.rows)
    (h : ∀ x, t.Solves x → u.objective.residual x = t.objective.residual x) :
    u.objective = t.objective := by
  have hsolves {x : ℕ → ℚ} (hx : u.Solves x) : t.Solves x := fun b hb => hx b (hr ▸ hb)
  refine Row.ext_cell hw fun j hj => ?_
  -- A basic column has 0, any other what moving along it costs, the last cell is the value.
  rcases hj.lt_or_eq with hj | rfl
  · by_cases hb : ∃ b ∈ t.rows, b.basic = some j
    · obtain ⟨b, hb, hbj⟩ := hb
      obtain ⟨r, hrow⟩ := List.getElem?_of_mem hb
      rw [(ht.unitIn hrow hbj).2.1, (hu.unitIn (hr ▸ hrow) hbj).2.1]
    · have hnb : ∀ b ∈ t.rows, b.basic ≠ some j := fun b hm hbj => hb ⟨b, hm, hbj⟩
      have hcell := cell_objective ht (a := t.objective.rhs) (w := t.objective.cell) (hw ▸ hj) hnb
        fun x _ => rfl
      have hres : ∀ x, u.Solves x → u.objective.residual x =
          t.objective.rhs - ∑ i ∈ Finset.range u.width, t.objective.cell i * x i := by
        intro x hx
        rw [h x (hsolves hx), hw]
        rfl
      rw [cell_objective hu hj (hr ▸ hnb) hres, hr, ← hcell]
  · have hval := h t.point (solves_point ht)
    rw [residual_point ht, ← point_congr hw hr, residual_point hu] at hval
    have hle : t.objective.width ≤ u.objective.width := hw.ge
    rw [u.objective.cell_of_le le_rfl, t.objective.cell_of_le hle]
    exact hval

theorem cell_setObjective_of_mem_basis {c : ℕ} (ht : t.HasUnitBasis) (hc : some c ∈ t.basis)
    (o : Row ℚ) : (t.setObjective o).objective.cell c = 0 := by
  obtain ⟨b, hb, hbc⟩ := List.mem_map.1 hc
  obtain ⟨r, hr⟩ := List.getElem?_of_mem hb
  exact ((ht.setObjective o).unitIn hr hbc).2.1

theorem setObjective_eq_self {o : Row ℚ} (ht : t.HasUnitBasis) (ho : o.width = t.width)
    (h : ∀ x, t.Solves x → t.objective.residual x = o.residual x) : t.setObjective o = t := by
  have hobj := objective_eq_of_residual_eq ht (ht.setObjective o) (width_setObjective t o) rfl
    fun x hx => (residual_setObjective ht ho hx).trans (h x hx).symm
  ext1
  · rfl
  · exact hobj
  · rfl
  · rfl

section Pivots

variable {α : Type} [Scalar α]

def pivots (t : Tableau α) (calls : List (ℕ × ℕ)) : Except Fault (Tableau α) :=
  calls.foldlM (fun t c => t.pivot c.1 c.2) t

theorem pivots_induction {P : Tableau α → Prop}
    (step : ∀ {t u : Tableau α} {i j : ℕ}, P t → t.pivot i j = .ok u → P u)
    {t u : Tableau α} {calls : List (ℕ × ℕ)} (ht : P t) (h : t.pivots calls = .ok u) : P u := by
  induction calls generalizing t with
  | nil => exact Except.ok.inj h ▸ ht
  | cons c calls ih =>
      rw [pivots, List.foldlM_cons] at h
      cases hp : t.pivot c.1 c.2 with
      | error f =>
          rw [hp] at h
          cases h
      | ok v =>
          rw [hp] at h
          exact ih (step ht hp) h

end Pivots

variable {calls : List (ℕ × ℕ)}

theorem width_of_pivots (h : t.pivots calls = .ok u) : u.width = t.width :=
  pivots_induction (P := fun v => v.width = t.width) (fun hv hw => (width_of_pivot hw).trans hv)
    rfl h

theorem preserves_of_pivots (h0 : 0 ≤ t.tol) (h : t.pivots calls = .ok u) : t.Preserves u :=
  pivots_induction (fun hv hw => hv.trans (preserves_of_pivot (hv.tol ▸ h0) hw)) ⟨rfl, .refl t, id⟩ h

/-- Setting the objective row again after pivots changes nothing, the row has been carried along. A
new objective is cleared in the basic columns and keeps its values at the solutions. -/
theorem setObjective_of_pivots (h0 : 0 ≤ t.tol) (ht : t.HasUnitBasis)
    (h : t.pivots calls = .ok u) :
    u.setObjective t.objective = u ∧
    ∀ o : Row ℚ, o.width = t.width →
      (u.setObjective o).rows = u.rows ∧
      (∀ c, some c ∈ u.basis → (u.setObjective o).objective.cell c = 0) ∧
      ∀ x, u.Solves x → (u.setObjective o).objective.residual x = o.residual x := by
  have hw := width_of_pivots h
  have hk := preserves_of_pivots h0 h
  have hu := hk.hasUnitBasis ht
  constructor
  · refine setObjective_eq_self hu hw.symm fun x hx => ?_
    exact (hk.equivalent x).2 ((hk.equivalent x).1.1 hx)
  · intro o ho
    exact ⟨rows_setObjective u o, fun c hc => cell_setObjective_of_mem_basis hu hc o,
      fun x hx => residual_setObjective hu (ho.trans hw.symm) hx⟩

theorem setObjective_of_pivots_paired : ∃ u, (paired 0).pivots [(1, 0), (2, 1)] = .ok u ∧
    u.objective.cells = [0, 0, -1, -3] ∧ u.setObjective (paired 0).objective = u ∧
    (u.setObjective ⟨[1, 1, 0], 0⟩).rows = u.rows ∧
    (u.setObjective ⟨[1, 1, 0], 0⟩).objective.cell 0 = 0 ∧
    (u.setObjective ⟨[1, 1, 0], 0⟩).objective.cell 1 = 0 := by
  have hrun : ((paired 0).pivots [(1, 0), (2, 1)]).toOption.map
      (fun u => (u.objective.cells, u.basis)) = some ([0, 0, -1, -3], [some 0, some 1]) := by
    decide +kernel
  cases hu : (paired 0).pivots [(1, 0), (2, 1)] with
  | error f =>
      rw [hu] at hrun
      cases hrun
  | ok u =>
      rw [hu] at hrun
      obtain ⟨hcells, hbasis⟩ := Prod.mk.inj (Option.some.inj hrun)
      obtain ⟨hself, hother⟩ := setObjective_of_pivots le_rfl (hasUnitBasis_paired 0) hu
      obtain ⟨hrows, hzero, -⟩ := hother ⟨[1, 1, 0], 0⟩ rfl
      refine ⟨u, rfl, hcells, hself, hrows, hzero 0 ?_, hzero 1 ?_⟩
      · rw [hbasis]
        exact .head _
      · rw [hbasis]
        exact .tail _ (.head _)

end LinProg.Tableau
