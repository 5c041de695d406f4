import LinProg.Proofs.Tableau.Budget
import LinProg.Proofs.Tableau.Choice
import LinProg.Proofs.Tableau.UnitBasis

namespace LinProg.Tableau

variable {t u : Tableau ℚ} {i j r : ℕ} {b : BasicRow ℚ}

theorem exists_pivot_of_move (hm : t.move = .pivot i j) : ∃ u, t.pivot i j = .ok u := by
  have hs := t.shows_move
  rw [hm] at hs
  cases hs with
  | pivot lt _ _ row entry _ => exact exists_pivot row lt (entry.trans_le (le_abs_self _))

/-- A tableau whose basic columns are exact unit vectors, whatever else counts as 0. -/
structure Based (t : Tableau ℚ) : Prop where
  tol_nonneg : 0 ≤ t.tol
  unit : t.HasUnitBasis

theorem Exchanged.based (h : t.Exchanged r j b u) (ht : t.Based) : u.Based :=
  ⟨h.tol.symm ▸ ht.tol_nonneg, h.hasUnitBasis ht.tol_nonneg ht.unit⟩

theorem Advances.exchanged (h : t.Advances u) (h0 : 0 ≤ t.tol) :
    ∃ r j b, t.Exchanged r j b u ∧ t.objective.cell j < -t.tol ∧ t.tol < b.row.cell j ∧
      ∀ c ∈ t.rows, t.tol < c.row.cell j → b.ratio j ≤ c.ratio j := by
  obtain ⟨i, j, hm, hp⟩ := h
  have hs := t.shows_move
  rw [hm] at hs
  cases hs with
  | @pivot r j b lt neg least row entry ratio =>
      exact ⟨r, j, b, exchanged_of_row h0 row hp, neg, entry, ratio⟩

theorem Advances.based (h : t.Advances u) (ht : t.Based) :
    u.Based ∧ t.Equivalent u ∧ u.width = t.width := by
  obtain ⟨r, j, b, hx, -⟩ := h.exchanged ht.tol_nonneg
  exact ⟨hx.based ht, hx.equivalent ht.tol_nonneg, hx.width_eq⟩

theorem based_of_reaches (h : Relation.ReflTransGen Advances t u) (ht : t.Based) :
    u.Based ∧ t.Equivalent u ∧ u.width = t.width := by
  induction h with
  | refl => exact ⟨ht, .refl t, rfl⟩
  | tail _ hstep ih =>
      obtain ⟨hu, he, hw⟩ := ih
      obtain ⟨hv, he', hw'⟩ := hstep.based hu
      exact ⟨hv, he.trans he', hw'.trans hw⟩

/-- A vertex of the feasible region in exact arithmetic: the basic solution is a point of it. -/
structure Vertex (t : Tableau ℚ) : Prop where
  exact : t.tol = 0
  unit : t.HasUnitBasis
  nonneg : t.RhsNonneg

theorem Vertex.based (ht : t.Vertex) : t.Based := ⟨ht.exact.ge, ht.unit⟩

theorem Exchanged.rhsNonneg (h : t.Exchanged r j b u) (hn : t.RhsNonneg) (hpos : 0 < b.row.cell j)
    (hratio : ∀ c ∈ t.rows, 0 < c.row.cell j → b.ratio j ≤ c.ratio j) : u.RhsNonneg := by
  have hb : 0 ≤ b.row.rhs / b.row.cell j :=
    div_nonneg (hn b (List.mem_of_getElem? h.row)) hpos.le
  intro c hc
  obtain ⟨k, hk⟩ := List.getElem?_of_mem hc
  rcases h.row_cases hk with ⟨-, rfl⟩ | ⟨-, d, hd, rfl⟩
  · exact hb
  · have hm := List.mem_of_getElem? hd
    have hd0 := hn d hm
    rw [Row.rhs_addScaled, Row.rhs_divide]
    by_cases hj : 0 < d.row.cell j
    · have hle : d.row.cell j * (b.row.rhs / b.row.cell j) ≤ d.row.rhs := by
        have hq := mul_le_mul_of_nonneg_left (hratio d hm hj) hj.le
        rwa [BasicRow.ratio, BasicRow.ratio, mul_div_cancel₀ _ hj.ne'] at hq
      linarith
    -- Without a positive entry a row only gains.
    · have hle := mul_nonneg (neg_nonneg.2 (not_lt.1 hj)) hb
      exact add_nonneg hd0 hle

theorem Advances.vertex (h : t.Advances u) (ht : t.Vertex) : u.Vertex := by
  obtain ⟨r, j, b, hx, -, entry, ratio⟩ := h.exchanged ht.exact.ge
  rw [ht.exact] at entry ratio
  exact ⟨hx.tol.trans ht.exact, (hx.based ht.based).unit, hx.rhsNonneg ht.nonneg entry ratio⟩

theorem vertex_of_reaches (h : Relation.ReflTransGen Advances t u) (ht : t.Vertex) : u.Vertex := by
  induction h with
  | refl => exact ht
  | tail _ hstep ih => exact hstep.vertex ih

end LinProg.Tableau
