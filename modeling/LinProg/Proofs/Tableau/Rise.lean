import LinProg.Proofs.Tableau.Ascent

namespace LinProg.Tableau

def AdvancesBy (t : Tableau ℚ) (q : ℚ) (u : Tableau ℚ) : Prop :=
  ∃ r j b, t.move = .pivot (r + 1) j ∧ t.rows[r]? = some b ∧ b.ratio j = q ∧
    t.pivot (r + 1) j = .ok u

def basicColumns (t : Tableau ℚ) : Set ℕ := {c | some c ∈ t.basis}

variable {t u v w : Tableau ℚ} {q : ℚ} {r j : ℕ} {b : BasicRow ℚ}

theorem AdvancesBy.advances (h : t.AdvancesBy q u) : t.Advances u := by
  obtain ⟨r, j, b, hm, -, -, hp⟩ := h
  exact ⟨r + 1, j, hm, hp⟩

theorem Advances.exists_ratio (h : t.Advances u) (h0 : 0 ≤ t.tol) : ∃ q, t.AdvancesBy q u := by
  obtain ⟨i, j, hm, hp⟩ := h
  obtain ⟨r, b, rfl, hx⟩ := exchanged_of_pivot h0 hp
  exact ⟨_, r, j, b, hm, hx.row, rfl, hp⟩

theorem Exchanged.value_eq (h : t.Exchanged r j b u) :
    u.value = t.value - t.objective.cell j * b.ratio j := by
  rw [value, h.objective, Row.rhs_addScaled, Row.rhs_divide, BasicRow.ratio, value]
  ring

namespace AdvancesBy

theorem value_eq (h : t.AdvancesBy q u) (ht : t.Vertex) :
    ∃ a < 0, u.value = t.value - a * q ∧ 0 ≤ q := by
  obtain ⟨r, j, b, hm, hb, rfl, hp⟩ := h
  have hx := exchanged_of_row ht.exact.ge hb hp
  have hs := t.shows_move
  rw [hm] at hs
  cases hs with
  | pivot _ neg _ row entry _ =>
      obtain rfl : _ = b := Option.some.inj (row.symm.trans hb)
      rw [ht.exact] at neg entry
      rw [neg_zero] at neg
      exact ⟨_, neg, hx.value_eq, div_nonneg (ht.nonneg _ (List.mem_of_getElem? hb)) entry.le⟩

theorem rises (h : t.AdvancesBy q u) (ht : t.Vertex) :
    q = 0 ∧ u.value = t.value ∨ 0 < q ∧ t.value < u.value := by
  obtain ⟨a, ha, hv, hq⟩ := h.value_eq ht
  rcases hq.eq_or_lt with rfl | hq
  · exact .inl ⟨rfl, by rw [hv, mul_zero, sub_zero]⟩
  · have := mul_neg_of_neg_of_pos ha hq
    exact .inr ⟨hq, by linarith⟩

end AdvancesBy

theorem Advances.value_le (h : t.Advances u) (ht : t.Vertex) : t.value ≤ u.value := by
  obtain ⟨q, hq⟩ := h.exists_ratio ht.exact.ge
  rcases hq.rises ht with ⟨-, he⟩ | ⟨-, hlt⟩
  · exact he.ge
  · exact hlt.le

theorem value_le_of_reaches (h : Relation.ReflTransGen Advances t u) (ht : t.Vertex) :
    t.value ≤ u.value := by
  induction h with
  | refl => exact le_rfl
  | tail hr hstep ih => exact ih.trans (hstep.value_le (vertex_of_reaches hr ht))

/-- The set of basic columns determines the basic solution, and so the value of the objective. -/
theorem value_eq_of_basicColumns (ht : t.HasUnitBasis) (hu : u.HasUnitBasis) (he : t.Equivalent u)
    (hc : t.basicColumns = u.basicColumns) : u.value = t.value := by
  have hsol := solves_point ht
  have hpoint : u.point = t.point := by
    refine point_eq_of_solves ht hu ((he _).1.2 hsol) fun b hb c hbc _ => ?_
    have hm : c ∈ u.basicColumns := hc ▸ List.mem_map.2 ⟨b, hb, hbc⟩
    exact List.mem_map.1 hm
  rw [← residual_point hu, hpoint, (he _).2 hsol, residual_point ht]

/-- Between two visits of the same basic columns the objective cannot have risen. -/
theorem ratio_eq_zero_of_return (ht : t.Vertex) (hu : Relation.ReflTransGen Advances t u)
    (hc : t.basicColumns = u.basicColumns) (htv : Relation.ReflTransGen Advances t v)
    (hvw : v.AdvancesBy q w) (hwu : Relation.ReflTransGen Advances w u) : q = 0 := by
  obtain ⟨hub, he, -⟩ := based_of_reaches hu ht.based
  have hv := vertex_of_reaches htv ht
  have hw := hvw.advances.vertex hv
  rcases hvw.rises hv with ⟨hq, -⟩ | ⟨-, hlt⟩
  · exact hq
  · have heq := value_eq_of_basicColumns ht.unit hub.unit he hc
    have hle := value_le_of_reaches htv ht
    have hle' := value_le_of_reaches hwu hw
    exact absurd heq (hle.trans_lt (hlt.trans_le hle')).ne'

end LinProg.Tableau
