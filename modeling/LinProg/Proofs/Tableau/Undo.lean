import LinProg.Proofs.Tableau.UnitBasis

namespace LinProg

namespace Row

variable {r p : Row ℚ} {d k : ℚ} {c : ℕ}

theorem divide_divide (r : Row ℚ) (hd : d ≠ 0) : (r.divide d).divide (1 / d) = r := by
  refine ext_cell (by rw [width_divide, width_divide]) fun j _ => ?_
  rw [cell_divide, cell_divide, div_div_div_cancel_right₀ hd, div_one]

/-- A multiple of `p / d` taken off a row that has 0 where `p` has 1 leaves in that column what
puts it back. -/
theorem addScaled_addScaled_divide (h : r.width = p.width) (hr : r.cell c = 0) (hp : p.cell c = 1) :
    (r.addScaled k (p.divide d)).addScaled (-(r.addScaled k (p.divide d)).cell c) p = r := by
  have hw : r.width = (p.divide d).width := by rw [width_divide, h]
  refine ext_cell (by rw [width_addScaled, width_addScaled]) fun j _ => ?_
  rw [cell_addScaled _ _ _ (by rw [width_addScaled, h]), cell_addScaled _ _ _ hw,
    cell_addScaled _ _ _ hw, cell_divide, cell_divide, hr, hp]
  ring

end Row

namespace Tableau

variable {t u v : Tableau ℚ} {r j c : ℕ} {b : BasicRow ℚ}

namespace Exchanged

theorem eq (h : t.Exchanged r j b u) (k : t.Exchanged r j b v) (hl : u.labels = v.labels) :
    u = v := by
  ext1
  · exact hl
  · rw [h.objective, k.objective]
  · rw [h.rows, k.rows]
  · rw [h.tol, k.tol]

theorem cell_divide_basic (h : t.Exchanged r j b u) (hc : t.UnitIn r c) :
    (b.row.divide (b.row.cell j)).cell c = 1 / b.row.cell j := by
  rw [Row.cell_divide, hc.2.2 r b h.row, if_pos rfl]

theorem back (h : t.Exchanged r j b u) (h0 : 0 ≤ t.tol) (hb : b.basic = some c)
    (hc : t.UnitIn r c) (he : t.tol < |1 / b.row.cell j|) :
    u.Exchanged r c ⟨some j, b.row.divide (b.row.cell j)⟩ t := by
  have ⟨hlt, hobj, hcol⟩ := hc
  have hentry := h.cell_divide_basic hc
  have hback : (b.row.divide (b.row.cell j)).divide ((b.row.divide (b.row.cell j)).cell c) =
      b.row := by rw [hentry, Row.divide_divide _ (h.entry_ne_zero h0)]
  have hone : b.row.cell c = 1 := by rw [hcol r b h.row, if_pos rfl]
  refine ⟨h.getElem?_self, by rwa [h.width_eq], by rwa [h.tol, hentry], h.tol.symm, ?_, ?_⟩
  · rw [hback, h.objective]
    exact (Row.addScaled_addScaled_divide h.width_row.symm hobj hone).symm
  · rw [hback]
    refine List.ext_getElem? fun k => ?_
    rw [List.getElem?_mapIdx]
    by_cases hk : k = r
    · rw [hk, h.getElem?_self, h.row, Option.map_some, if_pos rfl, ← hb]
    · cases hd : t.rows[k]? with
      | none => simp [h.rows, hd]
      | some d =>
          have hw : d.row.width = b.row.width := by
            rw [h.width_row, t.aligned d (List.mem_of_getElem? hd), width]
          have hzero : d.row.cell c = 0 := by rw [hcol k d hd, if_neg hk]
          rw [h.getElem?_of_ne hk hd, Option.map_some, if_neg hk]
          dsimp only
          rw [Row.addScaled_addScaled_divide hw hzero hone]

end Exchanged

/-- A pivot is undone by pivoting the column that was basic back into its row. It has the reciprocal
of the entry there, and only where that counts as 0 the way back is refused. -/
theorem pivot_back (h0 : 0 ≤ t.tol) (hr : t.rows[r]? = some b) (hb : b.basic = some c)
    (hc : t.UnitIn r c) (h : t.pivot (r + 1) j = .ok u) :
    (t.tol < |1 / b.row.cell j| → u.pivot (r + 1) c = .ok t) ∧
    (|1 / b.row.cell j| ≤ t.tol → u.pivot (r + 1) c = .error (.invalidPivot (r + 1) c)) := by
  have hx := exchanged_of_row h0 hr h
  have hentry := hx.cell_divide_basic hc
  constructor
  · intro he
    have hback := hx.back h0 hb hc he
    obtain ⟨v, hv⟩ := exists_pivot hback.row hback.lt hback.entry
    have hl := (labels_of_pivot hv).trans (labels_of_pivot h)
    rw [hv, (exchanged_of_row (hx.tol ▸ h0) hback.row hv).eq hback hl]
  · intro he
    rw [pivot_of_row hx.getElem?_self, if_pos]
    exact .inr (by rwa [hentry, scalar_abs, hx.tol])

def paired (tol : ℚ) : Tableau ℚ where
  labels := ["x", "s", "w"]
  objective := ⟨[-1, 0, 0], 0⟩
  rows := [⟨some 1, ⟨[2, 1, 0], 8⟩⟩, ⟨some 2, ⟨[-1, 0, 1], 3⟩⟩]
  tol := tol
  aligned := by simp [Row.width]

theorem forall_getElem?_pair {α : Type} {a b : α} {P : ℕ → α → Prop} :
    (∀ k c, [a, b][k]? = some c → P k c) ↔ P 0 a ∧ P 1 b := by
  constructor
  · intro h
    exact ⟨h 0 a rfl, h 1 b rfl⟩
  · rintro ⟨ha, hb⟩ k c hc
    match k with
    | 0 => exact Option.some.inj hc ▸ ha
    | 1 => exact Option.some.inj hc ▸ hb

theorem hasUnitBasis_paired (tol : ℚ) : (paired tol).HasUnitBasis := by
  refine forall_getElem?_pair.2 ⟨⟨1, rfl, ?_⟩, 2, rfl, ?_⟩
  · exact ⟨by simp [paired, width, Row.width], rfl, forall_getElem?_pair.2 ⟨rfl, rfl⟩⟩
  · exact ⟨by simp [paired, width, Row.width], rfl, forall_getElem?_pair.2 ⟨rfl, rfl⟩⟩

theorem pivot_back_paired : (∃ u, (paired 0).pivot 1 0 = .ok u ∧ u.pivot 1 1 = .ok (paired 0)) ∧
    ∃ u, (paired 1).pivot 1 0 = .ok u ∧ u.pivot 1 1 = .error (.invalidPivot 1 1) := by
  have hsome (tol : ℚ) (h : tol < 2) : ∃ u, (paired tol).pivot 1 0 = .ok u := by
    refine exists_pivot rfl (by simp [paired, width, Row.width]) ?_
    simpa [paired, Row.cell] using h
  have hunit (tol : ℚ) : (paired tol).UnitIn 0 1 := (hasUnitBasis_paired tol).unitIn rfl rfl
  constructor
  · obtain ⟨u, hu⟩ := hsome 0 two_pos
    refine ⟨u, hu, (pivot_back le_rfl rfl rfl (hunit 0) hu).1 ?_⟩
    simp [paired, Row.cell]
  · obtain ⟨u, hu⟩ := hsome 1 one_lt_two
    refine ⟨u, hu, (pivot_back zero_le_one rfl rfl (hunit 1) hu).2 ?_⟩
    norm_num [paired, Row.cell]

end Tableau

end LinProg
