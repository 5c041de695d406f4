import LinProg.Proofs.Program.Completion
import LinProg.Proofs.Program.Rows
import LinProg.Proofs.Tableau.Detect

namespace LinProg

namespace Row

variable {e : LinExpr ℚ} {j n : ℕ}

theorem cell_dense (e : LinExpr ℚ) (b : ℚ) (hj : j < n) :
    (⟨e.dense n, b⟩ : Row ℚ).cell j = e.coeffAt j := by
  rw [LinExpr.dense_eq, cell_map_range _ b hj]

theorem residual_dense (he : e.Within n) (b : ℚ) (x : ℕ → ℚ) :
    (⟨e.dense n, b⟩ : Row ℚ).residual x = b + e.constant - e.value x := by
  have hs : ∑ j ∈ Finset.range n, (⟨e.dense n, b⟩ : Row ℚ).cell j * x j =
      ∑ j ∈ Finset.range n, e.coeffAt j * x j :=
    Finset.sum_congr rfl fun j hj => by rw [cell_dense e b (Finset.mem_range.1 hj)]
  rw [residual, width_dense, hs, LinExpr.value_eq_sum he]
  ring

end Row

namespace Tableau

/-- The tableau states the equations of `q`, and its objective row the objective `o`. -/
structure Depicts (t : Tableau ℚ) (q : Program ℚ) (o : Objective ℚ) : Prop where
  width : t.width = q.vars.length
  solves : ∀ x, t.Solves x ↔ ∀ c ∈ q.constraints, c.gap x = 0
  objective : ∀ x, t.Solves x → t.objective.residual x = o.expr.value x

theorem Depicts.of_equivalent {t u : Tableau ℚ} {q : Program ℚ} {o : Objective ℚ}
    (h : t.Depicts q o) (he : t.Equivalent u) (hw : u.width = t.width) : u.Depicts q o := by
  refine ⟨hw.trans h.width, fun x => (he x).1.trans (h.solves x), fun x hx => ?_⟩
  have ht := (he x).1.1 hx
  rw [(he x).2 ht, h.objective x ht]

/-- Over a unit basis the objective row stands for `o` wherever the equations of the tableau hold,
be they those of `q` or not. -/
structure Prices (t : Tableau ℚ) (q : Program ℚ) (o : Objective ℚ) : Prop extends t.Based where
  width : t.width = q.vars.length
  objective : ∀ x, t.Solves x → t.objective.residual x = o.expr.value x

theorem Prices.of_reaches {t u : Tableau ℚ} {q : Program ℚ} {o : Objective ℚ} (h : t.Prices q o)
    (hr : Relation.ReflTransGen Advances t u) : u.Prices q o := by
  obtain ⟨hb, he, hw⟩ := based_of_reaches hr h.toBased
  refine ⟨hb, hw.trans h.width, fun x hx => ?_⟩
  have ht := (he x).1.1 hx
  rw [(he x).2 ht, h.objective x ht]

theorem Prices.value_eq {t : Tableau ℚ} {q : Program ℚ} {o : Objective ℚ} (h : t.Prices q o) :
    t.value = o.expr.value t.point := by
  rw [← residual_point h.unit, h.objective _ (solves_point h.unit)]

end Tableau

namespace Program

variable {p q : Program ℚ} {o : Objective ℚ} {k : Canonical ℚ} {added : List (Var × ℕ)}
variable {x : ℕ → ℚ} {j m r : ℕ}

theorem getElem?_rows {row : Row ℚ} (h : q.rows[r]? = some row) :
    ∃ c, q.constraints[r]? = some c ∧ row = ⟨c.expr.dense q.vars.length, c.bound⟩ := by
  rw [rows, List.getElem?_map, Option.map_eq_some_iff] at h
  obtain ⟨c, hc, rfl⟩ := h
  exact ⟨c, hc, rfl⟩

namespace Standard

theorem rhs_nonneg (hq : q.Standard) : ∀ row ∈ q.rows, 0 ≤ row.rhs := by
  intro row hr
  obtain ⟨c, hc, rfl⟩ := List.mem_map.1 hr
  exact hq.bound c hc

theorem residual_rows_iff (hq : q.Standard) :
    (∀ row ∈ q.rows, row.residual x = 0) ↔ ∀ c ∈ q.constraints, c.gap x = 0 := by
  rw [rows, List.forall_mem_map]
  apply forall_congr'
  intro c
  apply forall_congr'
  intro hc
  rw [Row.residual_dense (hq.within c hc), hq.constant c hc, add_zero]
  exact Iff.rfl

end Standard

theorem objectiveRow_eq (ho : q.objective = some o) :
    q.objectiveRow = ⟨(-o.expr).dense q.vars.length, o.expr.constant⟩ := by
  rw [objectiveRow, ho]

theorem residual_objectiveRow (ho : q.objective = some o) (he : o.expr.Within q.vars.length) :
    q.objectiveRow.residual x = o.expr.value x := by
  have hn : (-o.expr).Within q.vars.length := by
    intro a ha
    obtain ⟨b, hb, rfl⟩ := List.mem_map.1 ha
    exact he b hb
  have hv : (-o.expr).value x = -o.expr.value x := by
    change (o.expr.scale (-1)).value x = _
    rw [LinExpr.value_scale]
    ring
  have hc : (-o.expr).constant = -o.expr.constant := mul_neg_one _
  rw [objectiveRow_eq ho, Row.residual_dense hn, hv, hc]
  ring

theorem cell_objectiveRow (ho : q.objective = some o) (hj : j < q.vars.length) :
    q.objectiveRow.cell j = -o.expr.coeffAt j := by
  rw [objectiveRow_eq ho, Row.cell_dense _ _ hj, LinExpr.coeffAt_neg]

section Subtract

variable {rows : List (Row ℚ)} {z : Row ℚ} {l : List (Var × ℕ)}

theorem residual_foldl_subtractRow (hw : ∀ row ∈ rows, row.width = z.width)
    (hx : ∀ row ∈ rows, row.residual x = 0) :
    (l.foldl (subtractRow rows) z).residual x = z.residual x := by
  induction l generalizing z with
  | nil => rfl
  | cons a l ih =>
      rw [List.foldl_cons, ih (by simpa only [width_subtractRow] using hw)]
      rw [subtractRow]
      cases hr : rows[a.2]? with
      | none => rfl
      | some row =>
          have hm := List.mem_of_getElem? hr
          rw [Option.elim_some, Row.residual_addScaled (hw row hm).symm, hx row hm, mul_zero,
            add_zero]

theorem cell_foldl_subtractRow_of_ne (hw : ∀ row ∈ rows, row.width = z.width)
    (hcol : ∀ k row, rows[k]? = some row → row.cell j = if k = m then 1 else 0)
    (hl : ∀ a ∈ l, a.2 ≠ m) : (l.foldl (subtractRow rows) z).cell j = z.cell j := by
  induction l generalizing z with
  | nil => rfl
  | cons a l ih =>
      have ha := hl a List.mem_cons_self
      rw [List.foldl_cons, ih (by simpa only [width_subtractRow] using hw)
        fun b hb => hl b (List.mem_cons_of_mem a hb)]
      rw [subtractRow]
      cases hr : rows[a.2]? with
      | none => rfl
      | some row =>
          rw [Option.elim_some, Row.cell_addScaled _ _ _ (hw row (List.mem_of_getElem? hr)).symm,
            hcol _ _ hr, if_neg ha]
          ring

theorem cell_foldl_subtractRow_of_mem (hw : ∀ row ∈ rows, row.width = z.width)
    (hcol : ∀ k row, rows[k]? = some row → row.cell j = if k = m then 1 else 0)
    (hm : m < rows.length) {a : Var × ℕ} (ha : a ∈ l) (ham : a.2 = m)
    (hnd : (l.map (·.2)).Nodup) : (l.foldl (subtractRow rows) z).cell j = z.cell j - 1 := by
  obtain ⟨as, bs, rfl⟩ := List.append_of_mem ha
  have hsplit : (∀ b ∈ as, b.2 ≠ m) ∧ ∀ b ∈ bs, b.2 ≠ m := by
    rw [List.map_append, List.map_cons, List.nodup_append, List.nodup_cons] at hnd
    obtain ⟨-, ⟨hbs, -⟩, has⟩ := hnd
    subst ham
    constructor
    · intro b hb
      exact has b.2 (List.mem_map_of_mem hb) a.2 List.mem_cons_self
    · intro b hb he
      exact hbs (he ▸ List.mem_map_of_mem hb)
  have hwas : ∀ row ∈ rows, row.width = (as.foldl (subtractRow rows) z).width := by
    simpa only [width_foldl_subtractRow] using hw
  have hr := List.getElem?_eq_getElem hm
  rw [List.foldl_append, List.foldl_cons, cell_foldl_subtractRow_of_ne
    (by simpa only [width_subtractRow] using hwas) hcol hsplit.2]
  have hstep : subtractRow rows (as.foldl (subtractRow rows) z) a =
      (as.foldl (subtractRow rows) z).addScaled (-1) rows[m] := by
    rw [subtractRow, ham, hr, Option.elim_some]
  rw [hstep, Row.cell_addScaled _ _ _ (hwas _ (List.getElem_mem hm)).symm,
    cell_foldl_subtractRow_of_ne hw hcol hsplit.1, hcol m _ hr, if_pos rfl]
  ring

end Subtract

theorem cell_artificialRow (added : List (Var × ℕ)) (hj : j < q.vars.length) :
    (q.artificialRow added).cell j = if added.any (·.1.index == j) then 1 else 0 :=
  Row.cell_map_range _ 0 hj

theorem residual_phaseOneRow (hx : ∀ row ∈ q.rows, row.residual x = 0) (added : List (Var × ℕ)) :
    (q.phaseOneRow added).residual x =
      -∑ j ∈ Finset.range q.vars.length, (if added.any (·.1.index == j) then 1 else 0) * x j := by
  have hs : ∑ j ∈ Finset.range q.vars.length, (q.artificialRow added).cell j * x j =
      ∑ j ∈ Finset.range q.vars.length, (if added.any (·.1.index == j) then 1 else 0) * x j :=
    Finset.sum_congr rfl fun j hj => by rw [cell_artificialRow added (Finset.mem_range.1 hj)]
  have hw : ∀ row ∈ q.rows, row.width = (q.artificialRow added).width := by
    rw [width_artificialRow]
    exact width_of_mem_rows
  rw [phaseOneRow_eq, residual_foldl_subtractRow hw hx, Row.residual, width_artificialRow, hs]
  exact zero_sub _

theorem residual_phaseOneRow_nonpos (hx : ∀ row ∈ q.rows, row.residual x = 0)
    (hn : ∀ j, 0 ≤ x j) (added : List (Var × ℕ)) : (q.phaseOneRow added).residual x ≤ 0 := by
  rw [residual_phaseOneRow hx]
  refine neg_nonpos.2 (Finset.sum_nonneg fun j _ => mul_nonneg ?_ (hn j))
  split
  · exact zero_le_one
  · exact le_rfl

theorem residual_phaseOneRow_eq_zero (hx : ∀ row ∈ q.rows, row.residual x = 0)
    (hz : ∀ e ∈ added, x e.1.index = 0) : (q.phaseOneRow added).residual x = 0 := by
  rw [residual_phaseOneRow hx, neg_eq_zero]
  refine Finset.sum_eq_zero fun j _ => ?_
  split
  · next hj =>
      obtain ⟨e, he, hej⟩ := List.any_eq_true.1 hj
      rw [← beq_iff_eq.1 hej, hz e he, mul_zero]
  · rw [zero_mul]

theorem residual_phaseOneRow_neg (hx : ∀ row ∈ q.rows, row.residual x = 0)
    (hn : ∀ j, 0 ≤ x j) {e : Var × ℕ} (he : e ∈ added) (hlt : e.1.index < q.vars.length)
    (hpos : 0 < x e.1.index) : (q.phaseOneRow added).residual x < 0 := by
  have hany : added.any (·.1.index == e.1.index) = true :=
    List.any_eq_true.2 ⟨e, he, beq_self_eq_true _⟩
  rw [residual_phaseOneRow hx, neg_neg_iff_pos]
  refine Finset.sum_pos' (fun j _ => mul_nonneg ?_ (hn j)) ⟨_, Finset.mem_range.2 hlt, ?_⟩
  · split
    · exact zero_le_one
    · exact le_rfl
  · rw [if_pos hany, one_mul]
    exact hpos

theorem cell_rows_of_coeffAt (hj : j < q.vars.length)
    (hcol : ∀ i d, q.constraints[i]? = some d → d.expr.coeffAt j = if i = m then 1 else 0) :
    ∀ i row, q.rows[i]? = some row → row.cell j = if i = m then 1 else 0 := by
  intro i row hi
  obtain ⟨c, hc, rfl⟩ := getElem?_rows hi
  rw [Row.cell_dense _ _ hj, hcol i c hc]

theorem Standard.solves_tableau (hq : q.Standard) (tol : ℚ) :
    (q.tableau tol).Solves x ↔ ∀ c ∈ q.constraints, c.gap x = 0 := by
  rw [tableau, Tableau.solves_ofRows, hq.residual_rows_iff]
  rw [width_objectiveRow]
  exact width_of_mem_rows

theorem solves_phaseOneTableau (q : Program ℚ) (added : List (Var × ℕ)) (tol : ℚ) :
    (q.phaseOneTableau added tol).Solves x ↔ ∀ row ∈ q.rows, row.residual x = 0 := by
  rw [phaseOneTableau, Tableau.solves_ofRows]
  rw [width_phaseOneRow]
  exact width_of_mem_rows

theorem HasCanonical.residual_objectiveRow (h : p.HasCanonical o k) (hp : p.Valid)
    (ho : p.objective = some o) (x : ℕ → ℚ) :
    k.program.objectiveRow.residual x = o.simplify.orient.expr.value x :=
  Program.residual_objectiveRow h.objective ((HasCanonical.within_objective hp ho).mono h.length_le)

theorem HasCanonical.depicts_tableau (h : p.HasCanonical o k) (hp : p.Valid)
    (ho : p.objective = some o) (tol : ℚ) :
    (k.program.tableau tol).Depicts k.program o.simplify.orient where
  width := width_objectiveRow _
  solves _ := (h.standard hp).solves_tableau tol
  objective x _ := h.residual_objectiveRow hp ho x

theorem HasCanonical.lastUnit_slack (h : p.HasCanonical o k) (hp : p.Valid)
    (ho : p.objective = some o) {e : Var × ℕ} (he : e ∈ k.slacks) :
    Tableau.LastUnit k.program.objectiveRow k.program.rows e.2 e.1.index := by
  have hw := width_objectiveRow k.program
  have hlt := h.slack_lt he
  refine ⟨hw ▸ hlt.2, ?_, ?_, fun row hr j hj hjw => ?_⟩
  · rw [cell_objectiveRow h.objective hlt.2,
      LinExpr.coeffAt_of_le (HasCanonical.within_objective hp ho) hlt.1, neg_zero]
  · exact cell_rows_of_coeffAt hlt.2 fun i d hd => h.coeffAt_slack hp he hd
  · obtain ⟨d, hd, rfl⟩ := getElem?_rows hr
    rw [hw] at hjw
    rw [Row.cell_dense _ _ hjw]
    exact h.coeffAt_nonpos_of_slack_lt hp he hj hjw hd

theorem HasCanonical.hasUnitBasis_tableau (h : p.HasCanonical o k) (hp : p.Valid)
    (ho : p.objective = some o) (hn : k.needsPhaseOne = false) {tol : ℚ} (h0 : 0 ≤ tol)
    (h1 : tol < 1) : (k.program.tableau tol).HasUnitBasis := by
  have hw := (width_objectiveRow k.program).symm ▸ width_of_mem_rows
  refine Tableau.hasUnitBasis_ofRows h0 h1 hw fun r hr => ?_
  obtain ⟨e, he, rfl⟩ := h.exists_slack hn (k.program.length_rows ▸ hr)
  exact ⟨_, h.lastUnit_slack hp ho he⟩

theorem Standard.rhsNonneg_tableau (hq : q.Standard) (tol : ℚ) : (q.tableau tol).RhsNonneg :=
  Tableau.rhsNonneg_ofRows ((width_objectiveRow q).symm ▸ width_of_mem_rows) hq.rhs_nonneg

theorem Standard.rhsNonneg_phaseOneTableau (hq : q.Standard) (added : List (Var × ℕ)) (tol : ℚ) :
    (q.phaseOneTableau added tol).RhsNonneg :=
  Tableau.rhsNonneg_ofRows ((q.width_phaseOneRow added).symm ▸ width_of_mem_rows) hq.rhs_nonneg

theorem HasCanonical.vertex_tableau (h : p.HasCanonical o k) (hp : p.Valid)
    (ho : p.objective = some o) (hn : k.needsPhaseOne = false) : (k.program.tableau 0).Vertex where
  exact := rfl
  unit := h.hasUnitBasis_tableau hp ho hn le_rfl zero_lt_one
  nonneg := (h.standard hp).rhsNonneg_tableau 0

end Program

namespace Canonical.HasArtificials

variable {p q : Program ℚ} {o : Objective ℚ} {k : Canonical ℚ} {added : List (Var × ℕ)}

theorem width_of_mem_rows (q : Program ℚ) (added : List (Var × ℕ)) :
    ∀ row ∈ q.rows, row.width = (q.artificialRow added).width := by
  rw [Program.width_artificialRow]
  exact Program.width_of_mem_rows

theorem slack_lt (h : k.HasArtificials q added) (hk : p.HasCanonical o k) {e : Var × ℕ}
    (he : e ∈ k.slacks) : e.1.index < q.vars.length := by
  have hlt := (hk.slack_lt he).2
  rw [h.length_vars]
  omega

theorem cell_phaseOneRow_slack (h : k.HasArtificials q added) (hk : p.HasCanonical o k)
    (hp : p.Valid) {e : Var × ℕ} (he : e ∈ k.slacks) :
    (q.phaseOneRow added).cell e.1.index = 0 := by
  have hlt := h.slack_lt hk he
  have hcol := Program.cell_rows_of_coeffAt hlt fun i d hd => h.coeffAt_slack hk hp he hd
  have hnot : ¬ added.any (·.1.index == e.1.index) = true := by
    intro hany
    obtain ⟨f, hf, hfe⟩ := List.any_eq_true.1 hany
    have hi := (h.entered.index_lt f hf).1
    have hi' := (hk.slack_lt he).2
    have heq := beq_iff_eq.1 hfe
    omega
  rw [Program.phaseOneRow_eq, Program.cell_foldl_subtractRow_of_ne (width_of_mem_rows q added) hcol
    fun f hf => (h.row_ne he hf).symm, Program.cell_artificialRow added hlt, if_neg hnot]

theorem cell_phaseOneRow_artificial (h : k.HasArtificials q added) (hs : k.program.Standard)
    {e : Var × ℕ} (he : e ∈ added) (hr : e.2 < q.rows.length) :
    (q.phaseOneRow added).cell e.1.index = 0 := by
  have hlt := h.artificial_lt he
  have hcol := Program.cell_rows_of_coeffAt hlt fun i d hd => h.coeffAt_artificial hs he hd
  have hany : added.any (·.1.index == e.1.index) = true :=
    List.any_eq_true.2 ⟨e, he, beq_self_eq_true _⟩
  rw [Program.phaseOneRow_eq, Program.cell_foldl_subtractRow_of_mem (width_of_mem_rows q added)
    hcol hr he rfl h.entered.nodup_rows, Program.cell_artificialRow added hlt, if_pos hany, sub_self]

theorem lastUnit_slack (h : k.HasArtificials q added) (hk : p.HasCanonical o k) (hp : p.Valid)
    {e : Var × ℕ} (he : e ∈ k.slacks) :
    Tableau.LastUnit (q.phaseOneRow added) q.rows e.2 e.1.index := by
  have hw := q.width_phaseOneRow added
  have hlt := h.slack_lt hk he
  refine ⟨hw ▸ hlt, h.cell_phaseOneRow_slack hk hp he, ?_, fun row hr j hj hjw => ?_⟩
  · exact Program.cell_rows_of_coeffAt hlt fun i d hd => h.coeffAt_slack hk hp he hd
  · obtain ⟨d, hd, rfl⟩ := Program.getElem?_rows hr
    rw [hw] at hjw
    rw [Row.cell_dense _ _ hjw]
    exact h.coeffAt_nonpos_of_slack_lt hk hp he hj hjw hd

theorem lastUnit_artificial (h : k.HasArtificials q added) (hs : k.program.Standard)
    {e : Var × ℕ} (he : e ∈ added) :
    Tableau.LastUnit (q.phaseOneRow added) q.rows e.2 e.1.index := by
  have hw := q.width_phaseOneRow added
  have hlt := h.artificial_lt he
  have hrow : e.2 < q.rows.length := q.length_rows.symm ▸ h.row_lt he
  refine ⟨hw ▸ hlt, h.cell_phaseOneRow_artificial hs he hrow, ?_, fun row hr j hj hjw => ?_⟩
  · exact Program.cell_rows_of_coeffAt hlt fun i d hd => h.coeffAt_artificial hs he hd
  · obtain ⟨d, hd, rfl⟩ := Program.getElem?_rows hr
    rw [hw] at hjw
    rw [Row.cell_dense _ _ hjw, h.coeffAt_eq_zero_of_artificial_lt hs he hj hjw hd]

/-- Phase one starts from the slacks and the artificial variables. -/
theorem hasUnitBasis_phaseOneTableau (h : k.HasArtificials q added) (hk : p.HasCanonical o k)
    (hp : p.Valid) {tol : ℚ} (h0 : 0 ≤ tol) (h1 : tol < 1) :
    (q.phaseOneTableau added tol).HasUnitBasis := by
  have hw := (q.width_phaseOneRow added).symm ▸ Program.width_of_mem_rows
  refine Tableau.hasUnitBasis_ofRows h0 h1 hw fun r hr => ?_
  rcases h.exists_entry (q.length_rows ▸ hr) with ⟨e, he, rfl⟩ | ⟨e, he, rfl⟩
  · exact ⟨_, h.lastUnit_slack hk hp he⟩
  · exact ⟨_, h.lastUnit_artificial (hk.standard hp) he⟩

theorem vertex_phaseOneTableau (h : k.HasArtificials q added) (hk : p.HasCanonical o k)
    (hp : p.Valid) : (q.phaseOneTableau added 0).Vertex where
  exact := rfl
  unit := h.hasUnitBasis_phaseOneTableau hk hp le_rfl zero_lt_one
  nonneg := (h.standard (hk.standard hp)).rhsNonneg_phaseOneTableau added 0

end Canonical.HasArtificials

end LinProg
