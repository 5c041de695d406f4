import LinProg.Proofs.Expr.Value
import LinProg.Proofs.Tableau.Pivot

namespace LinProg

namespace Row

/-- What is left of the right hand side when the variables take the values `x`. -/
def residual (r : Row ℚ) (x : ℕ → ℚ) : ℚ :=
  r.rhs - ∑ j ∈ Finset.range r.width, r.cell j * x j

variable {r p : Row ℚ} {j : ℕ}

theorem rhs_divide (r : Row ℚ) (d : ℚ) : (r.divide d).rhs = r.rhs / d := rfl

theorem rhs_addScaled (r p : Row ℚ) (k : ℚ) : (r.addScaled k p).rhs = r.rhs + k * p.rhs := rfl

theorem cell_map_range {n : ℕ} (f : ℕ → ℚ) (a : ℚ) (hj : j < n) :
    (⟨(List.range n).map f, a⟩ : Row ℚ).cell j = f j := by
  simp [cell, List.getD_eq_getElem?_getD, hj]

theorem fit_width {α : Type} [Scalar α] (r : Row α) : r.fit r.width = r := by
  ext1
  · apply List.ext_getElem (by simp [fit, width])
    intro i hi hi'
    simp [fit, List.getD_eq_getElem?_getD, hi']
  · rfl

theorem ext_cell {α : Type} {r s : Row α} (hw : r.width = s.width)
    (h : ∀ j ≤ r.width, r.cell j = s.cell j) : r = s := by
  ext1
  · refine List.ext_getElem hw fun j hr hs => ?_
    rw [← Option.some_inj, ← List.getElem?_eq_getElem hr, ← List.getElem?_eq_getElem hs,
      r.getElem?_coeffs hr, s.getElem?_coeffs hs, h j (Nat.le_of_lt hr)]
  · rw [← r.cell_of_le le_rfl, h _ le_rfl, s.cell_of_le hw.ge]

theorem residual_divide (r : Row ℚ) (d : ℚ) (x : ℕ → ℚ) :
    (r.divide d).residual x = r.residual x / d := by
  simp only [residual, width_divide, cell_divide, rhs_divide, sub_div, Finset.sum_div]
  congr 1
  apply Finset.sum_congr rfl
  intro j _
  ring

theorem residual_addScaled (h : r.width = p.width) (k : ℚ) (x : ℕ → ℚ) :
    (r.addScaled k p).residual x = r.residual x + k * p.residual x := by
  simp only [residual, width_addScaled, cell_addScaled r p k h, rhs_addScaled, add_mul,
    Finset.sum_add_distrib, mul_sub, Finset.mul_sum, ← h, mul_assoc]
  ring

theorem set_cell (r : Row ℚ) (hj : j < r.width) : r.set j (r.cell j) = r := by
  have hj : j < r.coeffs.length := hj
  have hg : r.coeffs[j] = r.cell j := Option.some.inj
    ((List.getElem?_eq_getElem hj).symm.trans (r.getElem?_coeffs hj))
  rw [set, ← hg, List.set_getElem_self]

theorem set_divide_one (hj : j < r.width) (h0 : r.cell j ≠ 0) :
    (r.divide (r.cell j)).set j 1 = r.divide (r.cell j) := by
  have hs := set_cell (r.divide (r.cell j)) (j := j) (by rwa [width_divide])
  rwa [cell_divide, div_self h0] at hs

theorem addScaled_zero (r p : Row ℚ) : r.addScaled 0 p = r := by
  have h (xs ys : List ℚ) : LinProg.addScaled 0 xs ys = xs := by
    induction xs generalizing ys with
    | nil => simp [LinProg.addScaled]
    | cons x xs ih => cases ys <;> simp [LinProg.addScaled, ih]
  ext1
  · exact h r.coeffs p.coeffs
  · simp [rhs_addScaled]

/-- In exact arithmetic the entry cleared is 0 already when it is set to 0. -/
theorem clear_eq (h : r.width = p.width) (hj : j < r.width) (hp : p.cell j = 1) :
    r.clear p j = r.addScaled (-r.cell j) p := by
  have hc : (r.addScaled (-r.cell j) p).cell j = 0 := by
    rw [cell_addScaled r p _ h, hp]; ring
  rw [clear]
  split
  · next h0 => rw [beq_iff_eq.1 h0, neg_zero, addScaled_zero]
  · have hs := set_cell (r.addScaled (-r.cell j) p) (j := j) (by simpa using hj)
    rwa [hc] at hs

theorem set_clear (h : r.width = p.width) (hj : j < r.width) (hp : p.cell j = 1) :
    (r.clear p j).set j 0 = r.addScaled (-r.cell j) p := by
  have hc : (r.addScaled (-r.cell j) p).cell j = 0 := by
    rw [cell_addScaled r p _ h, hp]; ring
  rw [clear_eq h hj hp]
  have hs := set_cell (r.addScaled (-r.cell j) p) (j := j) (by simpa using hj)
  rwa [hc] at hs

end Row

namespace Tableau

def Solves (t : Tableau ℚ) (x : ℕ → ℚ) : Prop := ∀ b ∈ t.rows, b.row.residual x = 0

def Equivalent (t u : Tableau ℚ) : Prop :=
  ∀ x, (u.Solves x ↔ t.Solves x) ∧ (t.Solves x → u.objective.residual x = t.objective.residual x)

theorem Equivalent.refl (t : Tableau ℚ) : t.Equivalent t := fun _ => ⟨Iff.rfl, fun _ => rfl⟩

theorem Equivalent.trans {t u v : Tableau ℚ} (h : t.Equivalent u) (k : u.Equivalent v) :
    t.Equivalent v := by
  intro x
  refine ⟨(k x).1.trans (h x).1, fun hx => ?_⟩
  rw [(k x).2 ((h x).1.2 hx), (h x).2 hx]

/-- The tableau `u` has column `j` basic in row `r` of `t`, where `b` stands: that row is divided
by its entry, and the multiples that clear the column are taken off all others. -/
structure Exchanged (t : Tableau ℚ) (r j : ℕ) (b : BasicRow ℚ) (u : Tableau ℚ) : Prop where
  row : t.rows[r]? = some b
  lt : j < t.width
  entry : t.tol < |b.row.cell j|
  tol : u.tol = t.tol
  objective : u.objective =
    t.objective.addScaled (-t.objective.cell j) (b.row.divide (b.row.cell j))
  rows : u.rows = t.rows.mapIdx fun k c =>
    if k = r then ⟨some j, b.row.divide (b.row.cell j)⟩
    else ⟨c.basic, c.row.addScaled (-c.row.cell j) (b.row.divide (b.row.cell j))⟩

variable {t u : Tableau ℚ} {i j r k : ℕ} {b c : BasicRow ℚ}

theorem exchanged_of_pivot (h0 : 0 ≤ t.tol) (h : t.pivot i j = .ok u) :
    ∃ r b, i = r + 1 ∧ t.Exchanged r j b u := by
  obtain ⟨r, b, hb, rfl, hlt, hent, rfl⟩ := pivot_ok h
  rw [scalar_abs, not_le] at hent
  have hne : b.row.cell j ≠ 0 := abs_pos.1 (h0.trans_lt hent)
  have hw := t.aligned b (List.mem_of_getElem? hb)
  have hp1 : (b.row.divide (b.row.cell j)).cell j = 1 := by
    rw [Row.cell_divide, div_self hne]
  have hset := Row.set_divide_one (hw ▸ hlt) hne
  refine ⟨r, b, rfl, hb, hlt, hent, rfl, ?_, ?_⟩
  · simp only [exchange, hset]
    exact Row.set_clear (by rw [Row.width_divide, hw]) hlt hp1
  · simp only [exchange, hset]
    apply List.ext_getElem?
    intro k
    simp only [List.getElem?_mapIdx]
    cases hk : t.rows[k]? with
    | none => rfl
    | some c =>
        have hc := t.aligned c (List.mem_of_getElem? hk)
        have hs := Row.set_clear (r := c.row) (p := b.row.divide (b.row.cell j))
          (by rw [Row.width_divide, hw, hc]) (by rw [hc]; exact hlt) hp1
        simp only [Option.map_some, hs]

theorem exchanged_of_row (h0 : 0 ≤ t.tol) (hb : t.rows[r]? = some b)
    (h : t.pivot (r + 1) j = .ok u) : t.Exchanged r j b u := by
  obtain ⟨r', b', hr, hx⟩ := exchanged_of_pivot h0 h
  obtain rfl : r = r' := Nat.succ.inj hr
  obtain rfl : b = b' := Option.some.inj (hb.symm.trans hx.row)
  exact hx

theorem exists_pivot (hb : t.rows[r]? = some b) (hj : j < t.width)
    (he : t.tol < |b.row.cell j|) : ∃ u, t.pivot (r + 1) j = .ok u := by
  rw [pivot_of_row hb, if_neg (by simpa using ⟨hj, he⟩)]
  exact ⟨_, rfl⟩

namespace Exchanged

theorem entry_ne_zero (h : t.Exchanged r j b u) (h0 : 0 ≤ t.tol) : b.row.cell j ≠ 0 :=
  abs_pos.1 (h0.trans_lt h.entry)

theorem width_row (h : t.Exchanged r j b u) : b.row.width = t.width :=
  t.aligned b (List.mem_of_getElem? h.row)

theorem width_eq (h : t.Exchanged r j b u) : u.width = t.width := by
  rw [width, h.objective, Row.width_addScaled, width]

theorem length_rows (h : t.Exchanged r j b u) : u.rows.length = t.rows.length := by
  rw [h.rows, List.length_mapIdx]

theorem getElem?_self (h : t.Exchanged r j b u) :
    u.rows[r]? = some ⟨some j, b.row.divide (b.row.cell j)⟩ := by
  simp [h.rows, h.row]

theorem getElem?_of_ne (h : t.Exchanged r j b u) (hk : k ≠ r) (hc : t.rows[k]? = some c) :
    u.rows[k]? = some
      ⟨c.basic, c.row.addScaled (-c.row.cell j) (b.row.divide (b.row.cell j))⟩ := by
  simp [h.rows, hc, hk]

theorem row_cases (h : t.Exchanged r j b u) (hc : u.rows[k]? = some c) :
    (k = r ∧ c = ⟨some j, b.row.divide (b.row.cell j)⟩) ∨
    (k ≠ r ∧ ∃ d, t.rows[k]? = some d ∧
      c = ⟨d.basic, d.row.addScaled (-d.row.cell j) (b.row.divide (b.row.cell j))⟩) := by
  by_cases hk : k = r
  · subst hk
    rw [h.getElem?_self] at hc
    exact .inl ⟨rfl, (Option.some.inj hc).symm⟩
  · cases hd : t.rows[k]? with
    | none => simp [h.rows, hd] at hc
    | some d =>
        rw [h.getElem?_of_ne hk hd] at hc
        exact .inr ⟨hk, d, rfl, (Option.some.inj hc).symm⟩

theorem width_of_mem (h : t.Exchanged r j b u) {d : BasicRow ℚ} (hd : d ∈ t.rows) :
    d.row.width = (b.row.divide (b.row.cell j)).width := by
  rw [Row.width_divide, h.width_row, t.aligned d hd, width]

theorem residual_divide_eq_zero {x : ℕ → ℚ} (h : t.Exchanged r j b u) (hx : t.Solves x) :
    (b.row.divide (b.row.cell j)).residual x = 0 := by
  rw [Row.residual_divide, hx b (List.mem_of_getElem? h.row), zero_div]

theorem solves_iff (h : t.Exchanged r j b u) (h0 : 0 ≤ t.tol) (x : ℕ → ℚ) :
    u.Solves x ↔ t.Solves x := by
  constructor
  · intro hu c hc
    obtain ⟨k, hk⟩ := List.getElem?_of_mem hc
    have hb := hu _ (List.mem_of_getElem? h.getElem?_self)
    by_cases hkr : k = r
    · subst hkr
      rw [h.row] at hk
      obtain rfl := Option.some.inj hk
      rw [Row.residual_divide, div_eq_zero_iff] at hb
      exact hb.resolve_right (h.entry_ne_zero h0)
    · have hc' := hu _ (List.mem_of_getElem? (h.getElem?_of_ne hkr hk))
      rwa [Row.residual_addScaled (h.width_of_mem hc), hb, mul_zero, add_zero] at hc'
  · intro ht c hc
    obtain ⟨k, hk⟩ := List.getElem?_of_mem hc
    have hb := h.residual_divide_eq_zero ht
    rcases h.row_cases hk with ⟨-, rfl⟩ | ⟨-, d, hd, rfl⟩
    · exact hb
    · have hd := List.mem_of_getElem? hd
      rw [Row.residual_addScaled (h.width_of_mem hd), hb, mul_zero, add_zero]
      exact ht d hd

theorem equivalent (h : t.Exchanged r j b u) (h0 : 0 ≤ t.tol) : t.Equivalent u := by
  intro x
  refine ⟨h.solves_iff h0 x, fun ht => ?_⟩
  have hw : t.objective.width = (b.row.divide (b.row.cell j)).width := by
    rw [Row.width_divide, h.width_row, width]
  rw [h.objective, Row.residual_addScaled hw, h.residual_divide_eq_zero ht, mul_zero, add_zero]

end Exchanged

end Tableau

end LinProg
