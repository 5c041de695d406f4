import Mathlib.Algebra.BigOperators.Fin
import LinProg.Proofs.Tableau.Verdict

namespace LinProg.Tableau

variable {t : Tableau ℚ} {w : ℕ → ℚ} {a : ℚ} {j : ℕ}

theorem sum_range_eq_sum_rows (ht : t.HasUnitBasis) {f : ℕ → ℚ}
    (hf : ∀ i, (∀ b ∈ t.rows, b.basic ≠ some i) → f i = 0) :
    ∑ i ∈ Finset.range t.width, f i = (t.rows.map fun b => b.basic.elim 0 f).sum := by
  have hget (r : Fin t.rows.length) : t.rows[r.1]? = some t.rows[r.1] :=
    List.getElem?_eq_getElem r.isLt
  choose c hc using fun r : Fin t.rows.length => ht r _ (hget r)
  have hinj : Function.Injective c := fun r k h =>
    Fin.ext (ht.row_unique (hget r) (hget k) (hc r).1 (h ▸ (hc k).1))
  have hsub : Finset.univ.image c ⊆ Finset.range t.width := fun i hi => by
    obtain ⟨r, -, rfl⟩ := Finset.mem_image.1 hi
    exact Finset.mem_range.2 (hc r).2.1
  have hzero : ∀ i ∈ Finset.range t.width, i ∉ Finset.univ.image c → f i = 0 := by
    refine fun i _ hi => hf i fun b hb hbi => hi ?_
    obtain ⟨r, hr, rfl⟩ := List.getElem_of_mem hb
    have hci := (hc ⟨r, hr⟩).1.symm.trans hbi
    exact Finset.mem_image.2 ⟨⟨r, hr⟩, Finset.mem_univ _, Option.some.inj hci⟩
  have hrow (r : Fin t.rows.length) : f (c r) = t.rows[r.1].basic.elim 0 f := by
    rw [(hc r).1, Option.elim_some]
  rw [← Finset.sum_subset hsub hzero, Finset.sum_image hinj.injOn,
    Finset.sum_congr rfl fun r _ => hrow r,
    Fin.sum_univ_fun_getElem t.rows fun b => b.basic.elim 0 f]

theorem sum_mul_ray (ht : t.HasUnitBasis) (hj : j < t.width) (hnb : ∀ b ∈ t.rows, b.basic ≠ some j)
    (w : ℕ → ℚ) : ∑ i ∈ Finset.range t.width, w i * t.ray j i =
      w j - (t.rows.map fun b => b.basic.elim 0 w * b.row.cell j).sum := by
  let f (i : ℕ) : ℚ := if i = j then 0 else w i * t.ray j i
  have hf : ∀ i, (∀ b ∈ t.rows, b.basic ≠ some i) → f i = 0 := fun i hi => by
    simp only [f]
    split
    · rfl
    · next hij => rw [ray_eq_zero hij hi, mul_zero]
  have hrow : ∀ b ∈ t.rows, b.basic.elim 0 f = -(b.basic.elim 0 w * b.row.cell j) := by
    intro b hb
    obtain ⟨r, hr⟩ := List.getElem?_of_mem hb
    obtain ⟨c, hc, -⟩ := ht r b hr
    have hcj : c ≠ j := fun h => hnb b hb (h ▸ hc)
    simp only [f, hc, Option.elim_some, if_neg hcj]
    rw [ray_basic ht hr hc hcj, mul_neg]
  have hsplit : ∀ i ∈ Finset.range t.width, w i * t.ray j i = (if i = j then w j else 0) + f i := by
    intro i _
    simp only [f]
    split
    · next hij => rw [hij, ray_self, mul_one, add_zero]
    · rw [zero_add]
  rw [Finset.sum_congr rfl hsplit, Finset.sum_add_distrib, sum_range_eq_sum_rows ht hf,
    Finset.sum_ite_eq', if_pos (Finset.mem_range.2 hj), List.map_congr_left hrow,
    sub_eq_add_neg, List.sum_neg, List.map_map]
  rfl

/-- Where the objective comes to `a` less what the columns weigh, its coefficient in a column that is
not basic is the weight of the column less that of the basic columns by the rows. -/
theorem cell_objective (ht : t.HasUnitBasis) (hj : j < t.width)
    (hnb : ∀ b ∈ t.rows, b.basic ≠ some j)
    (h : ∀ x, t.Solves x →
      t.objective.residual x = a - ∑ i ∈ Finset.range t.width, w i * x i) :
    t.objective.cell j = w j - (t.rows.map fun b => b.basic.elim 0 w * b.row.cell j).sum := by
  have hmove : t.Solves fun i => t.point i + 1 * t.ray j i := fun b hb => by
    rw [Row.residual_move, sum_row_ray ht hj hnb hb, solves_point ht b hb]
    ring
  have hsum : ∑ i ∈ Finset.range t.width, w i * (t.point i + 1 * t.ray j i) =
      ∑ i ∈ Finset.range t.width, w i * t.point i +
        ∑ i ∈ Finset.range t.width, w i * t.ray j i := by
    rw [← Finset.sum_add_distrib]
    exact Finset.sum_congr rfl fun i _ => by ring
  have hres := h _ hmove
  rw [Row.residual_move, sum_objective_ray ht hj, hsum, h _ (solves_point ht)] at hres
  rw [← sum_mul_ray ht hj hnb]
  linarith

end LinProg.Tableau
