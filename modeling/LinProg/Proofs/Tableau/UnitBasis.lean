import LinProg.Proofs.Tableau.Residual

namespace LinProg

theorem Row.residual_move (r : Row ℚ) (x d : ℕ → ℚ) (s : ℚ) :
    r.residual (fun i => x i + s * d i) =
      r.residual x - s * ∑ i ∈ Finset.range r.width, r.cell i * d i := by
  have hs : ∑ i ∈ Finset.range r.width, r.cell i * (x i + s * d i) =
      ∑ i ∈ Finset.range r.width, r.cell i * x i +
        s * ∑ i ∈ Finset.range r.width, r.cell i * d i := by
    rw [Finset.mul_sum, ← Finset.sum_add_distrib]
    exact Finset.sum_congr rfl fun i _ => by ring
  rw [residual, residual, hs]
  ring

namespace Tableau

/-- Column `c` is a unit vector over all rows, with its 1 in constraint row `r`. -/
def UnitIn (t : Tableau ℚ) (r c : ℕ) : Prop :=
  c < t.width ∧ t.objective.cell c = 0 ∧
    ∀ k b, t.rows[k]? = some b → b.row.cell c = if k = r then 1 else 0

def HasUnitBasis (t : Tableau ℚ) : Prop :=
  ∀ r b, t.rows[r]? = some b → ∃ c, b.basic = some c ∧ t.UnitIn r c

def RhsNonneg (t : Tableau ℚ) : Prop := ∀ b ∈ t.rows, 0 ≤ b.row.rhs

def point (t : Tableau ℚ) : ℕ → ℚ := valuation t.assignment

variable {t u : Tableau ℚ} {r j k c : ℕ} {b d : BasicRow ℚ}

theorem Exchanged.hasUnitBasis (h : t.Exchanged r j b u) (h0 : 0 ≤ t.tol)
    (ht : t.HasUnitBasis) : u.HasUnitBasis := by
  have hne := h.entry_ne_zero h0
  have hcell (d : Row ℚ) (hd : d.width = t.width) (i : ℕ) :
      (d.addScaled (-d.cell j) (b.row.divide (b.row.cell j))).cell i =
        d.cell i - d.cell j * (b.row.cell i / b.row.cell j) := by
    rw [Row.cell_addScaled _ _ _ (by rw [hd, Row.width_divide, h.width_row]), Row.cell_divide]
    ring
  have hwidth {m : ℕ} {d : BasicRow ℚ} (hd : t.rows[m]? = some d) : d.row.width = t.width :=
    t.aligned d (List.mem_of_getElem? hd)
  intro k c hc
  rcases h.row_cases hc with ⟨rfl, rfl⟩ | ⟨hk, d, hd, rfl⟩
  · refine ⟨j, rfl, by rw [h.width_eq]; exact h.lt, ?_, ?_⟩
    · rw [h.objective, hcell _ rfl, div_self hne]
      ring
    · intro m c hm
      rcases h.row_cases hm with ⟨rfl, rfl⟩ | ⟨hmr, d, hd, rfl⟩
      · rw [if_pos rfl, Row.cell_divide, div_self hne]
      · rw [if_neg hmr, hcell _ (hwidth hd), div_self hne]
        ring
  · obtain ⟨i, hi, hlt, hobj, hcol⟩ := ht k d hd
    have hb : b.row.cell i = 0 := by
      rw [hcol r b h.row, if_neg (Ne.symm hk)]
    refine ⟨i, hi, by rw [h.width_eq]; exact hlt, ?_, ?_⟩
    · rw [h.objective, hcell _ rfl, hobj, hb]
      ring
    · intro m c hm
      rcases h.row_cases hm with ⟨rfl, rfl⟩ | ⟨-, d', hd', rfl⟩
      · rw [if_neg (Ne.symm hk), Row.cell_divide, hb, zero_div]
      · rw [hcell _ (hwidth hd'), hb, ← hcol m d' hd']
        ring

namespace HasUnitBasis

theorem row_unique (ht : t.HasUnitBasis) (hb : t.rows[r]? = some b) (hd : t.rows[k]? = some d)
    (hbc : b.basic = some c) (hdc : d.basic = some c) : r = k := by
  obtain ⟨c', hc', -, -, hcol⟩ := ht r b hb
  obtain ⟨c'', hc'', -, -, hcol'⟩ := ht k d hd
  rw [hbc] at hc'
  rw [hdc] at hc''
  obtain rfl := Option.some.inj hc'
  obtain rfl := Option.some.inj hc''
  by_contra hne
  have h1 := hcol r b hb
  have h2 := hcol' r b hb
  rw [if_pos rfl] at h1
  rw [if_neg hne, h1] at h2
  exact one_ne_zero h2

theorem unitIn (ht : t.HasUnitBasis) (hb : t.rows[r]? = some b) (hc : b.basic = some c) :
    t.UnitIn r c := by
  obtain ⟨c', hc', h⟩ := ht r b hb
  rw [hc] at hc'
  exact Option.some.inj hc' ▸ h

theorem nodup_basis (ht : t.HasUnitBasis) : t.basis.Nodup := by
  rw [basis, List.nodup_iff_getElem?_ne_getElem?]
  intro i j hij hj he
  rw [List.length_map] at hj
  have hi := List.getElem?_eq_getElem (hij.trans hj)
  have hj := List.getElem?_eq_getElem hj
  obtain ⟨c, hc, -⟩ := ht i _ hi
  rw [List.getElem?_map, List.getElem?_map, hi, hj, Option.map_some, Option.map_some, hc] at he
  exact hij.ne (ht.row_unique hi hj hc (Option.some.inj he).symm)

theorem lt_of_mem_basis (ht : t.HasUnitBasis) (h : some c ∈ t.basis) : c < t.width := by
  obtain ⟨b, hb, hc⟩ := List.mem_map.1 h
  obtain ⟨r, hr⟩ := List.getElem?_of_mem hb
  exact (ht.unitIn hr hc).1

end HasUnitBasis

theorem valuation_set (x : List ℚ) (i : ℕ) (a : ℚ) :
    valuation (x.set i a) j = if i = j ∧ i < x.length then a else valuation x j := by
  simp only [valuation, List.getD_eq_getElem?_getD, List.getElem?_set]
  by_cases hi : i = j
  · subst hi
    by_cases hl : i < x.length <;> simp [hl]
  · simp [hi]

def place {α : Type} (x : List α) (b : BasicRow α) : List α :=
  match b.basic with
  | some c => x.set c b.row.rhs
  | none => x

theorem assignment_eq {α : Type} [Scalar α] (t : Tableau α) :
    t.assignment = t.rows.foldl place (List.replicate t.width 0) := rfl

theorem point_congr (hw : u.width = t.width) (hr : u.rows = t.rows) : u.point = t.point := by
  rw [point, point, assignment_eq, assignment_eq, hw, hr]

theorem length_foldl_place {α : Type} (l : List (BasicRow α)) (x : List α) :
    (l.foldl place x).length = x.length := by
  induction l generalizing x with
  | nil => rfl
  | cons b l ih =>
      rw [List.foldl_cons, ih, place]
      split
      · exact List.length_set
      · rfl

theorem valuation_foldl_place_of_ne {l : List (BasicRow ℚ)} (h : ∀ b ∈ l, b.basic ≠ some j)
    (x : List ℚ) : valuation (l.foldl place x) j = valuation x j := by
  induction l generalizing x with
  | nil => rfl
  | cons b l ih =>
      rw [List.foldl_cons, ih fun d hd => h d (List.mem_cons_of_mem _ hd), place]
      split
      · next c hc =>
          have hcj : c ≠ j := fun he => h b List.mem_cons_self (he ▸ hc)
          rw [valuation_set, if_neg (fun hh => hcj hh.1)]
      · rfl

theorem point_eq_zero (h : ∀ b ∈ t.rows, b.basic ≠ some j) : t.point j = 0 := by
  rw [point, assignment_eq, valuation_foldl_place_of_ne h]
  simp [valuation, List.getD_eq_getElem?_getD, List.getElem?_replicate]
  split <;> rfl

theorem assignment_split {α : Type} [Scalar α] {t : Tableau α} {b : BasicRow α}
    (hb : t.rows[r]? = some b) : t.assignment = (t.rows.drop (r + 1)).foldl place
      (place ((t.rows.take r).foldl place (List.replicate t.width 0)) b) := by
  obtain ⟨hr, hbr⟩ := List.getElem?_eq_some_iff.1 hb
  have hsplit : t.rows = t.rows.take r ++ b :: t.rows.drop (r + 1) := by
    rw [← hbr, List.getElem_cons_drop, List.take_append_drop]
  rw [assignment_eq]
  conv_lhs => rw [hsplit]
  rw [List.foldl_append, List.foldl_cons]

theorem point_basic (ht : t.HasUnitBasis) (hb : t.rows[r]? = some b) (hc : b.basic = some c) :
    t.point c = b.row.rhs := by
  have hlt := (ht.unitIn hb hc).1
  have hrest : ∀ d ∈ t.rows.drop (r + 1), d.basic ≠ some c := by
    intro d hd hdc
    obtain ⟨i, hi⟩ := List.getElem?_of_mem hd
    rw [List.getElem?_drop] at hi
    have := ht.row_unique hb hi hc hdc
    omega
  rw [point, assignment_split hb, valuation_foldl_place_of_ne hrest]
  simp only [place, hc]
  rw [valuation_set, if_pos]
  refine ⟨rfl, ?_⟩
  rw [length_foldl_place, List.length_replicate]
  exact hlt

theorem point_nonneg (ht : t.HasUnitBasis) (hn : t.RhsNonneg) (j : ℕ) : 0 ≤ t.point j := by
  by_cases hj : ∃ b ∈ t.rows, b.basic = some j
  · obtain ⟨b, hm, hb⟩ := hj
    obtain ⟨r, hr⟩ := List.getElem?_of_mem hm
    rw [point_basic ht hr hb]
    exact hn b hm
  · rw [point_eq_zero fun b hm hb => hj ⟨b, hm, hb⟩]

/-- Off its basic column a row meets values that vanish on columns basic nowhere only in zeros. -/
theorem cell_mul_eq_zero (ht : t.HasUnitBasis) (hb : t.rows[r]? = some b)
    (hc : b.basic = some c) (hj : j ≠ c) {a : ℚ} (ha : (∀ d ∈ t.rows, d.basic ≠ some j) → a = 0) :
    b.row.cell j * a = 0 := by
  by_cases hbas : ∃ d ∈ t.rows, d.basic = some j
  · obtain ⟨d, hm, hd⟩ := hbas
    obtain ⟨k, hk⟩ := List.getElem?_of_mem hm
    have hkr : r ≠ k := by
      rintro rfl
      rw [hb] at hk
      obtain rfl := Option.some.inj hk
      rw [hc] at hd
      exact hj (Option.some.inj hd).symm
    rw [(ht.unitIn hk hd).2.2 r b hb, if_neg hkr, zero_mul]
  · rw [ha fun d hm hd => hbas ⟨d, hm, hd⟩, mul_zero]

theorem objective_mul_eq_zero (ht : t.HasUnitBasis) {a : ℚ}
    (ha : (∀ d ∈ t.rows, d.basic ≠ some j) → a = 0) : t.objective.cell j * a = 0 := by
  by_cases hbas : ∃ d ∈ t.rows, d.basic = some j
  · obtain ⟨d, hm, hd⟩ := hbas
    obtain ⟨k, hk⟩ := List.getElem?_of_mem hm
    rw [(ht.unitIn hk hd).2.1, zero_mul]
  · rw [ha fun d hm hd => hbas ⟨d, hm, hd⟩, mul_zero]

theorem solves_point (ht : t.HasUnitBasis) : t.Solves t.point := by
  intro b hm
  obtain ⟨r, hr⟩ := List.getElem?_of_mem hm
  obtain ⟨c, hc, hlt, -, hcol⟩ := ht r b hr
  have hmem : c ∈ Finset.range b.row.width := by
    rw [Finset.mem_range, t.aligned b hm]
    exact hlt
  rw [Row.residual, Finset.sum_eq_single_of_mem c hmem
    fun j _ hj => cell_mul_eq_zero ht hr hc hj point_eq_zero]
  rw [hcol r b hr, if_pos rfl, point_basic ht hr hc]
  ring

/-- The basic solution is the only one that vanishes on all columns that are not basic. -/
theorem eq_point_of_solves {x : ℕ → ℚ} (ht : t.HasUnitBasis) (hx : t.Solves x)
    (h0 : ∀ j, (∀ b ∈ t.rows, b.basic ≠ some j) → x j = 0) : x = t.point := by
  funext j
  by_cases hj : ∃ b ∈ t.rows, b.basic = some j
  · obtain ⟨b, hm, hb⟩ := hj
    obtain ⟨r, hr⟩ := List.getElem?_of_mem hm
    obtain ⟨hlt, -, hcol⟩ := ht.unitIn hr hb
    have hmem : j ∈ Finset.range b.row.width := by
      rw [Finset.mem_range, t.aligned b hm]
      exact hlt
    have hres := hx b hm
    rw [Row.residual, Finset.sum_eq_single_of_mem j hmem
      fun i _ hi => cell_mul_eq_zero ht hr hb hi (h0 i), hcol r b hr, if_pos rfl] at hres
    rw [point_basic ht hr hb]
    linarith
  · have hn : ∀ b ∈ t.rows, b.basic ≠ some j := fun b hm hb => hj ⟨b, hm, hb⟩
    rw [h0 j hn, point_eq_zero hn]

/-- The basic solution stays where the columns that are basic with other values than 0 stay basic. -/
theorem point_eq_of_solves (ht : t.HasUnitBasis) (hu : u.HasUnitBasis) (hs : u.Solves t.point)
    (h : ∀ b ∈ t.rows, ∀ c, b.basic = some c → b.row.rhs ≠ 0 → ∃ d ∈ u.rows, d.basic = some c) :
    u.point = t.point := by
  refine (eq_point_of_solves hu hs fun j hj => ?_).symm
  by_contra hne
  by_cases hb : ∃ b ∈ t.rows, b.basic = some j
  · obtain ⟨b, hm, hb⟩ := hb
    obtain ⟨r, hr⟩ := List.getElem?_of_mem hm
    rw [point_basic ht hr hb] at hne
    obtain ⟨d, hd, hdj⟩ := h b hm j hb hne
    exact hj d hd hdj
  · exact hne (point_eq_zero fun b hm hbj => hb ⟨b, hm, hbj⟩)

theorem length_assignment (t : Tableau ℚ) : t.assignment.length = t.width := by
  rw [assignment_eq, length_foldl_place, List.length_replicate]

theorem assignment_eq_map_point (t : Tableau ℚ) :
    t.assignment = (List.range t.width).map t.point := by
  apply List.ext_getElem
  · simp [length_assignment]
  · intro i hi _
    simp [point, valuation, List.getD_eq_getElem?_getD, hi]

theorem residual_point (ht : t.HasUnitBasis) : t.objective.residual t.point = t.value := by
  rw [Row.residual, Finset.sum_eq_zero fun j _ => objective_mul_eq_zero ht point_eq_zero, sub_zero]
  rfl

end Tableau

end LinProg
