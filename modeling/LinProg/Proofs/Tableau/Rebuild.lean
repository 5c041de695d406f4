import LinProg.Proofs.Tableau.UnitBasis

namespace LinProg

namespace Row

def select (r : Row ℚ) (l : List ℕ) : Row ℚ := ⟨l.map r.cell, r.rhs⟩

theorem cell_select (r : Row ℚ) {l : List ℕ} {i c : ℕ} (h : l[i]? = some c) :
    (r.select l).cell i = r.cell c := by
  simp [select, cell, List.getD_eq_getElem?_getD, h]

theorem residual_select_range (r : Row ℚ) {n : ℕ} (hn : n ≤ r.width) (y : ℕ → ℚ) :
    (r.select (List.range n)).residual y = r.residual fun j => if j < n then y j else 0 := by
  have hwidth : (r.select (List.range n)).width = n := by simp [select, width]
  have hsub : Finset.range n ⊆ Finset.range r.width := Finset.range_subset_range.2 hn
  have hs : ∑ j ∈ Finset.range n, (r.select (List.range n)).cell j * y j =
      ∑ j ∈ Finset.range r.width, r.cell j * if j < n then y j else 0 := by
    rw [← Finset.sum_subset hsub]
    · apply Finset.sum_congr rfl
      intro j hj
      rw [select, cell_map_range _ _ (Finset.mem_range.1 hj), if_pos (Finset.mem_range.1 hj)]
    · intro j _ hj
      rw [if_neg (by simpa using hj), mul_zero]
  rw [residual, hwidth, hs]
  rfl

end Row

namespace Tableau

variable {t : Tableau ℚ} {r k c j : ℕ} {b : BasicRow ℚ} {x : ℕ → ℚ}

theorem getElem?_removeRow {α : Type} (t : Tableau α) (r k : ℕ) :
    (t.removeRow r).rows[k]? = t.rows[if k < r then k else k + 1]? := by
  rw [removeRow, List.getElem?_eraseIdx]
  split <;> rfl

theorem HasUnitBasis.removeRow (h : t.HasUnitBasis) (r : ℕ) : (t.removeRow r).HasUnitBasis := by
  intro k b hb
  rw [getElem?_removeRow] at hb
  obtain ⟨c, hc, hlt, hobj, hcol⟩ := h _ b hb
  refine ⟨c, hc, hlt, hobj, fun m d hd => ?_⟩
  rw [getElem?_removeRow] at hd
  rw [hcol _ d hd]
  congr 1
  refine propext ⟨fun he => ?_, fun he => by rw [he]⟩
  split at he <;> split at he <;> omega

theorem mem_removeRow {d : BasicRow ℚ} (hb : t.rows[r]? = some b) (hd : d ∈ t.rows)
    (hne : d ≠ b) : d ∈ (t.removeRow r).rows := by
  obtain ⟨k, hk⟩ := List.getElem?_of_mem hd
  have hkr : k ≠ r := by
    rintro rfl
    exact hne (Option.some.inj (hk.symm.trans hb))
  rcases Nat.lt_or_gt_of_ne hkr with hlt | hgt
  · refine List.mem_of_getElem? (i := k) ?_
    rw [getElem?_removeRow, if_pos hlt, hk]
  · refine List.mem_of_getElem? (i := k - 1) ?_
    rw [getElem?_removeRow, if_neg (by omega), Nat.sub_add_cancel (by omega), hk]

theorem solves_removeRow (hb : t.rows[r]? = some b) (hx : b.row.residual x = 0) :
    (t.removeRow r).Solves x ↔ t.Solves x := by
  constructor
  · intro h d hd
    by_cases hdb : d = b
    · rw [hdb, hx]
    · exact h d (mem_removeRow hb hd hdb)
  · intro h d hd
    exact h d (List.mem_of_mem_eraseIdx hd)

def kept (t : Tableau ℚ) (cols : List ℕ) : List ℕ :=
  (List.range t.width).filter fun j => !cols.contains j

variable {cols : List ℕ} {labels : List String}

theorem filter_range_eq {n m : ℕ} (hcols : ∀ j, j ∈ cols ↔ n ≤ j ∧ j < n + m) :
    ((List.range (n + m)).filter fun j => !cols.contains j) = List.range n := by
  have hleft : ∀ j ∈ List.range n, (!cols.contains j) = true := by
    intro j hj
    have hlt := List.mem_range.1 hj
    simp only [List.contains_eq_mem, Bool.not_eq_true', decide_eq_false_iff_not, hcols]
    omega
  have hright : ∀ j ∈ (List.range m).map (n + ·), ¬ (!cols.contains j) = true := by
    intro j hj
    obtain ⟨i, hi, rfl⟩ := List.mem_map.1 hj
    have hlt := List.mem_range.1 hi
    simp only [List.contains_eq_mem, Bool.not_eq_true', decide_eq_false_iff_not, hcols]
    omega
  rw [List.range_add, List.filter_append, List.filter_eq_self.2 hleft,
    List.filter_eq_nil_iff.2 hright, List.append_nil]

theorem kept_eq_range {n m : ℕ} (hw : t.width = n + m) (hcols : ∀ j, j ∈ cols ↔ n ≤ j ∧ j < n + m) :
    t.kept cols = List.range n := by
  rw [kept, hw]
  exact filter_range_eq hcols

theorem zipIdx_map_range {β : Type} (f : ℕ → β) (n : ℕ) :
    ((List.range n).map f).zipIdx = (List.range n).map fun j => (f j, j) := by
  refine List.ext_getElem (by simp) fun k hk hk' => ?_
  simp

theorem map_point_kept (t : Tableau ℚ) (cols : List ℕ) : (t.kept cols).map t.point =
    (t.assignment.zipIdx.filter fun e => !cols.contains e.2).map (·.1) := by
  have hz : t.assignment.zipIdx = (List.range t.width).map fun j => (t.point j, j) := by
    rw [assignment_eq_map_point, zipIdx_map_range]
  rw [hz, List.filter_map, List.map_map]
  rfl

theorem keep_eq (hw : t.width ∉ cols) :
    ((List.range (t.width + 1)).filter fun j => !cols.contains j) = t.kept cols ++ [t.width] := by
  rw [List.range_succ, List.filter_append, kept]
  simp [hw]

theorem ofCells_keep {row : Row ℚ} (hr : row.width = t.width) (cols : List ℕ) :
    Row.ofCells ((t.kept cols ++ [t.width]).length - 1) ((t.kept cols ++ [t.width]).map row.cell) =
      row.select (t.kept cols) := by
  have hlen : (t.kept cols ++ [t.width]).length - 1 = (t.kept cols).length := by simp
  rw [hlen]
  ext1
  · apply List.ext_getElem (by simp [Row.ofCells, Row.select])
    intro i hi hi'
    have hi : i < (t.kept cols).length := by simpa [Row.ofCells] using hi
    simp [Row.ofCells, Row.select, List.getD_eq_getElem?_getD, List.getElem?_append_left, hi]
  · simp [Row.ofCells, Row.select, List.getD_eq_getElem?_getD, row.cell_of_le hr.le]

theorem objective_removeColumns (hw : t.width ∉ cols) :
    (t.removeColumns cols labels).objective = t.objective.select (t.kept cols) := by
  simp only [removeColumns, keep_eq hw]
  exact ofCells_keep rfl cols

theorem rows_removeColumns (hw : t.width ∉ cols) : (t.removeColumns cols labels).rows =
    t.rows.map fun b => ⟨b.basic.bind fun c => (t.kept cols ++ [t.width]).idxOf? c,
      b.row.select (t.kept cols)⟩ := by
  simp only [removeColumns, keep_eq hw]
  apply List.map_congr_left
  intro b hb
  rw [ofCells_keep (t.aligned b hb)]

theorem width_removeColumns (hw : t.width ∉ cols) :
    (t.removeColumns cols labels).width = (t.kept cols).length := by
  rw [width, objective_removeColumns hw]
  simp [Row.select, Row.width]

theorem RhsNonneg.removeColumns (h : t.RhsNonneg) (hw : t.width ∉ cols) (labels : List String) :
    (t.removeColumns cols labels).RhsNonneg := by
  intro b hb
  rw [rows_removeColumns hw] at hb
  obtain ⟨c, hc, rfl⟩ := List.mem_map.1 hb
  exact h c hc

theorem getElem?_of_idxOf?_concat {l : List ℕ} {i c n : ℕ} (hc : c ≠ n)
    (h : (l ++ [n]).idxOf? c = some i) : l[i]? = some c := by
  obtain ⟨hlen, hget, -⟩ := List.idxOf?_eq_some_iff.1 h
  by_cases hl : i < l.length
  · have happ : (l ++ [n])[i]? = l[i]? := List.getElem?_append_left hl
    rw [← happ, List.getElem?_eq_getElem hlen, hget]
  · rw [List.getElem_append_right (not_lt.1 hl), List.getElem_singleton] at hget
    exact absurd hget.symm hc

theorem HasUnitBasis.removeColumns (h : t.HasUnitBasis) (hw : t.width ∉ cols)
    (hb : ∀ b ∈ t.rows, ∀ c, b.basic = some c → c ∉ cols) (labels : List String) :
    (t.removeColumns cols labels).HasUnitBasis := by
  intro r b hr
  rw [rows_removeColumns hw, List.getElem?_map, Option.map_eq_some_iff] at hr
  obtain ⟨b, hr, rfl⟩ := hr
  obtain ⟨c, hc, hlt, hobj, hcol⟩ := h r b hr
  have hmem : c ∈ t.kept cols :=
    List.mem_filter.2 ⟨List.mem_range.2 hlt, by simpa using hb b (List.mem_of_getElem? hr) c hc⟩
  have hsome : ((t.kept cols ++ [t.width]).idxOf? c).isSome :=
    List.isSome_idxOf?.2 (List.mem_append_left _ hmem)
  obtain ⟨i, hi⟩ := Option.isSome_iff_exists.1 hsome
  have hget := getElem?_of_idxOf?_concat hlt.ne hi
  refine ⟨i, by simp [hc, hi], ?_, ?_, ?_⟩
  · rw [width_removeColumns hw]
    exact (List.getElem?_eq_some_iff.1 hget).1
  · rw [objective_removeColumns hw, Row.cell_select _ hget, hobj]
  · intro k d hd
    rw [rows_removeColumns hw, List.getElem?_map, Option.map_eq_some_iff] at hd
    obtain ⟨d, hd, rfl⟩ := hd
    rw [Row.cell_select _ hget, hcol k d hd]

theorem solves_removeColumns {n : ℕ} {y : ℕ → ℚ} (hw : t.width ∉ cols)
    (hk : t.kept cols = List.range n) (hn : n ≤ t.width) :
    (t.removeColumns cols labels).Solves y ↔ t.Solves fun j => if j < n then y j else 0 := by
  rw [Solves, rows_removeColumns hw, List.forall_mem_map]
  apply forall_congr'
  intro b
  apply forall_congr'
  intro hb
  have hnb : n ≤ b.row.width := by
    rw [t.aligned b hb]
    exact hn
  rw [hk, Row.residual_select_range _ hnb]

/-- Where the columns removed are the last ones and not basic, the basic solution stays. -/
theorem HasUnitBasis.point_removeColumns {n : ℕ} (h : t.HasUnitBasis) (hw : t.width ∉ cols)
    (hb : ∀ b ∈ t.rows, ∀ c, b.basic = some c → c ∉ cols) (hk : t.kept cols = List.range n)
    (hn : n ≤ t.width) : (t.removeColumns cols labels).point = t.point := by
  have hlt {b : BasicRow ℚ} (hm : b ∈ t.rows) {c : ℕ} (hc : b.basic = some c) : c < n := by
    obtain ⟨r, hr⟩ := List.getElem?_of_mem hm
    have hmem : c ∈ t.kept cols :=
      List.mem_filter.2 ⟨List.mem_range.2 (h.unitIn hr hc).1, by simpa using hb b hm c hc⟩
    rw [hk] at hmem
    exact List.mem_range.1 hmem
  have hz : (fun j => if j < n then t.point j else 0) = t.point := by
    funext j
    by_cases hj : j < n
    · rw [if_pos hj]
    · rw [if_neg hj, point_eq_zero fun b hm hc => hj (hlt hm hc)]
  refine point_eq_of_solves h (h.removeColumns hw hb labels) ?_ fun b hm c hc _ => ?_
  · rw [solves_removeColumns hw hk hn, hz]
    exact solves_point h
  · rw [rows_removeColumns hw, hk]
    refine ⟨_, List.mem_map_of_mem hm, ?_⟩
    have hcn := hlt hm hc
    rw [hc, Option.bind_some, List.idxOf?_eq_some_iff]
    refine ⟨by simp; omega, ?_, fun j hj => ?_⟩
    · simp [List.getElem_append_left, hcn]
    · have hjn := hj.trans hcn
      simp [List.getElem_append_left, hjn]
      omega

def clearBasic {α : Type} [Scalar α] (o : Row α) (b : BasicRow α) : Row α :=
  b.basic.elim o (o.clear b.row)

theorem objective_setObjective {α : Type} [Scalar α] (t : Tableau α) (o : Row α) :
    (t.setObjective o).objective = t.rows.foldl clearBasic (o.fit t.width) := by
  rw [setObjective]
  dsimp only
  congr 1
  funext o b
  rw [clearBasic]
  cases b.basic <;> rfl

theorem rows_setObjective (t : Tableau ℚ) (o : Row ℚ) : (t.setObjective o).rows = t.rows := rfl

/-- What is known of a row whose basic column is to be cleared from rows of width `n`. -/
def Clears (n : ℕ) (b : BasicRow ℚ) : Prop :=
  b.row.width = n ∧ ∃ c, b.basic = some c ∧ c < n ∧ b.row.cell c = 1

theorem HasUnitBasis.clears (h : t.HasUnitBasis) : ∀ b ∈ t.rows, Clears t.width b := by
  intro b hb
  obtain ⟨r, hr⟩ := List.getElem?_of_mem hb
  obtain ⟨c, hc, hlt, -, hcol⟩ := h r b hr
  refine ⟨t.aligned b hb, c, hc, hlt, ?_⟩
  rw [hcol r b hr, if_pos rfl]

variable {o : Row ℚ} {l : List (BasicRow ℚ)}

theorem clearBasic_eq (hb : Clears o.width b) :
    ∃ c, b.basic = some c ∧ b.row.cell c = 1 ∧
      clearBasic o b = o.addScaled (-o.cell c) b.row := by
  obtain ⟨hw, c, hc, hlt, h1⟩ := hb
  refine ⟨c, hc, h1, ?_⟩
  rw [clearBasic, hc, Option.elim_some, Row.clear_eq hw.symm hlt h1]

theorem width_clearBasic {α : Type} [Scalar α] (o : Row α) (b : BasicRow α) :
    (clearBasic o b).width = o.width := by
  rw [clearBasic]
  cases b.basic with
  | none => rfl
  | some c => exact o.width_clear b.row c

theorem width_foldl_clearBasic {α : Type} [Scalar α] (l : List (BasicRow α)) (o : Row α) :
    (l.foldl clearBasic o).width = o.width := by
  induction l generalizing o with
  | nil => rfl
  | cons b l ih => rw [List.foldl_cons, ih, width_clearBasic]

theorem residual_foldl_clearBasic (hl : ∀ b ∈ l, Clears o.width b)
    (hx : ∀ b ∈ l, b.row.residual x = 0) :
    (l.foldl clearBasic o).residual x = o.residual x := by
  induction l generalizing o with
  | nil => rfl
  | cons b l ih =>
      have hb := hl b List.mem_cons_self
      obtain ⟨c, -, -, he⟩ := clearBasic_eq hb
      rw [List.foldl_cons, ih]
      · rw [he, Row.residual_addScaled hb.1.symm, hx b List.mem_cons_self, mul_zero, add_zero]
      · intro d hd
        rw [width_clearBasic]
        exact hl d (List.mem_cons_of_mem b hd)
      · exact fun d hd => hx d (List.mem_cons_of_mem b hd)

/-- A column that is cleared stays so: the rows left have 0 there. -/
theorem cell_foldl_clearBasic_of_zero (hl : ∀ b ∈ l, Clears o.width b) (h0 : o.cell j = 0)
    (hj : ∀ b ∈ l, b.basic = some j ∨ b.row.cell j = 0) : (l.foldl clearBasic o).cell j = 0 := by
  induction l generalizing o with
  | nil => exact h0
  | cons b l ih =>
      have hb := hl b List.mem_cons_self
      obtain ⟨c, hc, h1, he⟩ := clearBasic_eq hb
      rw [List.foldl_cons]
      refine ih (fun d hd => ?_) ?_ fun d hd => hj d (List.mem_cons_of_mem b hd)
      · rw [width_clearBasic]
        exact hl d (List.mem_cons_of_mem b hd)
      · rw [he, Row.cell_addScaled _ _ _ hb.1.symm, h0]
        rcases hj b List.mem_cons_self with hbj | hbj
        · rw [hc] at hbj
          rw [Option.some.inj hbj, h0]
          ring
        · rw [hbj]
          ring

theorem cell_foldl_clearBasic_of_mem (hl : ∀ b ∈ l, Clears o.width b) (hb : b ∈ l)
    (hc : b.basic = some j) (hj : ∀ d ∈ l, d.basic = some j ∨ d.row.cell j = 0) :
    (l.foldl clearBasic o).cell j = 0 := by
  obtain ⟨as, bs, rfl⟩ := List.append_of_mem hb
  have has := width_foldl_clearBasic as o
  have hbo : Clears (as.foldl clearBasic o).width b := by
    rw [has]
    exact hl b hb
  obtain ⟨c, hc', h1, he⟩ := clearBasic_eq hbo
  rw [hc] at hc'
  obtain rfl := Option.some.inj hc'
  rw [List.foldl_append, List.foldl_cons]
  apply cell_foldl_clearBasic_of_zero
  · intro d hd
    rw [width_clearBasic, has]
    exact hl d (List.mem_append_right _ (List.mem_cons_of_mem b hd))
  · rw [he, Row.cell_addScaled _ _ _ hbo.1.symm, h1]
    ring
  · exact fun d hd => hj d (List.mem_append_right _ (List.mem_cons_of_mem b hd))

theorem width_setObjective {α : Type} [Scalar α] (t : Tableau α) (o : Row α) :
    (t.setObjective o).width = t.width := by
  rw [width, objective_setObjective, width_foldl_clearBasic]
  exact Row.width_fit _ _

theorem point_setObjective (t : Tableau ℚ) (o : Row ℚ) : (t.setObjective o).point = t.point :=
  point_congr (width_setObjective t o) (rows_setObjective t o)

theorem HasUnitBasis.setObjective (h : t.HasUnitBasis) (o : Row ℚ) :
    (t.setObjective o).HasUnitBasis := by
  intro r b hb
  rw [rows_setObjective] at hb
  obtain ⟨c, hc, hlt, -, hcol⟩ := h r b hb
  refine ⟨c, hc, by rwa [width_setObjective], ?_, hcol⟩
  rw [objective_setObjective]
  apply cell_foldl_clearBasic_of_mem _ (List.mem_of_getElem? hb) hc
  · intro d hd
    obtain ⟨k, hk⟩ := List.getElem?_of_mem hd
    by_cases hkr : k = r
    · rw [hkr, hb] at hk
      exact .inl (Option.some.inj hk ▸ hc)
    · exact .inr (by rw [hcol k d hk, if_neg hkr])
  · rw [Row.width_fit]
    exact h.clears

theorem residual_setObjective (h : t.HasUnitBasis) (ho : o.width = t.width) (hx : t.Solves x) :
    (t.setObjective o).objective.residual x = o.residual x := by
  have hfit : o.fit t.width = o := ho ▸ Row.fit_width o
  rw [objective_setObjective, hfit, residual_foldl_clearBasic _ hx]
  rw [ho]
  exact h.clears

end Tableau

end LinProg
