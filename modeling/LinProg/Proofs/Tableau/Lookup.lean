import Mathlib.Data.List.InsertIdx
import LinProg.Proofs.Tableau.Admission
import LinProg.Proofs.Tableau.Detect
import LinProg.Proofs.Tableau.Grid
import LinProg.Proofs.Tableau.Rebuild

namespace LinProg

variable {α : Type}

theorem mapM_map {β γ δ : Type} {e : δ → β} {f : β → Option γ} {g : δ → γ} {l : List δ}
    (h : ∀ a ∈ l, f (e a) = some (g a)) : (l.map e).mapM f = some (l.map g) := by
  induction l with
  | nil => rfl
  | cons a l ih =>
      rw [List.map_cons, List.mapM_cons, h a List.mem_cons_self,
        ih fun b hb => h b (List.mem_cons_of_mem a hb)]
      rfl

/-- A fold of which no step is stuck while `P` holds. -/
theorem foldlM_map_eq {β β' γ δ : Type} (P : γ → Prop) (e : γ → δ) {m : β' → β}
    {f : δ → β → Option δ} (g : γ → β' → γ) {l : List β'}
    (h : ∀ a ∈ l, ∀ x, P x → f (e x) (m a) = some (e (g x a)))
    (hP : ∀ a x, P x → P (g x a)) {x : γ} (hx : P x) :
    (l.map m).foldlM f (e x) = some (e (l.foldl g x)) := by
  induction l generalizing x with
  | nil => rfl
  | cons a l ih =>
      rw [List.map_cons, List.foldlM_cons, h a List.mem_cons_self x hx]
      exact ih (fun b hb => h b (List.mem_cons_of_mem a hb)) (hP a x hx)

theorem addScaled_append [Scalar α] {xs ys : List α} (h : xs.length = ys.length) (k x y : α) :
    addScaled k (xs ++ [x]) (ys ++ [y]) = addScaled k xs ys ++ [x + k * y] := by
  induction xs generalizing ys with
  | nil =>
      obtain rfl := List.length_eq_zero_iff.1 h.symm
      rfl
  | cons a xs ih =>
      cases ys with
      | nil => cases h
      | cons b ys => exact congrArg _ (ih (Nat.succ.inj h))

namespace Row

variable {r p : Row α} {j : ℕ}

theorem length_cells (r : Row α) : r.cells.length = r.width + 1 := List.length_append

theorem getElem?_cells (h : j ≤ r.width) : r.cells[j]? = some (r.cell j) := by
  rw [cells]
  rcases h.lt_or_eq with h | rfl
  · rw [List.getElem?_append_left h, r.getElem?_coeffs h]
  · rw [r.cell_of_le le_rfl, width, List.getElem?_append_right le_rfl, Nat.sub_self]
    rfl

theorem put?_cells (h : j < r.width) (x : α) : put? r.cells j x = some (r.set j x).cells := by
  rw [put?, if_pos (r.length_cells ▸ Nat.lt_succ_of_lt h), cells, List.set_append_left _ _ h]
  rfl

variable [Scalar α]

theorem cells_divide (r : Row α) (d : α) : (r.divide d).cells = r.cells.map (· / d) := by
  rw [cells, cells, List.map_append]
  rfl

theorem addScaled?_cells (h : r.width = p.width) (k : α) :
    addScaled? k r.cells p.cells = some (r.addScaled k p).cells := by
  have hlen : r.cells.length = p.cells.length := by rw [length_cells, length_cells, h]
  rw [LinProg.addScaled?, if_pos hlen, cells, cells, addScaled_append h]
  rfl

theorem clear?_cells (h : r.width = p.width) (hj : j < r.width) :
    clear? p.cells j r.cells = some (r.clear p j).cells := by
  rw [LinProg.clear?, getElem?_cells hj.le]
  change (if r.cell j == 0 then some r.cells else (addScaled? _ _ _).bind _) = _
  rw [clear]
  split
  · rfl
  · rw [addScaled?_cells h]
    exact put?_cells (by rwa [width_addScaled]) 0

theorem cells_ofCells {l : List α} {n : ℕ} (h : l.length = n + 1) : (ofCells n l).cells = l := by
  refine List.ext_getElem (by rw [length_cells, width_ofCells, h]) fun j hj hl => ?_
  rw [← Option.some_inj, ← List.getElem?_eq_getElem hj, ← List.getElem?_eq_getElem hl]
  have hjn : j ≤ n := by omega
  rw [getElem?_cells (by rwa [width_ofCells])]
  rcases hjn.lt_or_eq with hjn | rfl
  · simp [cell, ofCells, hjn, hl, List.getD_eq_getElem?_getD]
  · rw [cell_of_le _ (by rw [width_ofCells])]
    simp [ofCells, hl, List.getD_eq_getElem?_getD]

end Row

namespace Tableau

variable {t : Tableau α} {i j n r : ℕ} {b : BasicRow α}

def lines (t : Tableau α) : List (Row α) := t.objective :: t.rows.map (·.row)

theorem width_of_mem_lines {l : Row α} (h : l ∈ t.lines) : l.width = t.width := by
  rcases List.mem_cons.1 h with rfl | h
  · rfl
  · obtain ⟨b, hb, rfl⟩ := List.mem_map.1 h
    exact t.aligned b hb

def grid (t : Tableau α) : Grid α := ⟨t.width + 1, t.lines.map Row.cells, t.basis, t.tol⟩

theorem ncols_grid (t : Tableau α) : t.grid.ncols - 1 = t.width := rfl

theorem length_cells_grid (t : Tableau α) : t.grid.cells.length = t.rows.length + 1 := by
  simp [grid, lines]

theorem length_basis_grid (t : Tableau α) : t.grid.basis.length = t.rows.length :=
  List.length_map _

theorem getElem?_cells_grid (h : t.rows[r]? = some b) :
    t.grid.cells[r + 1]? = some b.row.cells := by
  simp [grid, lines, h]

theorem cell?_zero (h : j ≤ t.width) : t.grid.cell? 0 j = some (t.objective.cell j) :=
  Row.getElem?_cells h

theorem cell?_succ (h : t.rows[r]? = some b) (hj : j ≤ t.width) :
    t.grid.cell? (r + 1) j = some (b.row.cell j) := by
  rw [Grid.cell?, getElem?_cells_grid h]
  exact Row.getElem?_cells (t.aligned b (List.mem_of_getElem? h) ▸ hj)

theorem coefficients?_grid (t : Tableau α) :
    t.grid.coefficients? = some t.objective.coeffs := by
  simp [Grid.coefficients?, grid, lines, Row.cells]

/-- There are `n` variable columns, and only they are basic. -/
structure Fits (t : Tableau α) (n : ℕ) : Prop where
  width : t.width = n
  basic : ∀ b ∈ t.rows, ∀ c, b.basic = some c → c < n

theorem column?_grid (h : j ≤ t.width) : t.grid.column? j = some (t.column j) := by
  have hl : ∀ l ∈ t.lines, l.cells[j]? = some (l.cell j) := fun l hl =>
    Row.getElem?_cells ((width_of_mem_lines hl).symm ▸ h)
  rw [Grid.column?, grid, mapM_map hl, lines, List.map_cons, List.map_map]
  rfl

variable [Scalar α]

theorem isOptimal?_grid (t : Tableau α) : t.grid.isOptimal? = some t.isOptimal := by
  rw [Grid.isOptimal?, coefficients?_grid]
  rfl

theorem improve?_scan {best : ℕ} (cs : List α) (hb : best < t.width)
    (hcs : ∀ k c, cs[k]? = some c → j + k < t.width ∧ t.objective.cell (j + k) = c) :
    (cs.zipIdx j).foldlM t.grid.improve? best =
      some (leastFrom best (t.objective.cell best) j cs) := by
  induction cs generalizing j best with
  | nil => rfl
  | cons c cs ih =>
      obtain ⟨hj, hc⟩ := hcs 0 c rfl
      have htail : ∀ k d, cs[k]? = some d →
          j + 1 + k < t.width ∧ t.objective.cell (j + 1 + k) = d := fun k d hd => by
        rw [Nat.add_assoc, Nat.add_comm 1]
        exact hcs (k + 1) d hd
      rw [List.zipIdx_cons, List.foldlM_cons, Grid.improve?, cell?_zero hb.le, leastFrom]
      change List.foldlM _ (if c < t.objective.cell best then j else best) _ = _
      split
      · exact (ih hj htail).trans (by rw [← hc]; rfl)
      · exact ih hb htail

theorem entering?_grid (t : Tableau α) : t.grid.entering? = some t.entering := by
  rw [Grid.entering?, coefficients?_grid, entering]
  change t.objective.coeffs.zipIdx.foldlM t.grid.improve? 0 = _
  cases hc : t.objective.coeffs with
  | nil => rfl
  | cons c cs =>
      have hw : t.width = (c :: cs).length := congrArg List.length hc
      have hcell : t.objective.cell 0 = c := by simp [Row.cell, hc]
      rw [improve?_scan (c :: cs) (hw ▸ Nat.succ_pos _), leastFrom, hcell, ite_self]
      intro k d hd
      rw [Nat.zero_add, Row.cell, hc, List.getD_eq_getElem?_getD, hd, hw]
      exact ⟨(List.getElem?_eq_some_iff.1 hd).1, rfl⟩

theorem isUnbounded?_grid (h : j ≤ t.width) : t.grid.isUnbounded? j = some (t.isUnbounded j) := by
  rw [Grid.isUnbounded?, column?_grid h]
  change some (((t.rows.map fun b => b.row.cell j)).all _) = _
  rw [List.all_map]
  rfl

theorem limit?_row {best : Option (ℕ × α)} (hb : b.row.width = t.width) (hj : j ≤ t.width) :
    t.grid.limit? j best (b.row.cells, i) = some
      (if b.row.cell j ≤ t.tol then best
      else if (match best with
        | some (_, q) => decide (q ≤ b.row.rhs / b.row.cell j)
        | none => false) then best else some (i, b.row.rhs / b.row.cell j)) := by
  have hcell : b.row.cells[j]? = some (b.row.cell j) := Row.getElem?_cells (hb ▸ hj)
  have hrhs : b.row.cells[t.width + 1 - 1]? = some b.row.rhs := by
    rw [Nat.add_sub_cancel, ← hb, Row.getElem?_cells le_rfl, b.row.cell_of_le le_rfl]
  rw [Grid.limit?]
  dsimp only
  rw [hcell]
  change (if b.row.cell j ≤ t.tol then some best else (b.row.cells[t.width + 1 - 1]?).bind _) = _
  rw [hrhs]
  split
  · rfl
  · cases best with
    | none => rfl
    | some best =>
        change some (if best.2 ≤ _ then _ else _) = _
        simp

theorem limit?_scan {best : Option (ℕ × α)} {bs : List (BasicRow α)}
    (hbs : ∀ b ∈ bs, b.row.width = t.width) (hj : j ≤ t.width) :
    ((bs.map (·.row.cells)).zipIdx i).foldlM (t.grid.limit? j) best =
      some (leastRatioFrom t.tol j i best bs) := by
  induction bs generalizing i best with
  | nil => rfl
  | cons b bs ih =>
      rw [List.map_cons, List.zipIdx_cons, List.foldlM_cons,
        limit?_row (hbs b List.mem_cons_self) hj, leastRatioFrom]
      change List.foldlM _ (ite _ _ _) _ = _
      rw [ih fun c hc => hbs c (List.mem_cons_of_mem b hc)]
      split
      · rfl
      · rfl

theorem leaving?_grid (h : j ≤ t.width) : t.grid.leaving? j = some (t.leaving j) := by
  have hcells : t.grid.cells.zipIdx.drop 1 = (t.rows.map (·.row.cells)).zipIdx 1 := by
    simp [grid, lines, List.zipIdx_cons, Function.comp_def]
  rw [Grid.leaving?, hcells, limit?_scan t.aligned h]
  rfl

theorem move?_grid (t : Tableau α) : t.grid.move? = some t.move := by
  rw [Grid.move?, isOptimal?_grid, move]
  change (if t.isOptimal = true then some Move.optimal else _) = _
  cases ho : t.isOptimal with
  | true => rfl
  | false =>
      have hj := (entering_lt_width ho).le
      rw [entering?_grid]
      change (t.grid.isUnbounded? t.entering).bind _ = _
      rw [isUnbounded?_grid hj]
      change (if t.isUnbounded t.entering = true then some Move.unbounded else _) = _
      cases t.isUnbounded t.entering with
      | true => rfl
      | false =>
          rw [leaving?_grid hj]
          cases t.leaving t.entering with
          | none => rfl
          | some i => rfl

theorem eliminate?_row {p l : Row α} (hp : p.width = t.width) (hl : l.width = t.width)
    (hj : j < t.width) (k : ℕ) : Grid.eliminate? i j p.cells (l.cells, k) =
      some (if k = i then p else (l.clear p j).set j 0).cells := by
  rw [Grid.eliminate?]
  dsimp only
  split
  · rfl
  · rw [Row.clear?_cells (hl.trans hp.symm) (hl.symm ▸ hj)]
    exact Row.put?_cells (by rwa [Row.width_clear, hl]) 0

theorem lines_exchange (hb : b ∈ t.rows) : (t.exchange r j b hb).lines =
    t.lines.zipIdx.map fun l =>
      if l.2 = r + 1 then (b.row.divide (b.row.cell j)).set j 1
      else (l.1.clear ((b.row.divide (b.row.cell j)).set j 1) j).set j 0 := by
  refine List.ext_getElem? fun k => ?_
  cases k with
  | zero => simp [lines, exchange]
  | succ k =>
      simp only [lines, exchange, List.getElem?_cons_succ, List.getElem?_map, List.getElem?_mapIdx,
        List.getElem?_zipIdx]
      cases t.rows[k]? with
      | none => rfl
      | some c =>
          by_cases hk : k = r
          · simp [hk]
          · simp [hk]

theorem basis_exchange (hb : t.rows[r]? = some b) :
    (t.exchange r j b (List.mem_of_getElem? hb)).basis = t.basis.set r (some j) := by
  refine List.ext_getElem? fun k => ?_
  rw [basis, basis, List.getElem?_set, List.length_map, List.getElem?_map, exchange,
    List.getElem?_mapIdx, List.getElem?_map]
  by_cases hk : r = k
  · subst hk
    simp [(List.getElem?_eq_some_iff.1 hb).1]
  · rw [if_neg hk, Option.map_map]
    congr 1
    funext c
    simp [Ne.symm hk]

theorem mapM_eliminate? {p : Row α} (hp : p.width = t.width) (hj : j < t.width) :
    t.grid.cells.zipIdx.mapM (Grid.eliminate? i j p.cells) = some ((t.lines.zipIdx.map fun l =>
      if l.2 = i then p else (l.1.clear p j).set j 0).map Row.cells) := by
  rw [grid, List.zipIdx_map, List.map_map]
  refine mapM_map fun l hl => ?_
  exact eliminate?_row hp (width_of_mem_lines (List.fst_mem_of_mem_zipIdx hl)) hj l.2

theorem pivot?_of_row (hb : t.rows[r]? = some b) (hj : j < t.width) : t.grid.pivot? (r + 1) j =
    some (if Scalar.abs (b.row.cell j) ≤ t.tol then .error (.invalidPivot (r + 1) j)
      else .ok (t.exchange r j b (List.mem_of_getElem? hb)).grid) := by
  have hr := (List.getElem?_eq_some_iff.1 hb).1
  have hw : b.row.width = t.width := t.aligned b (List.mem_of_getElem? hb)
  have hcond : ¬ (r + 1 = 0 ∨ t.grid.cells.length ≤ r + 1 ∨ t.grid.ncols - 1 ≤ j) := by
    rw [length_cells_grid, ncols_grid]
    omega
  have hd : b.row.cells[j]? = some (b.row.cell j) := Row.getElem?_cells (hw ▸ hj.le)
  have hp : put? (b.row.cells.map (· / b.row.cell j)) j 1 =
      some ((b.row.divide (b.row.cell j)).set j 1).cells := by
    rw [← Row.cells_divide]
    exact Row.put?_cells (by rwa [Row.width_divide, hw]) 1
  have hcells := mapM_eliminate? (i := r + 1) (p := (b.row.divide (b.row.cell j)).set j 1)
    (by rwa [Row.width_set, Row.width_divide]) hj
  rw [← lines_exchange (List.mem_of_getElem? hb)] at hcells
  have hbasis : put? t.grid.basis (r + 1 - 1) (some j) =
      some (t.exchange r j b (List.mem_of_getElem? hb)).basis := by
    rw [basis_exchange hb]
    exact if_pos (t.length_basis_grid ▸ hr)
  have htol : t.grid.tol = t.tol := rfl
  simp only [Grid.pivot?, hcond, if_false, getElem?_cells_grid hb, hd, hp, hcells, hbasis, htol,
    Option.bind_eq_bind, Option.bind_some, Option.pure_def]
  split
  · rfl
  · simp only [grid, width_exchange]
    rfl

theorem pivot?_grid (t : Tableau α) (i j : ℕ) :
    t.grid.pivot? i j = some ((t.pivot i j).map grid) := by
  have hrefuse (h : i = 0 ∨ t.grid.cells.length ≤ i ∨ t.grid.ncols - 1 ≤ j) :
      t.grid.pivot? i j = some (.error (.invalidPivot i j)) := by
    rw [Grid.pivot?, if_pos h]
    rfl
  cases i with
  | zero => exact hrefuse (.inl rfl)
  | succ r =>
      cases hb : t.rows[r]? with
      | none =>
          rw [pivot_of_none hb]
          have hr := List.getElem?_eq_none_iff.1 hb
          exact hrefuse (.inr (.inl (t.length_cells_grid ▸ Nat.succ_le_succ hr)))
      | some b =>
          rw [pivot_of_row hb]
          by_cases hj : t.width ≤ j
          · rw [if_pos (.inl hj)]
            exact hrefuse (.inr (.inr hj))
          · rw [pivot?_of_row hb (Nat.not_le.1 hj)]
            simp only [hj, false_or]
            split
            · rfl
            · rfl

omit [Scalar α] in
theorem place?_row (h : t.Fits t.width) {x : List α} (hx : x.length = t.width) {b : BasicRow α × ℕ}
    (hb : b ∈ t.rows.zipIdx) : t.grid.place? x (b.1.basic, b.2) = some (place x b.1) := by
  have hrow : t.rows[b.2]? = some b.1 := List.mk_mem_zipIdx_iff_getElem?.1 hb
  rw [Grid.place?, place]
  cases hc : b.1.basic with
  | none => rfl
  | some c =>
      have hlt := h.basic b.1 (List.mem_of_getElem? hrow) c hc
      have hcell : t.grid.cell? (b.2 + 1) (t.grid.ncols - 1) = some b.1.row.rhs := by
        rw [ncols_grid, cell?_succ hrow le_rfl, b.1.row.cell_of_le]
        exact (t.aligned b.1 (List.mem_of_getElem? hrow)).le
      simp only [hcell]
      exact if_pos (hx ▸ hlt)

omit [Scalar α] in
theorem zipIdx_basis_grid (t : Tableau α) :
    t.grid.basis.zipIdx = t.rows.zipIdx.map fun b => (b.1.basic, b.2) := by
  rw [grid, basis, List.zipIdx_map]
  rfl

theorem assignment?_grid (h : t.Fits n) : t.grid.assignment? = some t.assignment := by
  obtain rfl := h.width
  have hfold := foldlM_map_eq (fun x : List α => x.length = t.width) id
    (fun x (b : BasicRow α × ℕ) => place x b.1) (fun b hb x hx => place?_row h hx hb)
    (fun b x hx => (length_foldl_place [b.1] x).trans hx) (x := List.replicate t.width 0)
    List.length_replicate
  rw [Grid.assignment?, zipIdx_basis_grid, assignment_eq]
  refine hfold.trans ?_
  conv_rhs => rw [← List.zipIdx_map_fst 0 t.rows, List.foldl_map]
  rfl

theorem reduce?_row (h : t.Fits t.width) {o : Row α} (ho : o.width = t.width)
    {b : BasicRow α × ℕ} (hb : b ∈ t.rows.zipIdx) :
    t.grid.reduce? o.cells (b.1.basic, b.2) = some (clearBasic o b.1).cells := by
  have hrow : t.rows[b.2]? = some b.1 := List.mk_mem_zipIdx_iff_getElem?.1 hb
  rw [Grid.reduce?, clearBasic]
  cases hc : b.1.basic with
  | none => rfl
  | some c =>
      have hlt := h.basic b.1 (List.mem_of_getElem? hrow) c hc
      simp only [getElem?_cells_grid hrow]
      refine Row.clear?_cells (ho.trans ?_) (ho ▸ hlt)
      exact (t.aligned b.1 (List.mem_of_getElem? hrow)).symm

theorem setObjective?_grid (h : t.Fits n) {o : Row α} (ho : o.width = n) :
    t.grid.setObjective? o.cells = some (t.setObjective o).grid := by
  obtain rfl := h.width
  have hfold := foldlM_map_eq (fun x : Row α => x.width = t.width) Row.cells
    (fun x (b : BasicRow α × ℕ) => clearBasic x b.1) (fun b hb x hx => reduce?_row h hx hb)
    (fun b x hx => (width_clearBasic x b.1).trans hx) ho
  have hobj : (t.setObjective o).objective =
      t.rows.zipIdx.foldl (fun x b => clearBasic x b.1) o := by
    rw [objective_setObjective, ← ho, Row.fit_width]
    conv_lhs => rw [← List.zipIdx_map_fst 0 t.rows, List.foldl_map]
  have hlen : o.cells.length = t.grid.ncols := by
    rw [Row.length_cells, ho]
    rfl
  rw [← hobj, ← zipIdx_basis_grid] at hfold
  simp only [Grid.setObjective?, hlen, if_true, hfold, Option.bind_eq_bind, Option.bind_some]
  simp only [grid, width_setObjective]
  rfl

omit [Scalar α] in
theorem mapM_kept {l : Row α} (hl : l ∈ t.lines) (cols : List ℕ) :
    (t.grid.kept cols).mapM (l.cells[·]?) = some ((t.grid.kept cols).map l.cell) := by
  have hj : ∀ j ∈ t.grid.kept cols, l.cells[id j]? = some (l.cell j) := fun j hj => by
    have hj := List.mem_range.1 (List.mem_of_mem_filter hj)
    exact Row.getElem?_cells (width_of_mem_lines hl ▸ Nat.lt_succ_iff.1 hj)
  simpa using mapM_map hj

theorem removeColumns?_grid {cols : List ℕ} (hw : t.width ∉ cols) (labels : List String) :
    t.grid.removeColumns? cols = some (t.removeColumns cols labels).grid := by
  have hmem : t.width ∈ t.grid.kept cols :=
    List.mem_filter.2 ⟨List.mem_range.2 (Nat.lt_succ_self _), by simpa using hw⟩
  have hlen := Nat.sub_add_cancel (List.length_pos_of_mem hmem)
  have hlines : (t.removeColumns cols labels).lines = t.lines.map fun l =>
      .ofCells ((t.grid.kept cols).length - 1) ((t.grid.kept cols).map l.cell) := by
    simp only [lines, removeColumns, List.map_cons, List.map_map]
    rfl
  have hcells : t.grid.cells.mapM (fun row => (t.grid.kept cols).mapM (row[·]?)) =
      some (t.removeColumns cols labels).grid.cells := by
    change (t.lines.map Row.cells).mapM _ = some ((t.removeColumns cols labels).lines.map Row.cells)
    rw [mapM_map fun l hl => mapM_kept hl cols, hlines, List.map_map]
    congr 1
    refine List.map_congr_left fun l _ => (Row.cells_ofCells ?_).symm
    rw [List.length_map, hlen]
  have hwidth : (t.removeColumns cols labels).width + 1 = (t.grid.kept cols).length := by
    rw [← hlen]
    exact congrArg (· + 1) (Row.width_ofCells _ _)
  have hbasis : (t.removeColumns cols labels).basis =
      t.basis.map fun col => col.bind fun c => (t.grid.kept cols).idxOf? c := by
    simp only [basis, removeColumns, List.map_map]
    rfl
  rw [Grid.removeColumns?, hcells]
  simp only [Option.bind_eq_bind, Option.bind_some]
  change some (⟨_, _, _, _⟩ : Grid α) = some ⟨_, _, _, _⟩
  rw [hwidth, hbasis]
  rfl

omit [Scalar α] in
theorem removeRow?_grid (h : r < t.rows.length) :
    t.grid.removeRow? r = some (t.removeRow r).grid := by
  rw [Grid.removeRow?, length_cells_grid, length_basis_grid, if_pos ⟨Nat.succ_lt_succ h, h⟩]
  simp [grid, lines, basis, removeRow, width, List.eraseIdx_map]

theorem unitFrom_cases {tol : α} {i m : ℕ} {one : Option ℕ} {l : List α}
    (h : unitFrom tol i one l = some m) : one = some m ∨ m < i + l.length := by
  induction l generalizing i one with
  | nil => exact .inl h
  | cons a l ih =>
      rw [unitFrom] at h
      rw [List.length_cons, Nat.add_comm l.length, ← Nat.add_assoc]
      split at h
      · rcases ih h with hm | hm
        · obtain rfl := Option.some.inj hm
          exact .inr (by omega)
        · exact .inr hm
      · split at h
        · cases h
        · exact ih h

theorem unitRow?_cases {m : ℕ} (h : t.unitRow? j = some m) : ∃ r < t.rows.length, m = r + 1 := by
  obtain ⟨h, hpos⟩ := Option.filter_eq_some_iff.1 h
  rcases unitFrom_cases h with hn | hm
  · cases hn
  · rw [column, List.length_cons, List.length_map] at hm
    have hpos := of_decide_eq_true hpos
    exact ⟨m - 1, by omega, by omega⟩

theorem detect?_column (h : j ≤ t.width) (f : ℕ → Option ℕ) :
    t.grid.detect? ((List.range t.rows.length).map f) j =
      some ((List.range t.rows.length).map fun r =>
        (f r).or (if t.unitRow? j = some (r + 1) then some j else none)) := by
  have hunit : (unitFrom t.grid.tol 0 none (t.column j)).filter (0 < ·) = t.unitRow? j := rfl
  simp only [Grid.detect?, column?_grid h, Option.bind_eq_bind, Option.bind_some, hunit]
  cases hu : t.unitRow? j with
  | none => simp
  | some m =>
      obtain ⟨r, hr, rfl⟩ := unitRow?_cases hu
      have hget : ((List.range t.rows.length).map f)[r]? = some (f r) := by simp [hr]
      simp only [Nat.add_sub_cancel, hget, Option.bind_some]
      cases hf : f r with
      | some c =>
          refine congrArg some (List.map_congr_left fun k hk => ?_)
          by_cases hkr : k = r
          · rw [hkr, hf]
            rfl
          · simp [Ne.symm hkr]
      | none =>
          dsimp only
          rw [put?, if_pos (by simpa using hr)]
          refine congrArg some (List.ext_getElem? fun k => ?_)
          rw [List.getElem?_set]
          by_cases hkr : r = k
          · subst hkr
            simp [hr, hf]
          · by_cases hk : k < t.rows.length
            · simp [hk, hkr]
            · simp [hk, hkr]

theorem basis_detectBasis (t : Tableau α) : t.detectBasis.basis =
    (List.range t.rows.length).map fun r =>
      (List.range t.width).reverse.find? fun j => t.unitRow? j == some (r + 1) := by
  refine List.ext_getElem? fun k => ?_
  simp only [basis, detectBasis, List.getElem?_map, List.getElem?_mapIdx, zipIdx_map_range,
    ← List.map_reverse, List.find?_map, Option.map_map]
  by_cases hk : k < t.rows.length
  · simp [hk, Function.comp_def]
  · simp [hk]

theorem foldlM_detect? {l : List ℕ} (h : ∀ j ∈ l, j ≤ t.width) (f : ℕ → Option ℕ) :
    l.foldlM t.grid.detect? ((List.range t.rows.length).map f) =
      some ((List.range t.rows.length).map fun r =>
        (f r).or (l.find? fun j => t.unitRow? j == some (r + 1))) := by
  induction l generalizing f with
  | nil => simp
  | cons j l ih =>
      rw [List.foldlM_cons, detect?_column (h j List.mem_cons_self)]
      refine (ih (fun i hi => h i (List.mem_cons_of_mem j hi)) _).trans ?_
      refine congrArg some (List.map_congr_left fun r _ => ?_)
      rw [Option.or_assoc, List.find?_cons]
      by_cases hu : t.unitRow? j = some (r + 1)
      · simp [hu]
      · simp [hu, beq_false_of_ne hu]

theorem detectBasis?_grid (t : Tableau α) :
    t.grid.detectBasis? = some t.detectBasis.grid := by
  have hnone : List.replicate (t.grid.cells.length - 1) none =
      (List.range t.rows.length).map fun _ => (none : Option ℕ) := by
    rw [length_cells_grid, Nat.add_sub_cancel, List.map_const', List.length_range]
  have hfold := foldlM_detect? (t := t) (l := (List.range t.width).reverse)
    (fun j hj => (List.mem_range.1 (List.mem_reverse.1 hj)).le) fun _ => none
  simp only [Option.none_or] at hfold
  rw [← basis_detectBasis] at hfold
  rw [Grid.detectBasis?, hnone, ncols_grid]
  simp only [hfold, Option.bind_eq_bind, Option.bind_some]
  have hlines : t.detectBasis.lines = t.lines := by
    simp only [lines, detectBasis]
    congr 1
    refine List.ext_getElem? fun k => ?_
    simp [Function.comp_def]
  change some (⟨_, t.lines.map Row.cells, _, _⟩ : Grid α) = some ⟨_, _, _, _⟩
  rw [hlines]
  rfl

theorem ofRows?_grid {o : Row α} {rows : List (Row α)} (h : ∀ r ∈ rows, r.width = o.width)
    (labels : List String) (tol : α) :
    Grid.ofRows? o.cells (rows.map Row.cells) tol = some (ofRows labels o rows tol).grid := by
  have hlen : ∀ l ∈ rows.map Row.cells, l.length = o.cells.length := by
    rw [List.forall_mem_map]
    intro r hr
    rw [Row.length_cells, Row.length_cells, h r hr]
  have hcells : rows.map Row.cells = (rows.map fun r => r.fit o.width).map Row.cells := by
    rw [List.map_map]
    refine List.map_congr_left fun r hr => ?_
    rw [Function.comp_apply, ← h r hr, Row.fit_width]
  rw [Grid.ofRows?, if_pos hlen, ofRows, ← detectBasis?_grid, hcells, Row.length_cells]
  simp only [grid, lines, List.map_cons, List.map_map]
  rfl

theorem fits_ofRows (labels : List String) (o : Row α) (rows : List (Row α)) (tol : α) :
    (ofRows labels o rows tol).Fits o.width where
  width := rfl
  basic b hb c hc := by
    have hmem : some c ∈ (ofRows labels o rows tol).basis := hc ▸ List.mem_map_of_mem hb
    rw [ofRows, basis_detectBasis] at hmem
    obtain ⟨r, -, hr⟩ := List.mem_map.1 hmem
    exact List.mem_range.1 (List.mem_reverse.1 (List.mem_of_find?_eq_some hr))

namespace Fits

theorem pivot {u : Tableau α} (h : t.Fits n) (hp : t.pivot i j = .ok u) : u.Fits n := by
  obtain ⟨rfl, hbasic⟩ := h
  obtain ⟨r, b, hb, rfl, hj, -, rfl⟩ := pivot_ok hp
  refine ⟨width_exchange _, fun d hd c hc => ?_⟩
  obtain ⟨k, hk, rfl⟩ := List.mem_mapIdx.1 hd
  split at hc
  · exact Option.some.inj hc ▸ hj
  · exact hbasic _ (List.getElem_mem hk) c hc

omit [Scalar α] in
theorem removeRow (h : t.Fits n) (r : ℕ) : (t.removeRow r).Fits n :=
  ⟨h.width, fun b hb => h.basic b (List.mem_of_mem_eraseIdx hb)⟩

theorem removeColumns {m : ℕ} {cols : List ℕ} (h : t.Fits (n + m))
    (hcols : ∀ j, j ∈ cols ↔ n ≤ j ∧ j < n + m) (labels : List String) :
    (t.removeColumns cols labels).Fits n := by
  have hkept : t.grid.kept cols = List.range n ++ [n + m] := by
    have hout : n + m ∉ cols := by simp [hcols]
    change (List.range (t.width + 1)).filter _ = _
    rw [h.width, List.range_succ, List.filter_append, filter_range_eq hcols]
    simp [hout]
  have hwidth : (t.removeColumns cols labels).width = n := by
    change (Row.ofCells ((t.grid.kept cols).length - 1) _).width = n
    simp [hkept]
  refine ⟨hwidth, fun b hb c hc => ?_⟩
  obtain ⟨d, hd, rfl⟩ := List.mem_map.1 hb
  obtain ⟨e, he, hi⟩ := Option.bind_eq_some_iff.1 hc
  change (t.grid.kept cols).idxOf? e = some c at hi
  rw [hkept] at hi
  have hget := getElem?_of_idxOf?_concat (h.basic d hd e he).ne hi
  simpa using (List.getElem?_eq_some_iff.1 hget).1

theorem setObjective (h : t.Fits n) (o : Row α) : (t.setObjective o).Fits n :=
  ⟨(width_setObjective t o).trans h.width, h.basic⟩

end Fits

end Tableau

end LinProg
