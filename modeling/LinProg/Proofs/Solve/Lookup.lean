import LinProg.Proofs.Program.Lookup
import LinProg.Proofs.Program.Rows
import LinProg.Proofs.Solve.Driving
import LinProg.Proofs.Solve.Result
import LinProg.Proofs.Tableau.Lookup

namespace LinProg

variable {α : Type} [Scalar α]

namespace Grid

def hasBasic? (g : Grid α) (cols : List ℕ) (r : ℕ) : Option Bool := do
  return (← g.basis[r]?).any cols.contains

def hasPositive? (g : Grid α) (cols : List ℕ) : Option Bool :=
  g.basis.zipIdx.anyM fun col => do
    if col.1.any cols.contains then
      return decide (g.tol < (← g.cell? (col.2 + 1) (g.ncols - 1)))
    else return false

def substitute? (g : Grid α) (cols : List ℕ) (r : ℕ) : Option (Option ℕ) :=
  ((List.range (g.ncols - 1)).filter fun j => !cols.contains j).findM? fun j => do
    return decide (g.tol < Scalar.abs (← g.cell? (r + 1) j))

/-- Looks at the constraint rows from `r` on, and is stuck where there are more than `n` of them. -/
def driveOut? (cols : List ℕ) (n r : ℕ) (g : Grid α) : Guarded (Grid α) :=
  if r < g.basis.length then
    match n with
    | 0 => ExceptT.mk none
    | n + 1 => do
      if ← g.hasBasic? cols r then
        match ← g.substitute? cols r with
        | some j => driveOut? cols n (r + 1) (← ExceptT.mk (g.pivot? (r + 1) j))
        | none => driveOut? cols n r (← g.removeRow? r)
      else driveOut? cols n (r + 1) g
  else return g

def restore? (cols : List ℕ) (o : List α) (g : Grid α) : Guarded (Grid α) := do
  let g ← g.driveOut? cols g.basis.length 0
  let g ← g.removeColumns? cols
  g.setObjective? o

def ascend? (limit used : ℕ) (g : Grid α) : Guarded (Halt × ℕ × Grid α) := do
  match ← g.move? with
  | .optimal => return (.optimal, used, g)
  | .unbounded => return (.unbounded, used, g)
  | .pivot i j =>
    if h : limit ≤ used then throw (.pivotLimit limit)
    else ascend? limit (used + 1) (← ExceptT.mk (g.pivot? i j))
termination_by limit - used

end Grid

def Program.matrix (p : Program α) : List (List α) := p.rows.map Row.cells

def Program.phaseOneRow? (p : Program α) (added : List (Var × ℕ)) : Option (List α) := do
  let total ← added.foldlM (fun o a => put? o a.1.index 1) (List.replicate (p.vars.length + 1) 0)
  added.foldlM (fun o a => do addScaled? (-1) o (← p.matrix[a.2]?)) total

structure GridSolution (α : Type) where
  status : Status
  optimum : Optimum α
  values : List α
  initial : Grid α
  final : Grid α

def Solution.onGrid (sol : Solution α) : GridSolution α :=
  ⟨sol.status, sol.optimum, sol.values, sol.initial.grid, sol.final.grid⟩

namespace Simplex

def conclude? (s : Simplex α) (flipped : Bool) (used : ℕ) (initial g : Grid α) :
    Guarded (GridSolution α) := do
  let (halt, _, g) ← g.ascend? s.limit used
  let values ← g.assignment?
  match halt, flipped with
  | .unbounded, true => return ⟨.unbounded, .minusInfinity, values, initial, g⟩
  | .unbounded, false => return ⟨.unbounded, .plusInfinity, values, initial, g⟩
  | _, true => return ⟨.optimal, .attained (-(← g.cell? 0 (g.ncols - 1))), values, initial, g⟩
  | _, false => return ⟨.optimal, .attained (← g.cell? 0 (g.ncols - 1)), values, initial, g⟩

def twoPhases? (s : Simplex α) (slacks : List (Var × ℕ)) (flipped : Bool) (k : Ledger α) :
    Guarded (GridSolution α) := do
  let (added, q) ← k.augment? (.artificial (slacks.map (·.2)))
  let cols := added.map (·.1.index)
  let initial ← Grid.ofRows? (← q.program.phaseOneRow? added) q.program.matrix s.tolerance
  let (halt, used, g) ← initial.ascend? s.limit 0
  if halt = .unbounded then throw .unboundedPhaseOne
  else if ← g.hasPositive? cols then
    return ⟨.infeasible, .undefined, ← g.assignment?, initial, g⟩
  else s.conclude? flipped used initial (← g.restore? cols k.program.objectiveRow.cells)

/-- A solve with every index looked up. -/
def solve? (s : Simplex α) (l : Ledger α) : Guarded (GridSolution α) := do
  let (slacks, _, flipped, k) ← l.canonicalize?
  if slacks.length < k.program.constraints.length then s.twoPhases? slacks flipped k
  else
    let g ← Grid.ofRows? k.program.objectiveRow.cells k.program.matrix s.tolerance
    s.conclude? flipped 0 g g

end Simplex

@[simp]
theorem Guarded.mk_some {β : Type} (r : Except Fault β) : ExceptT.mk (some r) = of r := rfl

namespace Tableau

variable {t : Tableau α} {i j n r base limit : ℕ} {b : BasicRow α} {cols : List ℕ}

theorem anyM_map {β γ : Type} {e : γ → β} {f : β → Option Bool} {p : γ → Bool} {l : List γ}
    (h : ∀ a ∈ l, f (e a) = some (p a)) : (l.map e).anyM f = some (l.any p) := by
  induction l with
  | nil => rfl
  | cons a l ih =>
      rw [List.map_cons, List.anyM_cons, h a List.mem_cons_self, List.any_cons,
        ih fun b hb => h b (List.mem_cons_of_mem a hb)]
      cases p a with
      | true => rfl
      | false => rfl

theorem findM?_eq {β : Type} {f : β → Option Bool} {p : β → Bool} {l : List β}
    (h : ∀ a ∈ l, f a = some (p a)) : l.findM? f = some (l.find? p) := by
  induction l with
  | nil => rfl
  | cons a l ih =>
      rw [List.findM?, h a List.mem_cons_self, List.find?_cons,
        ih fun b hb => h b (List.mem_cons_of_mem a hb)]
      cases p a with
      | true => rfl
      | false => rfl

omit [Scalar α] in
theorem hasBasic?_grid (h : t.rows[r]? = some b) (cols : List ℕ) :
    t.grid.hasBasic? cols r = some (b.hasBasic cols) := by
  have hb : t.grid.basis[r]? = some b.basic := by simp [grid, basis, h]
  rw [Grid.hasBasic?, hb]
  rfl

theorem hasPositive?_grid (t : Tableau α) (cols : List ℕ) :
    t.grid.hasPositive? cols = some (t.hasPositive cols) := by
  have hrow : ∀ b ∈ t.rows.zipIdx, (do
      if b.1.basic.any cols.contains then
        return decide (t.grid.tol < (← t.grid.cell? (b.2 + 1) (t.grid.ncols - 1)))
      else return false : Option Bool) =
      some (b.1.hasBasic cols && decide (t.tol < b.1.row.rhs)) := fun b hb => by
    have hr : t.rows[b.2]? = some b.1 := List.mk_mem_zipIdx_iff_getElem?.1 hb
    have hw : b.1.row.width = t.width := t.aligned b.1 (List.mem_of_getElem? hr)
    rw [ncols_grid, cell?_succ hr le_rfl, b.1.row.cell_of_le hw.le, BasicRow.hasBasic]
    cases b.1.basic.any cols.contains with
    | true => rfl
    | false => rfl
  rw [Grid.hasPositive?, zipIdx_basis_grid, anyM_map hrow, hasPositive]
  conv_rhs => rw [← List.zipIdx_map_fst 0 t.rows, List.any_map]
  rfl

theorem substitute?_grid (h : t.rows[r]? = some b) (cols : List ℕ) :
    t.grid.substitute? cols r = some ((List.range t.width).find? fun j =>
      !cols.contains j && decide (t.tol < Scalar.abs (b.row.cell j))) := by
  have hcell : ∀ j ∈ (List.range t.width).filter fun j => !cols.contains j, (do
      return decide (t.grid.tol < Scalar.abs (← t.grid.cell? (r + 1) j)) : Option Bool) =
      some (decide (t.tol < Scalar.abs (b.row.cell j))) := fun j hj => by
    rw [cell?_succ h (List.mem_range.1 (List.mem_of_mem_filter hj)).le]
    rfl
  rw [Grid.substitute?, ncols_grid, findM?_eq hcell, List.find?_filter]
  simp

theorem driveOut?_grid (cols : List ℕ) (n r : ℕ) (t : Tableau α) (h : t.rows.length ≤ r + n) :
    t.grid.driveOut? cols n r = .of ((driveOutFrom cols n r t).result.map grid) := by
  -- A step takes one from `n` and either goes on to the next row or drops one, so `h` stays.
  induction n generalizing r t with
  | zero =>
      rw [Grid.driveOut?, length_basis_grid, if_neg (Nat.not_lt.2 (by simpa using h))]
      rfl
  | succ n ih =>
      rw [Grid.driveOut?, length_basis_grid, driveOutFrom]
      cases hb : t.rows[r]? with
      | none =>
          rw [if_neg (Nat.not_lt.2 (List.getElem?_eq_none_iff.1 hb))]
          rfl
      | some b =>
          have hr := (List.getElem?_eq_some_iff.1 hb).1
          rw [if_pos hr]
          simp only [hasBasic?_grid hb, Guarded.lift_some_bind]
          cases b.hasBasic cols with
          | false => exact ih (r + 1) t (by omega)
          | true =>
              simp only [if_true, substitute?_grid hb, Guarded.lift_some_bind]
              cases (List.range t.width).find? fun j =>
                !cols.contains j && decide (t.tol < Scalar.abs (b.row.cell j)) with
              | none =>
                  have hlen : (t.removeRow r).rows.length = t.rows.length - 1 :=
                    List.length_eraseIdx_of_lt hr
                  simp only [removeRow?_grid hr, Guarded.lift_some_bind]
                  rw [ih r (t.removeRow r) (by omega), Logged.result_bind]
                  rfl
              | some j =>
                  simp only [pivot?_grid, Guarded.mk_some, Logged.result_bind, Logged.result_lift]
                  cases hp : t.pivot (r + 1) j with
                  | error f => rfl
                  | ok u => exact ih (r + 1) u (by rw [length_rows_of_pivot hp]; omega)

theorem ascend?_grid (limit base n : ℕ) (done : List (PivotStep α)) (t : Tableau α)
    (h : limit - (base + done.length) = n) :
    t.grid.ascend? limit (base + done.length) =
      .of (((t.ascendFrom done n).verdict limit).map fun a =>
        (a.halt, base + a.steps.length, a.last.grid)) := by
  -- `n` pivots are left: a step moves one of them over to `done`.
  induction n generalizing done t with
  | zero =>
      rw [Grid.ascend?, move?_grid, Guarded.lift_some_bind]
      unfold ascendFrom
      cases t.move with
      | optimal | unbounded =>
          simp only [Ascent.verdict, Except.map, List.length_reverse]
          rfl
      | pivot i j =>
          dsimp only
          rw [dif_pos (by omega)]
          rfl
  | succ n ih =>
      rw [Grid.ascend?, move?_grid, Guarded.lift_some_bind]
      unfold ascendFrom
      cases t.move with
      | optimal | unbounded =>
          simp only [Ascent.verdict, Except.map, List.length_reverse]
          rfl
      | pivot i j =>
          dsimp only
          rw [dif_neg (by omega), pivot?_grid, Guarded.mk_some]
          cases t.pivot i j with
          | error f => rfl
          | ok u => exact ih (⟨i, j, u.value⟩ :: done) u (by rw [List.length_cons]; omega)

theorem Fits.climbs {u : Tableau α} {k : ℕ} (h : t.Fits n) (hc : Climbs k t u) : u.Fits n := by
  induction hc with
  | stay => exact h
  | pivot step _ ih =>
      obtain ⟨i, j, -, hp⟩ := step
      exact ih (h.pivot hp)

theorem Fits.ascend (h : t.Fits n) (budget : ℕ) : (t.ascend budget).last.Fits n := by
  obtain ⟨left, -, hc, -⟩ := climbs_ascend budget t
  exact h.climbs hc

theorem Fits.driveOutFrom (h : t.Fits n) {u : Tableau α} {m : ℕ}
    (hu : (driveOutFrom cols m r t).result = .ok u) : u.Fits n := by
  induction m generalizing r t with
  | zero => exact Except.ok.inj hu ▸ h
  | succ m ih =>
      have hd := drivesOn cols m r t
      rw [hu] at hd
      generalize hx : Except.ok u = x at hd
      cases hd with
      | past => exact Except.ok.inj hx ▸ h
      | pass => exact ih h hx.symm
      | drop => exact ih (h.removeRow r) hx.symm
      | @swap b j =>
          cases hp : t.pivot (r + 1) j with
          | error f =>
              rw [hp] at hx
              cases hx
          | ok v =>
              rw [hp] at hx
              exact ih (h.pivot hp) hx.symm

end Tableau

namespace Program

variable {q : Program α} {added : List (Var × ℕ)}

theorem artificialRow_append (q : Program α) (l : List (Var × ℕ)) (e : Var × ℕ) :
    q.artificialRow (l ++ [e]) = (q.artificialRow l).set e.1.index 1 := by
  ext1
  · refine List.ext_getElem? fun j => ?_
    simp only [artificialRow, Row.set, List.getElem?_set, List.getElem?_map, List.length_map,
      List.length_range, List.any_append, List.any_cons, List.any_nil, Bool.or_false]
    by_cases hj : j < q.vars.length
    · rw [List.getElem?_range hj]
      by_cases he : e.1.index = j
      · simp [hj, he]
      · rw [if_neg he, Option.map_some, Option.map_some, beq_false_of_ne he, Bool.or_false]
    · simp [hj]
      omega
  · rfl

theorem foldlM_put? (h : ∀ e ∈ added, e.1.index < q.vars.length) :
    added.foldlM (fun o a => put? o a.1.index 1) (List.replicate (q.vars.length + 1) 0) =
      some (q.artificialRow added).cells := by
  induction added using List.reverseRecOn with
  | nil => simp [artificialRow, Row.cells, List.map_const', List.replicate_succ']
  | append_singleton l e ih =>
      have he := h e (List.mem_append_right l List.mem_cons_self)
      rw [List.foldlM_append, ih fun a ha => h a (List.mem_append_left _ ha), artificialRow_append,
        ← Row.put?_cells (by rwa [width_artificialRow])]
      simp

theorem phaseOneRow?_eq (h : ∀ e ∈ added, e.1.index < q.vars.length ∧ e.2 < q.constraints.length) :
    q.phaseOneRow? added = some (q.phaseOneRow added).cells := by
  have hrow : ∀ e ∈ added, ∀ o : Row α, o.width = q.vars.length →
      (do addScaled? (-1) o.cells (← q.matrix[e.2]?) : Option (List α)) =
        some (subtractRow q.rows o e).cells := fun e he o ho => by
    have hlt : e.2 < q.rows.length := q.length_rows ▸ (h e he).2
    have hm : q.matrix[e.2]? = some q.rows[e.2].cells := by simp [matrix, hlt]
    rw [hm, subtractRow, List.getElem?_eq_getElem hlt]
    exact Row.addScaled?_cells (ho.trans (width_of_mem_rows _ (List.getElem_mem hlt)).symm) (-1)
  have hfold := foldlM_map_eq (f := fun o e => do addScaled? (-1) o (← q.matrix[e.2]?))
    (fun o : Row α => o.width = q.vars.length) Row.cells (m := fun e => e) (subtractRow q.rows) hrow
    (fun e o ho => (width_subtractRow _ o e).trans ho) (q.width_artificialRow added)
  rw [phaseOneRow?, foldlM_put? fun e he => (h e he).1, phaseOneRow_eq]
  rwa [List.map_id'] at hfold

end Program

namespace Canonical.HasArtificials

variable {k : Canonical α} {q : Program α} {added : List (Var × ℕ)} {t u : Tableau α}

theorem fits_restore (h : k.HasArtificials q added) (ht : t.Fits q.vars.length)
    (hu : (t.restore k.program (added.map (·.1.index))).result = .ok u) :
    u.Fits k.program.vars.length := by
  rw [Tableau.restore, Logged.result_bind] at hu
  cases hv : (t.driveOut (added.map (·.1.index))).result with
  | error e =>
      rw [hv] at hu
      cases hu
  | ok v =>
      rw [hv] at hu
      obtain rfl := Except.ok.inj hu
      rw [h.length_vars] at ht
      exact ((ht.driveOutFrom hv).removeColumns h.mem_cols _).setObjective _

theorem restore?_grid (h : k.HasArtificials q added) (ht : t.Fits q.vars.length) :
    t.grid.restore? (added.map (·.1.index)) k.program.objectiveRow.cells =
      .of ((t.restore k.program (added.map (·.1.index))).result.map Tableau.grid) := by
  have hdrive := Tableau.driveOut?_grid (added.map (·.1.index)) t.rows.length 0 t (by simp)
  rw [Grid.restore?, Tableau.length_basis_grid, hdrive, Tableau.restore, Tableau.driveOut,
    Logged.result_bind]
  cases hv : (Tableau.driveOutFrom (added.map (·.1.index)) t.rows.length 0 t).result with
  | error e => rfl
  | ok v =>
      have hfits : v.Fits q.vars.length := ht.driveOutFrom hv
      have hout := h.width_not_mem_cols hfits.width
      rw [h.length_vars] at hfits
      have hremoved := hfits.removeColumns h.mem_cols k.program.names
      simp only [Except.map, Guarded.of_ok_bind, Tableau.removeColumns?_grid hout k.program.names,
        Guarded.lift_some_bind,
        Tableau.setObjective?_grid hremoved k.program.width_objectiveRow]
      rfl

end Canonical.HasArtificials

namespace Simplex

variable {s : Simplex α} {p : Program α} {n used : ℕ} {flipped : Bool} {initial t : Tableau α}

theorem ascend?_eq (s : Simplex α) (used : ℕ) (t : Tableau α) :
    t.grid.ascend? s.limit used = .of ((s.optimize used t).result.map fun a =>
      (a.halt, used + a.steps.length, a.last.grid)) := by
  rw [result_optimize]
  exact Tableau.ascend?_grid s.limit used _ [] t rfl

theorem conclude?_eq (s : Simplex α) (p : Program α) (flipped : Bool) (used : ℕ)
    (initial : Tableau α) (ht : t.Fits n) :
    s.conclude? flipped used initial.grid t.grid =
      .of ((s.conclude p flipped used initial t).result.map Solution.onGrid) := by
  rw [conclude?, ascend?_eq, conclude, Logged.result_bind]
  cases ho : (s.optimize used t).result with
  | error e => rfl
  | ok a =>
      obtain ⟨rfl, hhalt⟩ := optimize_eq_ok_iff.1 ho
      have hlast : (t.ascend (s.limit - used)).last.Fits n := ht.ascend _
      generalize t.ascend (s.limit - used) = a at hlast hhalt
      obtain ⟨steps, last, halt⟩ := a
      simp only [Except.map, Guarded.of_ok_bind, Tableau.assignment?_grid hlast,
        Guarded.lift_some_bind]
      have hvalue : last.grid.cell? 0 (last.grid.ncols - 1) = some last.value := by
        rw [Tableau.ncols_grid, Tableau.cell?_zero le_rfl]
        exact congrArg some (last.objective.cell_of_le le_rfl)
      simp only [hvalue, Guarded.lift_some_bind]
      rcases hhalt with rfl | rfl
      · cases flipped with
        | true => rfl
        | false => rfl
      · cases flipped with
        | true => rfl
        | false => rfl

theorem twoPhases?_eq (s : Simplex α) {k : Canonical α} {l : Ledger α} (h : l.Sound)
    (hl : l.program = k.program) (hk : p.canonical? = .ok k) (hn : k.needsPhaseOne = true) :
    s.twoPhases? k.slacks k.flipped l = .of ((s.solve p).result.map Solution.onGrid) := by
  obtain ⟨added, q, hq, -, haug⟩ :=
    Ledger.augment?_eq h (Auxiliary.artificial_joins (k.slacks.map (·.2)))
  rw [hl] at haug
  have hart := Canonical.hasArtificials_of_eq haug
  have hrow := Program.phaseOneRow?_eq fun e he => ⟨hart.artificial_lt he, hart.row_lt he⟩
  have hinitial : Grid.ofRows? (q.program.phaseOneRow added).cells q.program.matrix s.tolerance =
      some (q.program.phaseOneTableau added s.tolerance).grid :=
    Tableau.ofRows?_grid (fun row hr => (Program.width_of_mem_rows row hr).trans
      (q.program.width_phaseOneRow added).symm) q.program.names s.tolerance
  have hfits : (q.program.phaseOneTableau added s.tolerance).Fits q.program.vars.length :=
    q.program.width_phaseOneRow added ▸ Tableau.fits_ofRows _ _ _ _
  rw [solve_phaseOne hk hn haug, twoPhases?, hq]
  simp only [Guarded.of_ok_bind, hrow, hinitial, Guarded.lift_some_bind, ascend?_eq]
  cases ha : (s.optimize 0 (q.program.phaseOneTableau added s.tolerance)).result with
  | error e => rfl
  | ok a =>
      have hlast : a.last.Fits q.program.vars.length :=
        (optimize_eq_ok_iff.1 ha).1 ▸ hfits.ascend _
      simp only [Except.map, Guarded.of_ok_bind, ok_bind, proceed]
      split
      · rfl
      · simp only [Tableau.hasPositive?_grid, Guarded.lift_some_bind]
        split
        · simp only [Tableau.assignment?_grid hlast, Guarded.lift_some_bind]
          rfl
        · simp only [hl, hart.restore?_grid hlast]
          cases hr : (a.last.restore k.program (added.map (·.1.index))).result with
          | error e => rfl
          | ok t =>
              simp only [Except.map, Guarded.of_ok_bind, ok_bind, Nat.zero_add]
              exact conclude?_eq s p _ _ _ (hart.fits_restore hlast hr)

/-- A solve never looks past the end of anything, whatever it ends with. -/
theorem solve?_eq (s : Simplex α) {l : Ledger α} (h : l.Sound) :
    s.solve? l = .of ((s.solve l.program).result.map Solution.onGrid) := by
  rw [solve?]
  cases ho : l.program.objective with
  | none =>
      rw [Ledger.canonicalize?_none ho, solve, Logged.result_bind, Logged.result_lift,
        Program.canonical?_none ho]
      rfl
  | some o =>
      obtain ⟨k, t, ht, hs, hp, hk⟩ := Ledger.canonicalize?_eq h ho
      simp only [ht, Guarded.of_ok_bind, hp]
      by_cases hn : k.slacks.length < k.program.constraints.length
      · rw [if_pos hn]
        exact twoPhases?_eq s hs hp hk (decide_eq_true hn)
      · rw [if_neg hn, solve_direct hk (decide_eq_false hn), Program.matrix,
          Tableau.ofRows?_grid (fun row hr => (Program.width_of_mem_rows row hr).trans
            (Program.width_objectiveRow _).symm) k.program.names s.tolerance,
          Guarded.lift_some_bind]
        exact conclude?_eq s _ _ 0 _ (Tableau.fits_ofRows _ _ _ _)

end Simplex

end LinProg
