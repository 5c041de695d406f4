import LinProg.Proofs.Tableau.Lookup
import LinProg.Proofs.Tableau.UnitBasis

namespace LinProg

variable {α β γ : Type}

/-- A computation that writes into a matrix as it goes, and that is stuck where an index points past
the end. Where it fails, what has been written stays. -/
abbrev Writing (α β : Type) := ExceptT Fault (StateT (Grid α) Option) β

namespace Writing

theorem bind_of_ok {x : Writing α β} {f : β → Writing α γ} {g h : Grid α} {b : β}
    (hx : x g = some (.ok b, h)) : (x >>= f) g = f b h := by
  change (x g).bind _ = _
  rw [hx]
  rfl

theorem get_bind (f : Grid α → Writing α β) (g : Grid α) :
    ((get : Writing α (Grid α)) >>= f) g = f g g := rfl

theorem lift_bind {o : Option β} {b : β} (h : o = some b) (f : β → Writing α γ) (g : Grid α) :
    ((liftM o : Writing α β) >>= f) g = f b g := by
  rw [h]
  rfl

end Writing

namespace Grid

def setRow (i : ℕ) (row : List α) : Writing α Unit := do
  let g ← get
  let cells ← (put? g.cells i row : Option (List (List α)))
  set { g with cells }

def setBasic (r j : ℕ) : Writing α Unit := do
  let g ← get
  let basis ← (put? g.basis r (some j) : Option (List (Option ℕ)))
  set { g with basis }

theorem put?_of_lt {l : List β} {i : ℕ} (h : i < l.length) (x : β) :
    put? l i x = some (l.set i x) := if_pos h

theorem setRow_run {g : Grid α} {i : ℕ} (h : i < g.cells.length) (row : List α) :
    setRow i row g = some (.ok (), { g with cells := g.cells.set i row }) := by
  rw [setRow, Writing.get_bind, Writing.lift_bind (put?_of_lt h _)]
  rfl

theorem setBasic_run {g : Grid α} {r : ℕ} (h : r < g.basis.length) (j : ℕ) :
    setBasic r j g = some (.ok (), { g with basis := g.basis.set r (some j) }) := by
  rw [setBasic, Writing.get_bind, Writing.lift_bind (put?_of_lt h _)]
  rfl

variable [Scalar α]

def clearRow (i j : ℕ) (p : List α) (k : ℕ) : Writing α Unit := do
  let g ← get
  if k = i then return
  else
    let row ← (g.cells[k]? : Option (List α))
    let row ← (clear? p j row : Option (List α))
    let row ← (put? row j 0 : Option (List α))
    setRow k row

def pivotInPlace (i j : ℕ) : Writing α Unit := do
  let g ← get
  if i = 0 ∨ g.cells.length ≤ i ∨ g.ncols - 1 ≤ j then throw (.invalidPivot i j)
  else
    let row ← (g.cells[i]? : Option (List α))
    let d ← (row[j]? : Option α)
    if Scalar.abs d ≤ g.tol then throw (.invalidPivot i j)
    else
      setRow i (row.map (· / d))
      let p ← (put? (row.map (· / d)) j 1 : Option (List α))
      setRow i p
      forM (List.range g.cells.length) (clearRow i j p)
      setBasic (i - 1) j

variable {i j : ℕ} {p : Row α} {lines : List (Row α)}

def cleared (i j : ℕ) (p : Row α) (k : ℕ) (l : Row α) : Row α :=
  if k = i then p else (l.clear p j).set j 0

theorem clearRow_run {g : Grid α} {l : Row α} {k : ℕ} (hk : g.cells[k]? = some l.cells)
    (hw : l.width = p.width) (hj : j < p.width) (hi : k = i → l = p) :
    clearRow i j p.cells k g =
      some (.ok (), { g with cells := g.cells.set k (cleared i j p k l).cells }) := by
  obtain ⟨hlt, hget⟩ := List.getElem?_eq_some_iff.1 hk
  rw [clearRow, Writing.get_bind, cleared]
  split
  · next hki =>
      rw [← hi hki, ← hget, List.set_getElem_self]
      rfl
  · rw [Writing.lift_bind hk, Writing.lift_bind (Row.clear?_cells hw (hw ▸ hj)),
      Writing.lift_bind (Row.put?_cells (by rwa [Row.width_clear, hw]) 0), setRow_run hlt]

/-- The rows on the way: the first `n` and the pivot row are done. -/
def sweptTo (n i j : ℕ) (p : Row α) (lines : List (Row α)) : List (Row α) :=
  lines.mapIdx fun k l => if k < n ∨ k = i then cleared i j p k l else l

theorem set_sweptTo {n : ℕ} (h : n < lines.length) :
    (sweptTo n i j p lines).set n (cleared i j p n lines[n]) = sweptTo (n + 1) i j p lines := by
  refine List.ext_getElem? fun k => ?_
  rw [List.getElem?_set, sweptTo, sweptTo, List.getElem?_mapIdx, List.getElem?_mapIdx,
    List.length_mapIdx]
  by_cases hk : n = k
  · subst hk
    simp [h]
  · have hiff : k < n + 1 ↔ k < n := by omega
    rw [if_neg hk]
    simp only [hiff]

theorem forM_clearRow (hw : ∀ l ∈ lines, l.width = p.width) (hj : j < p.width) {n : ℕ}
    (hn : n ≤ lines.length) {g : Grid α} (hg : g.cells = (sweptTo 0 i j p lines).map Row.cells) :
    forM (List.range n) (clearRow i j p.cells) g =
      some (.ok (), { g with cells := (sweptTo n i j p lines).map Row.cells }) := by
  induction n with
  | zero =>
      rw [← hg]
      rfl
  | succ n ih =>
      have hget : (sweptTo n i j p lines)[n]? = some (if n = i then p else lines[n]) := by
        simp only [sweptTo, List.getElem?_mapIdx, List.getElem?_eq_getElem hn, Option.map_some,
          lt_irrefl, false_or, cleared]
        split
        · rfl
        · rfl
      have hwidth : (if n = i then p else lines[n]).width = p.width := by
        split
        · rfl
        · exact hw _ (List.getElem_mem hn)
      -- The pivot row stands there already, and is not cleared with itself.
      have hcleared : cleared i j p n (if n = i then p else lines[n]) =
          cleared i j p n lines[n] := by
        simp only [cleared]
        split
        · rfl
        · rfl
      have hrun := clearRow_run (g := { g with cells := (sweptTo n i j p lines).map Row.cells })
        (by rw [List.getElem?_map, hget]; rfl) hwidth hj fun h => if_pos h
      rw [hcleared, ← List.map_set, set_sweptTo hn] at hrun
      rw [List.range_succ, List.forM_append, Writing.bind_of_ok (ih (Nat.le_of_succ_le hn)),
        List.forM_cons, Writing.bind_of_ok hrun]
      rfl

end Grid

namespace Tableau

variable [Scalar α] {t : Tableau α} {i j r : ℕ} {b : BasicRow α}

open Grid

theorem lines_exchange_eq_sweptTo (hb : b ∈ t.rows) :
    (t.exchange r j b hb).lines =
      sweptTo t.lines.length (r + 1) j ((b.row.divide (b.row.cell j)).set j 1) t.lines := by
  rw [lines_exchange hb]
  refine List.ext_getElem? fun k => ?_
  simp only [sweptTo, List.getElem?_map, List.getElem?_zipIdx, List.getElem?_mapIdx]
  cases hk : t.lines[k]? with
  | none => rfl
  | some l =>
      have hlt := (List.getElem?_eq_some_iff.1 hk).1
      simp [hlt, cleared]

theorem set_cells_grid (t : Tableau α) (i j : ℕ) (p : Row α) :
    t.grid.cells.set i p.cells = (sweptTo 0 i j p t.lines).map Row.cells := by
  rw [grid, ← List.map_set]
  refine congrArg (List.map Row.cells) (List.ext_getElem? fun k => ?_)
  rw [List.getElem?_set, sweptTo, List.getElem?_mapIdx]
  by_cases hk : i = k
  · subst hk
    cases hl : t.lines[i]? with
    | none => simp [List.getElem?_eq_none_iff.1 hl]
    | some l => simp [(List.getElem?_eq_some_iff.1 hl).1, cleared]
  · simp [hk, Ne.symm hk]

theorem pivotInPlace_of_row (hb : t.rows[r]? = some b) (hj : j < t.width) :
    pivotInPlace (r + 1) j t.grid =
      if Scalar.abs (b.row.cell j) ≤ t.tol then some (.error (.invalidPivot (r + 1) j), t.grid)
      else some (.ok (), (t.exchange r j b (List.mem_of_getElem? hb)).grid) := by
  have hr := (List.getElem?_eq_some_iff.1 hb).1
  have hw : b.row.width = t.width := t.aligned b (List.mem_of_getElem? hb)
  have hcond : ¬ (r + 1 = 0 ∨ t.grid.cells.length ≤ r + 1 ∨ t.grid.ncols - 1 ≤ j) := by
    rw [length_cells_grid, ncols_grid]
    omega
  have hd : b.row.cells[j]? = some (b.row.cell j) := Row.getElem?_cells (hw ▸ hj.le)
  have htol : t.grid.tol = t.tol := rfl
  rw [pivotInPlace, Writing.get_bind, if_neg hcond, Writing.lift_bind (getElem?_cells_grid hb),
    Writing.lift_bind hd, htol]
  split
  · rfl
  · have hlt : r + 1 < t.grid.cells.length := t.length_cells_grid ▸ Nat.succ_lt_succ hr
    obtain ⟨p, hpe⟩ : ∃ p, p = (b.row.divide (b.row.cell j)).set j 1 := ⟨_, rfl⟩
    have hpw : p.width = t.width := by rw [hpe, Row.width_set, Row.width_divide, hw]
    have hp : put? (b.row.cells.map (· / b.row.cell j)) j 1 = some p.cells := by
      rw [hpe, ← Row.cells_divide]
      exact Row.put?_cells (by rwa [Row.width_divide, hw]) 1
    have hlen : t.grid.cells.length = t.lines.length := List.length_map _
    have hsweep := forM_clearRow (fun l hl => (width_of_mem_lines hl).trans hpw.symm) (hpw ▸ hj)
      le_rfl (g := { t.grid with cells := t.grid.cells.set (r + 1) p.cells })
      (set_cells_grid t (r + 1) j p)
    have hbasis : r < t.grid.basis.length := t.length_basis_grid ▸ hr
    rw [Writing.bind_of_ok (setRow_run hlt _), Writing.lift_bind hp,
      Writing.bind_of_ok (setRow_run (by rwa [List.length_set]) _), List.set_set, hlen,
      Writing.bind_of_ok hsweep, Nat.add_sub_cancel]
    refine (setBasic_run ?_ j).trans ?_
    · exact hbasis
    · simp only [grid, width_exchange, basis_exchange hb, lines_exchange_eq_sweptTo, hpe]
      rfl

/-- The objective row, a row past the end, a column that is no variable's, or an entry that counts
as 0. -/
def Refuses (t : Tableau α) (i j : ℕ) : Prop :=
  i = 0 ∨ t.rows.length < i ∨ t.width ≤ j ∨
    ∃ b, t.rows[i - 1]? = some b ∧ Scalar.abs (b.row.cell j) ≤ t.tol

inductive Ends (t : Tableau α) (i j : ℕ) : Prop
  | refused (refuses : t.Refuses i j) (pivot : t.pivot i j = .error (.invalidPivot i j))
      (run : pivotInPlace i j t.grid = some (.error (.invalidPivot i j), t.grid))
  | succeeds {u : Tableau α} (admits : ¬ t.Refuses i j) (pivot : t.pivot i j = .ok u)
      (run : pivotInPlace i j t.grid = some (.ok (), u.grid))

theorem refuses_succ (hb : t.rows[r]? = some b) (j : ℕ) :
    t.Refuses (r + 1) j ↔ t.width ≤ j ∨ Scalar.abs (b.row.cell j) ≤ t.tol := by
  have hr := (List.getElem?_eq_some_iff.1 hb).1
  have hlen : ¬ t.rows.length < r + 1 := by omega
  simp [Refuses, hlen, hb]

theorem pivotInPlace_refused (h : i = 0 ∨ t.rows.length < i ∨ t.width ≤ j) :
    pivotInPlace i j t.grid = some (.error (.invalidPivot i j), t.grid) := by
  have hcond : i = 0 ∨ t.grid.cells.length ≤ i ∨ t.grid.ncols - 1 ≤ j := by
    rw [length_cells_grid, ncols_grid]
    exact h
  rw [pivotInPlace, Writing.get_bind, if_pos hcond]
  rfl

theorem ends (t : Tableau α) (i j : ℕ) : t.Ends i j := by
  cases i with
  | zero => exact .refused (.inl rfl) rfl (pivotInPlace_refused (.inl rfl))
  | succ r =>
      cases hb : t.rows[r]? with
      | none =>
          have hr : t.rows.length < r + 1 := Nat.lt_succ_of_le (List.getElem?_eq_none_iff.1 hb)
          exact .refused (.inr (.inl hr)) (pivot_of_none hb j) (pivotInPlace_refused (.inr (.inl hr)))
      | some b =>
          by_cases hj : t.width ≤ j
          · refine .refused (.inr (.inr (.inl hj))) ?_ (pivotInPlace_refused (.inr (.inr hj)))
            rw [pivot_of_row hb, if_pos (.inl hj)]
          · have hrun := pivotInPlace_of_row hb (Nat.not_le.1 hj)
            by_cases he : Scalar.abs (b.row.cell j) ≤ t.tol
            · rw [if_pos he] at hrun
              refine .refused ((refuses_succ hb j).2 (.inr he)) ?_ hrun
              rw [pivot_of_row hb, if_pos (.inr he)]
            · rw [if_neg he] at hrun
              have hno := not_or.2 ⟨hj, he⟩
              refine .succeeds (mt (refuses_succ hb j).1 hno) ?_ hrun
              rw [pivot_of_row hb, if_neg hno]

end Tableau

namespace Grid

variable [Scalar α]

def pivotsInPlace (g : Grid α) (calls : List (ℕ × ℕ)) : Option (Grid α) :=
  calls.foldlM (fun g c => (pivotInPlace c.1 c.2 g).map (·.2)) g

end Grid

namespace Tableau

variable {t u : Tableau ℚ} {i j : ℕ}

structure Preserves (t u : Tableau ℚ) : Prop where
  tol : u.tol = t.tol
  equivalent : t.Equivalent u
  hasUnitBasis : t.HasUnitBasis → u.HasUnitBasis

theorem Preserves.trans {v : Tableau ℚ} (h : t.Preserves u) (k : u.Preserves v) : t.Preserves v :=
  ⟨k.tol.trans h.tol, h.equivalent.trans k.equivalent, k.hasUnitBasis ∘ h.hasUnitBasis⟩

theorem preserves_of_pivot (h0 : 0 ≤ t.tol) (h : t.pivot i j = .ok u) : t.Preserves u := by
  obtain ⟨r, b, -, hx⟩ := exchanged_of_pivot h0 h
  exact ⟨hx.tol, hx.equivalent h0, hx.hasUnitBasis h0⟩

theorem preserves_of_ends (h0 : 0 ≤ t.tol) (h : t.Ends i j) :
    ∃ u, (Grid.pivotInPlace i j t.grid).map (·.2) = some u.grid ∧ t.Preserves u := by
  cases h with
  | refused _ _ run => exact ⟨t, by rw [run]; rfl, rfl, .refl t, id⟩
  | succeeds _ pivot run => exact ⟨_, by rw [run]; rfl, preserves_of_pivot h0 pivot⟩

theorem preserves_of_calls (h0 : 0 ≤ t.tol) (calls : List (ℕ × ℕ)) :
    ∃ u, t.grid.pivotsInPlace calls = some u.grid ∧ t.Preserves u := by
  induction calls generalizing t with
  | nil => exact ⟨t, rfl, rfl, .refl t, id⟩
  | cons c calls ih =>
      obtain ⟨u, hu, hk⟩ := preserves_of_ends h0 (t.ends c.1 c.2)
      obtain ⟨v, hv, hk'⟩ := ih (t := u) (hk.tol ▸ h0)
      refine ⟨v, ?_, hk.trans hk'⟩
      rw [Grid.pivotsInPlace, List.foldlM_cons, hu]
      exact hv

/-- However a tableau is pivoted, each call is refused and changes nothing, exactly where it has to
be, or it succeeds, and in the end the rows have the solutions they had, with the same values of the
objective. From a unit basis the assignment read off solves the rows at the start, and the corner is
the value there of the objective at the start. -/
theorem equivalent_of_calls (t : Tableau ℚ) (h0 : 0 ≤ t.tol) (calls : List (ℕ × ℕ)) :
    ∃ u : Tableau ℚ, t.grid.pivotsInPlace calls = some u.grid ∧
      (∀ i j, (u.Refuses i j ∧
          Grid.pivotInPlace i j u.grid = some (.error (.invalidPivot i j), u.grid)) ∨
        (¬ u.Refuses i j ∧ ∃ v, u.pivot i j = .ok v ∧
          Grid.pivotInPlace i j u.grid = some (.ok (), v.grid))) ∧
      t.Equivalent u ∧
      (t.HasUnitBasis → u.HasUnitBasis ∧ u.grid.assignment? = some u.assignment ∧
        t.Solves (valuation u.assignment) ∧
        u.value = t.objective.residual (valuation u.assignment)) := by
  obtain ⟨u, hu, hk⟩ := preserves_of_calls h0 calls
  refine ⟨u, hu, fun i j => ?_, hk.equivalent, fun ht => ?_⟩
  · cases u.ends i j with
    | refused refuses _ run => exact .inl ⟨refuses, run⟩
    | succeeds admits pivot run => exact .inr ⟨admits, _, pivot, run⟩
  · have hub := hk.hasUnitBasis ht
    have hsolves : t.Solves u.point := (hk.equivalent _).1.1 (solves_point hub)
    refine ⟨hub, assignment?_grid ⟨rfl, fun b hb c hc => ?_⟩, hsolves, ?_⟩
    · exact hub.lt_of_mem_basis (hc ▸ List.mem_map_of_mem hb)
    · rw [← residual_point hub]
      exact (hk.equivalent _).2 hsolves

theorem equivalent_of_calls_even : ∃ t u : Tableau ℚ,
    t = ⟨["x", "s"], ⟨[-1, 0], 0⟩, [⟨some 1, ⟨[2, 1], 8⟩⟩], 0, by decide⟩ ∧
    t.grid.pivotsInPlace [(0, 0), (1, 0), (1, 2)] = some u.grid ∧ t.Equivalent u ∧
    u.HasUnitBasis ∧ u.assignment = [4, 0] ∧ u.value = 4 := by
  obtain ⟨t, ht⟩ : ∃ t : Tableau ℚ,
    t = ⟨["x", "s"], ⟨[-1, 0], 0⟩, [⟨some 1, ⟨[2, 1], 8⟩⟩], 0, by decide⟩ := ⟨_, rfl⟩
  have hrun : (t.grid.pivotsInPlace [(0, 0), (1, 0), (1, 2)]).bind Grid.assignment? =
      some [4, 0] := by
    rw [ht]
    decide +kernel
  have hunit : t.HasUnitBasis := by
    intro r b hb
    have hr : r = 0 := by
      have := (List.getElem?_eq_some_iff.1 hb).1
      rw [ht] at this
      exact Nat.lt_one_iff.1 this
    rw [ht, hr] at hb
    obtain rfl := Option.some.inj hb
    refine ⟨1, rfl, ?_⟩
    rw [ht, hr]
    refine ⟨by decide, rfl, fun k c hc => ?_⟩
    obtain ⟨hk, rfl⟩ := List.getElem?_eq_some_iff.1 hc
    obtain rfl := Nat.lt_one_iff.1 hk
    rfl
  obtain ⟨u, hu, -, heq, hread⟩ :=
    equivalent_of_calls t (ht ▸ le_rfl) [(0, 0), (1, 0), (1, 2)]
  obtain ⟨hub, ha, -, hv⟩ := hread hunit
  have hassign : u.assignment = [4, 0] := by
    rw [hu, Option.bind_some, ha] at hrun
    exact Option.some.inj hrun
  refine ⟨t, u, ht, hu, heq, hub, hassign, ?_⟩
  rw [hv, hassign, ht]
  decide +kernel

end Tableau

end LinProg
