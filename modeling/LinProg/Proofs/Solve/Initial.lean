import LinProg.Proofs.Program.Bookkeeping
import LinProg.Proofs.Program.Evaluation
import LinProg.Proofs.Solve.Endings
import LinProg.Proofs.Solve.Start

namespace LinProg

structure Tableau.Encodes (t : Tableau ℚ) (q : Program ℚ) : Prop where
  labels : t.labels = q.names
  width : t.width = q.vars.length
  length_rows : t.rows.length = q.constraints.length
  cell : ∀ (i : ℕ) (c : Constraint ℚ), q.constraints[i]? = some c → ∃ b, t.rows[i]? = some b ∧
    b.row.rhs = c.bound ∧ ∀ (j : ℕ) v, q.vars[j]? = some v → b.row.cell j = c.expr.coefficient v

namespace Program

variable {q : Program ℚ}

theorem Consistent.encodes_ofRows (hq : q.Consistent) (tol : ℚ) {z : Row ℚ}
    (hz : z.width = q.vars.length) : (Tableau.ofRows q.names z q.rows tol).Encodes q := by
  have hmap := Tableau.map_row_ofRows q.names tol (hz.symm ▸ q.width_of_mem_rows)
  refine ⟨rfl, hz, ?_, fun i c hc => ?_⟩
  · rw [← List.length_map (·.row), hmap, q.length_rows]
  · have hrow : q.rows[i]? = some ⟨c.expr.dense q.vars.length, c.bound⟩ := by
      rw [rows, List.getElem?_map, hc]
      rfl
    rw [← hmap, List.getElem?_map, Option.map_eq_some_iff] at hrow
    obtain ⟨b, hb, hbr⟩ := hrow
    refine ⟨b, hb, by rw [hbr], fun j v hv => ?_⟩
    rw [hbr, Row.cell_dense _ _ (List.getElem?_eq_some_iff.1 hv).1]
    exact (hq.coefficient_of_owns (hq.constraints c (List.mem_of_getElem? hc)) hv).symm

end Program

theorem sum_range_mem {cols : List ℕ} {n : ℕ} (hn : cols.Nodup) (hlt : ∀ j ∈ cols, j < n)
    (x : ℕ → ℚ) :
    ∑ j ∈ Finset.range n, (if j ∈ cols then 1 else 0) * x j = (cols.map x).sum := by
  have hsub : cols.toFinset ⊆ Finset.range n := fun j hj =>
    Finset.mem_range.2 (hlt j (List.mem_toFinset.1 hj))
  rw [← List.sum_toFinset x hn, ← Finset.sum_subset hsub fun j _ hj => ?_]
  · exact Finset.sum_congr rfl fun j hj => by rw [if_pos (List.mem_toFinset.1 hj), one_mul]
  · rw [if_neg fun h => hj (List.mem_toFinset.2 h), zero_mul]

namespace Canonical.HasArtificials

variable {k : Canonical ℚ} {q : Program ℚ} {added : List (Var × ℕ)} {tol : ℚ} {x : ℕ → ℚ}

theorem nodup_cols (h : k.HasArtificials q added) : (added.map (·.1.index)).Nodup := by
  rw [List.nodup_iff_getElem?_ne_getElem?]
  intro i j hij hj he
  rw [List.length_map] at hj
  have hi := List.getElem?_eq_getElem (hij.trans hj)
  have hj := List.getElem?_eq_getElem hj
  rw [List.getElem?_map, List.getElem?_map, hi, hj, Option.map_some, Option.map_some,
    (h.entered.position hi).1, (h.entered.position hj).1] at he
  have he := Option.some.inj he
  omega

theorem sum_cols (h : k.HasArtificials q added) (x : ℕ → ℚ) :
    ∑ j ∈ Finset.range q.vars.length, (if j ∈ added.map (·.1.index) then 1 else 0) * x j =
      (added.map fun e => x e.1.index).sum := by
  rw [sum_range_mem h.nodup_cols, List.map_map]
  · rfl
  · intro j hj
    obtain ⟨e, he, rfl⟩ := List.mem_map.1 hj
    exact h.artificial_lt he

theorem residual_phaseOneTableau (h : k.HasArtificials q added)
    (hx : (q.phaseOneTableau added tol).Solves x) :
    (q.phaseOneTableau added tol).objective.residual x =
      -(added.map fun e => x e.1.index).sum := by
  have hany (j : ℕ) : added.any (·.1.index == j) = true ↔ j ∈ added.map (·.1.index) := by
    simp only [List.any_eq_true, List.mem_map, beq_iff_eq]
  have hrow := Program.residual_phaseOneRow ((q.solves_phaseOneTableau added tol).1 hx) added
  simp only [hany, h.sum_cols] at hrow
  exact hrow

end Canonical.HasArtificials

namespace Simplex

variable {s : Simplex ℚ} {p : Program ℚ} {o : Objective ℚ}

/-- Where a solve begins: at the slacks if every row has one, else at the slacks and the artificial
variables. -/
inductive Begins (s : Simplex ℚ) (p : Program ℚ) (t : Tableau ℚ) : Prop
  | direct {k : Canonical ℚ} {o : Objective ℚ} (canonical : p.canonical? = .ok k)
      (needs : k.needsPhaseOne = false) (eq : t = k.program.tableau s.tolerance)
      (encodes : t.Encodes k.program)
      (basis : ∀ i < t.rows.length, ∃ v, (v, i) ∈ k.slacks ∧ t.basis[i]? = some (some v.index))
      (maximum : k.program.objective = some o)
      (objective : ∀ x, x.length = k.program.vars.length →
        k.program.eval o.expr x = .ok (t.objective.residual (valuation x)))
  | phaseOne {k : Canonical ℚ} {q : Program ℚ} {added : List (Var × ℕ)}
      (canonical : p.canonical? = .ok k) (needs : k.needsPhaseOne = true)
      (artificials : k.withArtificials = .ok (q, added))
      (eq : t = q.phaseOneTableau added s.tolerance) (encodes : t.Encodes q)
      (basis : ∀ i < t.rows.length,
        (∃ v, (v, i) ∈ k.slacks ∧ t.basis[i]? = some (some v.index)) ∨
        (¬ ∃ v, (v, i) ∈ k.slacks) ∧ ∃ v, (v, i) ∈ added ∧ t.basis[i]? = some (some v.index))
      (objective : ∀ x, t.Solves x →
        t.objective.residual x = -(added.map fun e => x e.1.index).sum)
      (cleared : ∀ c, some c ∈ t.basis → t.objective.cell c = 0)

theorem Begins.eq_tableau {t : Tableau ℚ} {k : Canonical ℚ} (h : s.Begins p t)
    (hk : p.canonical? = .ok k) (hn : k.needsPhaseOne = false) :
    t = k.program.tableau s.tolerance := by
  cases h with
  | direct canonical _ eq =>
      obtain rfl := Except.ok.inj (hk.symm.trans canonical)
      exact eq
  | phaseOne canonical needs =>
      obtain rfl := Except.ok.inj (hk.symm.trans canonical)
      cases needs.symm.trans hn

theorem Begins.eq_phaseOneTableau {t : Tableau ℚ} {k : Canonical ℚ} {q : Program ℚ}
    {added : List (Var × ℕ)} (h : s.Begins p t) (hk : p.canonical? = .ok k)
    (hn : k.needsPhaseOne = true) (hq : k.withArtificials = .ok (q, added)) :
    t = q.phaseOneTableau added s.tolerance := by
  cases h with
  | direct canonical needs =>
      obtain rfl := Except.ok.inj (hk.symm.trans canonical)
      cases needs.symm.trans hn
  | phaseOne canonical _ artificials eq =>
      obtain rfl := Except.ok.inj (hk.symm.trans canonical)
      obtain ⟨rfl, rfl⟩ := Prod.mk.inj (Except.ok.inj (hq.symm.trans artificials))
      exact eq

variable (h0 : 0 ≤ s.tolerance) (h1 : s.tolerance < 1) (hp : p.Valid) (ho : p.objective = some o)

include h0 h1 hp ho

theorem begins_direct {k : Canonical ℚ} (hk : p.canonical? = .ok k) (hn : k.needsPhaseOne = false) :
    s.Begins p (k.program.tableau s.tolerance) := by
  have h := Program.hasCanonical_of_eq ho hk
  have hw := Program.width_objectiveRow k.program
  have hencodes := (hp.toConsistent.canonical ho hk).encodes_ofRows s.tolerance hw
  refine .direct hk hn rfl hencodes (fun i hi => ?_) h.objective fun x hx => ?_
  · obtain ⟨e, he, rfl⟩ := h.exists_slack hn (hencodes.length_rows ▸ hi)
    have hlast := h.lastUnit_slack hp ho he
    exact ⟨e.1, he, hlast.basis h0 h1 (hw.symm ▸ Program.width_of_mem_rows) hi⟩
  · have hwithin := (Program.HasCanonical.within_objective hp ho).mono h.length_le
    rw [Program.eval_eq hwithin hx]
    exact congrArg _ (h.residual_objectiveRow hp ho _).symm

theorem begins_phaseOne {k : Canonical ℚ} {q : Program ℚ} {added : List (Var × ℕ)}
    (hk : p.canonical? = .ok k) (hn : k.needsPhaseOne = true)
    (hq : k.withArtificials = .ok (q, added)) :
    s.Begins p (q.phaseOneTableau added s.tolerance) := by
  have h := Program.hasCanonical_of_eq ho hk
  have ha := Canonical.hasArtificials_of_eq hq
  have hw := q.width_phaseOneRow added
  have hrows : ∀ row ∈ q.rows, row.width = (q.phaseOneRow added).width :=
    hw.symm ▸ Program.width_of_mem_rows
  have hcons := (hp.toConsistent.canonical ho hk).withArtificials hq
  have hencodes := hcons.encodes_ofRows s.tolerance hw
  refine .phaseOne hk hn hq rfl hencodes (fun i hi => ?_) (fun x hx => ?_) fun c hc => ?_
  · rcases ha.exists_entry (hencodes.length_rows ▸ hi) with ⟨e, he, rfl⟩ | ⟨e, he, rfl⟩
    · exact .inl ⟨e.1, he, (ha.lastUnit_slack h hp he).basis h0 h1 hrows hi⟩
    · refine .inr ⟨?_, e.1, he, (ha.lastUnit_artificial (h.standard hp) he).basis h0 h1 hrows hi⟩
      rintro ⟨v, hv⟩
      exact ha.row_ne hv he rfl
  · exact ha.residual_phaseOneTableau hx
  · obtain ⟨b, hb, hbc⟩ := List.mem_map.1 hc
    obtain ⟨r, hr⟩ := List.getElem?_of_mem hb
    exact ((ha.hasUnitBasis_phaseOneTableau h hp h0 h1).unitIn hr hbc).2.1

omit h0 h1 hp ho

/-- A solve begins at a tableau that has the coefficients and bounds of the canonical form, extended
for phase one where it is needed. Its basis is detected to be the slack of each row, or the
artificial variable of a row without one, whatever unit columns there are besides. Row 0 states the
objective at every point, in phase one the sum of the artificial variables at every solution. -/
theorem begins_of_solve (h0 : 0 ≤ s.tolerance) (h1 : s.tolerance < 1) (hp : p.Valid)
    (ho : p.objective = some o) :
    ∃ t, s.Begins p t ∧ ∀ sol, (s.solve p).result = .ok sol → sol.initial = t := by
  obtain ⟨k, hk, -⟩ := Program.canonical?_eq ho
  have hinitial {first : Phase} {t : Tableau ℚ} (ht : p.Starts s.tolerance first t)
      (sol : Solution ℚ) (hsol : (s.solve p).result = .ok sol) : sol.initial = t := by
    obtain ⟨first', hi⟩ := starts_initial hsol
    exact (hi.unique ht).2
  cases hn : k.needsPhaseOne with
  | false => exact ⟨_, begins_direct h0 h1 hp ho hk hn, hinitial (.two hk hn)⟩
  | true =>
      obtain ⟨q, added, hq, -⟩ := k.withArtificials_eq
      exact ⟨_, begins_phaseOne h0 h1 hp ho hk hn hq, hinitial (.one hk hn hq)⟩

end Simplex

def Program.idle : Program ℚ where
  name := "idle"
  id := 0
  vars := [⟨"x", 0, 0⟩]
  constraints := [⟨.ofTerms [(⟨"x", 0, 0⟩, 1)] 0, .le, 4, 0⟩]
  objective := some ⟨.const 3, .max⟩

/-- The slack is basic though the column of `x` is a unit vector as well. Where a row has a surplus
or is an equation, the artificial variable is basic, and row 0 is cleared of it. -/
theorem Simplex.begins_of_solve_idle :
    (∃ t, (⟨1 / 2, 0⟩ : Simplex ℚ).Begins .idle t ∧ t.UnitIn 0 0 ∧ t.basis = [some 1]) ∧
    ∃ t, (⟨1 / 2, 0⟩ : Simplex ℚ).Begins .blend t ∧ t.basis = [some 2, some 4, some 5] ∧
      t.objective.cells = [-2, -3, 0, 1, 0, 0, -6] := by
  have hidle : (Program.idle.canonical?.toOption.map fun k =>
      (k.needsPhaseOne, (k.program.tableau (1 / 2)).width,
        (k.program.tableau (1 / 2)).column 0, (k.program.tableau (1 / 2)).basis)) =
      some (false, 2, [0, 1], [some 1]) := by
    decide +kernel
  have hblend : ((Program.blend.canonical? >>= fun k => k.withArtificials.map (k.needsPhaseOne, ·)
      ).toOption.map fun x => (x.1, (x.2.1.phaseOneTableau x.2.2 (1 / 2)).basis,
        (x.2.1.phaseOneTableau x.2.2 (1 / 2)).objective.cells)) =
      some (true, [some 2, some 4, some 5], [-2, -3, 0, 1, 0, 0, -6]) := by
    decide +kernel
  constructor
  · obtain ⟨t, ht, -⟩ := begins_of_solve (s := ⟨1 / 2, 0⟩) (by norm_num) (by norm_num)
      (p := .idle) (by decide) rfl
    obtain ⟨k, hk, hs⟩ := exists_ok_of_map_toOption hidle
    simp only [Prod.mk.injEq] at hs
    obtain ⟨hn, hwidth, hcolumn, hbasis⟩ := hs
    obtain ⟨hobj, hcells⟩ := List.cons_eq_cons.1 hcolumn
    refine ⟨t, ht, ?_⟩
    rw [ht.eq_tableau hk hn]
    refine ⟨⟨hwidth ▸ Nat.two_pos, hobj, fun r b hb => ?_⟩, hbasis⟩
    have hcell := congrArg (·[r]?) hcells
    simp only [List.getElem?_map, hb, Option.map_some] at hcell
    obtain ⟨hr, hcell⟩ := List.getElem?_eq_some_iff.1 hcell.symm
    obtain rfl := Nat.lt_one_iff.1 hr
    exact hcell.symm
  · obtain ⟨t, ht, -⟩ := begins_of_solve (s := ⟨1 / 2, 0⟩) (by norm_num) (by norm_num)
      Program.blend_valid rfl
    obtain ⟨k, hk, -⟩ := Program.canonical?_eq (p := Program.blend) rfl
    obtain ⟨q, added, hq, -⟩ := k.withArtificials_eq
    rw [hk, ok_bind, hq] at hblend
    obtain ⟨hn, hs⟩ := Prod.mk.inj (Option.some.inj hblend)
    refine ⟨t, ht, ?_⟩
    rw [ht.eq_phaseOneTableau hk hn hq]
    exact Prod.mk.inj hs

end LinProg
