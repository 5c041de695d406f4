import LinProg.Proofs.Solve.Visits

namespace LinProg

theorem Tableau.Depicts.satisfied_iff {p : Program ℚ} {o : Objective ℚ} {k : Canonical ℚ}
    {t : Tableau ℚ} (h : t.Depicts k.program o.simplify.orient) (hk : p.HasCanonical o k)
    (hp : p.Valid) {v : List ℚ} (hv : v.length = k.program.vars.length) :
    t.Solves (valuation v) ↔ k.program.Satisfied v := by
  rw [h.solves, Program.satisfied_iff (hk.within hp) hv]
  apply forall_congr'
  intro c
  apply forall_congr'
  intro hc
  exact (Constraint.holds_iff_gap (hk.relation_eq c hc)).symm

namespace Simplex

variable {s : Simplex ℚ} {p : Program ℚ} {o : Objective ℚ} {k : Canonical ℚ}
variable {cols : List ℕ} {n : ℕ} {t : Tableau ℚ}

/-- The hand-over to phase two loses nothing: the columns left are those of the canonical form, in
its order, the basic solution is that of phase one without the artificial variables, and the rows
left have the solutions of the canonical form, each with its value of the objective. -/
theorem restore_of_handsOver (hs : s.tolerance = 0) (hp : p.Valid) (ho : p.objective = some o)
    (h : s.HandsOver p k cols n t) :
    ∃ u, (t.restore k.program cols).result = .ok u ∧
      t.kept cols = List.range k.program.vars.length ∧ u.width = k.program.vars.length ∧
      u.labels = k.program.names ∧ u.RhsNonneg ∧
      u.assignment = (t.assignment.zipIdx.filter fun e => !cols.contains e.2).map (·.1) ∧
      ∃ e, k.program.objective = some e ∧ ∀ v, v.length = k.program.vars.length →
        (u.Solves (valuation v) ↔ k.program.Satisfied v) ∧
        (u.Solves (valuation v) →
          k.program.eval e.expr v = .ok (u.objective.residual (valuation v))) := by
  obtain ⟨m, w, hw, -⟩ := t.exists_restore k.program cols
  obtain ⟨ht, hu, hpoint, hd⟩ := h.restored hs hp ho hw
  obtain ⟨-, -, q, added, ha, rfl, hwidth, -⟩ := h.based hs.ge (hs.trans_lt one_pos) hp ho
  have hc := Program.hasCanonical_of_eq ho h.reached.1
  have hkept := ha.kept_cols hwidth
  refine ⟨_, hw, hkept, hd.width, rfl, hu.nonneg, ?_, _, hc.objective, fun v hv => ?_⟩
  · rw [Tableau.assignment_eq_map_point, hd.width, hpoint, ← hkept, Tableau.map_point_kept]
  · refine ⟨hd.satisfied_iff hc hp hv, fun hsol => ?_⟩
    have hwe := (Program.HasCanonical.within_objective hp ho).mono hc.length_le
    rw [Program.eval_eq hwe hv, hd.objective _ hsol]

theorem restore_of_handsOver_slope : ∃ k cols n t u,
    (⟨0, 10⟩ : Simplex ℚ).HandsOver .slope k cols n t ∧
    (t.restore k.program cols).result = .ok u ∧ t.assignment = [1, 0, 0, 0] ∧
    u.assignment = [1, 0] ∧ t.rows.length = 2 ∧ u.rows.length = 1 ∧
    k.program.Satisfied [3, 2] ∧ u.Solves (valuation [3, 2]) := by
  have hx : ((⟨0, 10⟩ : Simplex ℚ).handOver? .slope).map (fun x =>
      (x.1.program.vars.length, x.2.1, decide (x.1.program.Satisfied [3, 2]))) =
        some (2, [2, 3], true) := by
    decide +kernel
  have ht : ((⟨0, 10⟩ : Simplex ℚ).handOver? .slope).map (fun x =>
      (x.2.2.2.assignment, x.2.2.2.rows.length)) = some ([1, 0, 0, 0], 2) := by
    decide +kernel
  have hu : ((⟨0, 10⟩ : Simplex ℚ).handOver? .slope).bind (fun x =>
      (x.2.2.2.restore x.1.program x.2.1).result.toOption.map (·.rows.length)) = some 1 := by
    decide +kernel
  cases hh : (⟨0, 10⟩ : Simplex ℚ).handOver? .slope with
  | none =>
      rw [hh] at hx
      cases hx
  | some x =>
      obtain ⟨k, cols, n, t⟩ := x
      have hover := handsOver_of_eq hh
      obtain ⟨u, hr, -, -, -, -, hassign, e, -, hsol⟩ :=
        restore_of_handsOver rfl Program.slope_valid rfl hover
      simp only [hh, Option.map_some, Option.bind_some, hr, Except.toOption, Option.some.injEq,
        Prod.mk.injEq, decide_eq_true_eq] at hx ht hu
      obtain ⟨hlen, rfl, hsat⟩ := hx
      rw [ht.1] at hassign
      obtain ⟨hiff, -⟩ := hsol [3, 2] hlen.symm
      exact ⟨k, _, n, t, u, hover, hr, ht.1, hassign, ht.2, hu, hsat, hiff.2 hsat⟩

end Simplex

end LinProg
