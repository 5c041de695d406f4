import LinProg.Proofs.Solve.Endings
import LinProg.Proofs.Solve.Visits

namespace LinProg

inductive Solution.Answers (sol : Solution ℚ) (p : Program ℚ) (o : Objective ℚ) : Prop
  | optimal (hs : sol.status = .optimal) (h : p.Optimal o (sol.assignment p))
  | unbounded (hs : sol.status = .unbounded) (h : p.Unbounded o)
      (hv : sol.optimum = if o.direction = .max then .plusInfinity else .minusInfinity)
  | infeasible (hs : sol.status = .infeasible) (h : ¬ ∃ x, p.Feasible x)

namespace Program.HasCanonical

variable {p : Program ℚ} {o : Objective ℚ} {k : Canonical ℚ} {t : Tableau ℚ}

theorem value_eq_gain (h : p.HasCanonical o k) (x : ℕ → ℚ) :
    o.simplify.orient.expr.value x = o.direction.gain (o.expr.value x) := by
  rw [h.value_objective, h.flipped]
  cases o.direction <;> rfl

theorem optimal (h : p.HasCanonical o k) (hp : p.Valid) (ho : p.objective = some o)
    (ht : t.Vertex) (hd : t.Depicts k.program o.simplify.orient) (hm : t.move = .optimal) :
    p.Optimal o ((List.range p.vars.length).map t.point) := by
  have hpoint := Tableau.point_nonneg ht.unit ht.nonneg
  have hsol := Tableau.solves_point ht.unit
  have hwo := hp.within_objective ho
  refine ⟨h.feasible_of_gap_eq_zero hp hpoint ((hd.solves _).1 hsol), fun y hy => ?_⟩
  obtain ⟨z, hz, -, hzy, hgap⟩ := h.exists_gap_eq_zero hp hy
  have hzsol := (hd.solves z).2 hgap
  have hle := ht.residual_le_value hm hz
  rw [← Tableau.residual_point ht.unit, hd.objective z hzsol, hd.objective _ hsol,
    h.value_eq_gain, h.value_eq_gain] at hle
  refine ⟨_, _, eval_eq hwo hy.1, eval_map_range hwo t.point, ?_⟩
  rw [Direction.better_iff, not_lt, ← LinExpr.value_congr hwo hzy]
  exact hle

theorem unbounded (h : p.HasCanonical o k) (hp : p.Valid) (ho : p.objective = some o)
    (ht : t.Vertex) (hd : t.Depicts k.program o.simplify.orient) (hm : t.move = .unbounded) :
    p.Unbounded o := by
  intro bound
  have hwo := hp.within_objective ho
  obtain ⟨x, hx, hsol, hgt⟩ := ht.exists_solves_above hm (o.direction.gain bound)
  rw [hd.objective x hsol, h.value_eq_gain] at hgt
  refine ⟨_, h.feasible_of_gap_eq_zero hp hx ((hd.solves x).1 hsol), _, eval_map_range hwo x, ?_⟩
  rwa [Direction.better_iff]

end Program.HasCanonical

def Program.clash : Program ℚ where
  name := "clash"
  id := 0
  vars := [⟨"x", 0, 0⟩, ⟨"y", 1, 0⟩]
  constraints :=
    [⟨.ofTerms [(⟨"x", 0, 0⟩, 1), (⟨"y", 1, 0⟩, 1)] 0, .le, 1, 0⟩,
      ⟨.ofTerms [(⟨"x", 0, 0⟩, -1)] 0, .le, -2, 1⟩]
  objective := some ⟨.ofTerms [(⟨"x", 0, 0⟩, 1)] 0, .max⟩

theorem Program.clash_valid : clash.Valid := by decide

namespace Simplex

inductive Ends (s : Simplex ℚ) (p : Program ℚ) (o : Objective ℚ) :
    Except Fault (Solution ℚ) → Prop
  | exhausted : Ends s p o (.error (.pivotLimit s.limit))
  | answered {sol : Solution ℚ} (h : sol.Answers p o) : Ends s p o (.ok sol)

variable {s : Simplex ℚ} {p : Program ℚ} {o : Objective ℚ} {k : Canonical ℚ}
variable {t : Tableau ℚ}

theorem ends_solve (hs : s.tolerance = 0) (hp : p.Valid) (ho : p.objective = some o) :
    s.Ends p o (s.solve p).result := by
  have h := s.outcome_solve p
  generalize (s.solve p).result = r at h
  cases h with
  | missing objective =>
      rw [ho] at objective
      cases objective
  | exhausted => exact .exhausted
  | refused _ _ move pivot =>
      obtain ⟨u, hu⟩ := Tableau.exists_pivot_of_move move
      rw [pivot] at hu
      cases hu
  | unboundedPhaseOne run _ move =>
      exact absurd move (move_ne_unbounded_of_visits hs hp ho ⟨_, run⟩)
  | infeasible _ run _ hk hq move positive =>
      have hc := Program.hasCanonical_of_eq ho hk
      have ha := Canonical.hasArtificials_of_eq hq
      have hv := ha.vertex_phaseOneTableau hc hp
      have hr := (run.one_climbs hk hq).2.reaches
      rw [hs] at hr
      refine .answered (.infeasible rfl ?_)
      rintro ⟨x, hx⟩
      exact ha.not_feasible_of_hasPositive hc hp (Tableau.vertex_of_reaches hr hv)
        (Tableau.based_of_reaches hr hv.based).2.1 move positive hx
  | @notRestored k cols n t f _ _ restore =>
      obtain ⟨m, u, hu, -⟩ := t.exists_restore k.program cols
      rw [restore] at hu
      cases hu
  | optimal _ run _ hk move =>
      obtain ⟨hv, hd⟩ := depicts_of_visits hs hp ho hk ⟨_, run⟩
      exact .answered (.optimal rfl ((Program.hasCanonical_of_eq ho hk).optimal hp ho hv hd move))
  | unbounded _ run _ hk move =>
      have hc := Program.hasCanonical_of_eq ho hk
      obtain ⟨hv, hd⟩ := depicts_of_visits hs hp ho hk ⟨_, run⟩
      refine .answered (.unbounded rfl (hc.unbounded hp ho hv hd move) ?_)
      rw [hc.flipped]
      cases o.direction <;> rfl

theorem answers_of_solve (hs : s.tolerance = 0) (hp : p.Valid) (ho : p.objective = some o)
    {sol : Solution ℚ} (h : (s.solve p).result = .ok sol) : sol.Answers p o := by
  have he := ends_solve hs hp ho
  rw [h] at he
  cases he with
  | answered ha => exact ha

/-- An answer that claims an optimum is a feasible point that no other betters. -/
theorem optimal_of_solve (hs : s.tolerance = 0) (hp : p.Valid) (ho : p.objective = some o)
    {sol : Solution ℚ} (h : (s.solve p).result = .ok sol) (hst : sol.status = .optimal) :
    p.Optimal o (sol.assignment p) := by
  cases answers_of_solve hs hp ho h with
  | optimal _ hopt => exact hopt
  | unbounded hu | infeasible hu =>
      rw [hst] at hu
      cases hu

theorem optimal_of_solve_blend : ∃ o sol, Program.blend.objective = some o ∧
    ((⟨0, 10⟩ : Simplex ℚ).solve .blend).result = .ok sol ∧ sol.status = .optimal ∧
    sol.assignment .blend = [0, 2] ∧ Program.blend.Optimal o (sol.assignment .blend) := by
  have hs : ((⟨0, 10⟩ : Simplex ℚ).solve .blend).result.toOption.map
      (fun sol => (sol.status, sol.assignment .blend)) = some (.optimal, [0, 2]) := by
    decide +kernel
  cases hr : ((⟨0, 10⟩ : Simplex ℚ).solve .blend).result with
  | error f =>
      rw [hr] at hs
      cases hs
  | ok sol =>
      rw [hr] at hs
      obtain ⟨hst, hx⟩ := Prod.mk.inj (Option.some.inj hs)
      exact ⟨_, sol, rfl, rfl, hst, hx, optimal_of_solve rfl Program.blend_valid rfl hr hst⟩

/-- Within the limit of pivots every program is answered, and it is called infeasible just when it
has no feasible point. Phase one is never called unbounded. -/
theorem solve_decides_feasibility (hs : s.tolerance = 0) (hp : p.Valid)
    (ho : p.objective = some o) : (s.solve p).result = .error (.pivotLimit s.limit) ∨
      ∃ sol, (s.solve p).result = .ok sol ∧
        (sol.status = .infeasible ↔ ¬ ∃ x, p.Feasible x) := by
  have he := ends_solve hs hp ho
  generalize (s.solve p).result = r at he ⊢
  cases he with
  | exhausted => exact .inl rfl
  | @answered sol ha =>
      refine .inr ⟨sol, rfl, ?_⟩
      cases ha with
      | optimal hst hopt =>
          rw [hst]
          exact ⟨nofun, fun h => absurd ⟨_, hopt.1⟩ h⟩
      | unbounded hst hunb =>
          obtain ⟨x, hx, -⟩ := hunb 0
          rw [hst]
          exact ⟨nofun, fun h => absurd ⟨x, hx⟩ h⟩
      | infeasible hst hnone => exact ⟨fun _ => hnone, fun _ => hst⟩

theorem solve_decides_feasibility_clash : ∃ sol,
    ((⟨0, 10⟩ : Simplex ℚ).solve .clash).result = .ok sol ∧ sol.status = .infeasible ∧
    ¬ ∃ x, Program.clash.Feasible x := by
  have hs : ((⟨0, 10⟩ : Simplex ℚ).solve .clash).result.toOption.map (·.status) =
      some .infeasible := by
    decide +kernel
  rcases solve_decides_feasibility (s := ⟨0, 10⟩) rfl Program.clash_valid rfl with
    he | ⟨sol, hr, hiff⟩
  · rw [he] at hs
    cases hs
  · rw [hr] at hs
    have hst := Option.some.inj hs
    exact ⟨sol, hr, hst, hiff.1 hst⟩

/-- An answer of unbounded comes with feasible points past every bound, and the infinite value on
the side of the objective. -/
theorem unbounded_of_solve (hs : s.tolerance = 0) (hp : p.Valid) (ho : p.objective = some o)
    {sol : Solution ℚ} (h : (s.solve p).result = .ok sol) (hst : sol.status = .unbounded) :
    p.Unbounded o ∧ sol.optimum = if o.direction = .max then .plusInfinity else .minusInfinity := by
  cases answers_of_solve hs hp ho h with
  | unbounded _ hunb hv => exact ⟨hunb, hv⟩
  | optimal hu | infeasible hu =>
      rw [hst] at hu
      cases hu

theorem unbounded_of_solve_slope : ∃ o sol, Program.slope.objective = some o ∧
    ((⟨0, 10⟩ : Simplex ℚ).solve .slope).result = .ok sol ∧ sol.status = .unbounded ∧
    sol.optimum = .minusInfinity ∧ Program.slope.Unbounded o := by
  have hs : ((⟨0, 10⟩ : Simplex ℚ).solve .slope).result.toOption.map (·.status) =
      some .unbounded := by
    decide +kernel
  cases hr : ((⟨0, 10⟩ : Simplex ℚ).solve .slope).result with
  | error f =>
      rw [hr] at hs
      cases hs
  | ok sol =>
      rw [hr] at hs
      have hst := Option.some.inj hs
      obtain ⟨hunb, hv⟩ := unbounded_of_solve rfl Program.slope_valid rfl hr hst
      exact ⟨_, sol, rfl, rfl, hst, hv, hunb⟩

/-- The value reported for an optimum is the objective at the point reported, whatever the tolerance
has passed over on the way. -/
theorem attained_of_solve (h0 : 0 ≤ s.tolerance) (h1 : s.tolerance < 1) (hp : p.Valid)
    (ho : p.objective = some o) {sol : Solution ℚ} (h : (s.solve p).result = .ok sol)
    (hst : sol.status = .optimal) :
    ∃ v, sol.optimum = .attained v ∧ p.eval o.expr (sol.assignment p) = .ok v := by
  cases solve_eq_iff.1 h with
  | infeasible | unbounded => cases hst
  | @optimal k _ _ _ t _ run _ hk _ =>
      have hc := Program.hasCanonical_of_eq ho hk
      have hd := prices_of_visits h0 h1 hp ho hk ⟨_, run⟩
      refine ⟨_, rfl, ?_⟩
      rw [Solution.assignment, hd.value_eq, hc.value_objective]
      refine (Program.eval_map_range (hp.within_objective ho) t.point).trans ?_
      cases k.flipped <;> simp

theorem attained_of_solve_blend : ∃ o sol, Program.blend.objective = some o ∧
    ((⟨1 / 10, 10⟩ : Simplex ℚ).solve .blend).result = .ok sol ∧ sol.optimum = .attained 3 ∧
    Program.blend.eval o.expr (sol.assignment .blend) = .ok 3 := by
  have hs : ((⟨1 / 10, 10⟩ : Simplex ℚ).solve .blend).result.toOption.map
      (fun sol => (sol.status, sol.optimum)) = some (.optimal, .attained 3) := by
    decide +kernel
  cases hr : ((⟨1 / 10, 10⟩ : Simplex ℚ).solve .blend).result with
  | error f =>
      rw [hr] at hs
      cases hs
  | ok sol =>
      rw [hr] at hs
      obtain ⟨hst, hv⟩ := Prod.mk.inj (Option.some.inj hs)
      obtain ⟨v, hopt, heval⟩ :=
        attained_of_solve (by norm_num) (by norm_num) Program.blend_valid rfl hr hst
      rw [hv] at hopt
      cases hopt
      exact ⟨_, sol, rfl, rfl, hv, heval⟩

end Simplex

end LinProg
