import LinProg.Proofs.Program.Tolerance
import LinProg.Proofs.Solve.Dropped
import LinProg.Proofs.Solve.Endings
import LinProg.Proofs.Solve.Visits

namespace LinProg

namespace Simplex

open Tableau

/-- The tolerance passes over nothing that bears on the values: every pivot is made in a row with
the least ratio of all, and the artificial variables that phase one leaves basic are exactly 0. -/
structure Faithful (s : Simplex ℚ) (p : Program ℚ) : Prop where
  ratio : ∀ phase t, s.Visits p phase t → t.PicksLeast
  zero : ∀ k cols n t, s.HandsOver p k cols n t → ∀ b ∈ t.rows, b.hasBasic cols → b.row.rhs = 0

variable {s : Simplex ℚ} {p : Program ℚ} {o : Objective ℚ} {k : Canonical ℚ} {phase : Phase}
variable {cols : List ℕ} {n : ℕ} {t u : Tableau ℚ} {sol : Solution ℚ} {y : ℕ → ℚ}

section

variable (h0 : 0 ≤ s.tolerance) (h1 : s.tolerance < 1) (hp : p.Valid) (ho : p.objective = some o)

include h0 h1 hp ho

theorem HandsOver.length_rows (h : s.HandsOver p k cols n t) :
    t.rows.length = p.constraints.length := by
  obtain ⟨-, -, q, added, ha, -, -, hl, -⟩ := h.based h0 h1 hp ho
  rw [hl, ha.entered.length_eq, (Program.hasCanonical_of_eq ho h.reached.1).length_constraints,
    Program.oriented, List.length_map]

theorem solves_iff_of_visits (hk : p.canonical? = .ok k) (h : s.Visits p .two t) :
    ∃ t₀, t₀.rows.length = t.rows.length ∧ (∀ y, t.Solves y ↔ t₀.Solves y) ∧
      (k.needsPhaseOne = false ∧ t₀ = k.program.tableau s.tolerance ∨
        ∃ cols n v, s.HandsOver p k cols n v ∧ (v.restore k.program cols).result = .ok t₀) := by
  obtain ⟨t₀, hr, hv, hst⟩ := h.reached_two hk
  obtain ⟨-, he, -⟩ := based_of_reaches hr (based_of_visits h0 h1 hp ho hv)
  exact ⟨t₀, (length_rows_of_reaches hr).symm, fun y => (he y).1, hst⟩

theorem gap_eq_zero_of_visits (hk : p.canonical? = .ok k) (h : s.Visits p .two t)
    (hrows : t.rows.length = p.constraints.length) (hy : t.Solves y) :
    ∀ c ∈ k.program.constraints, c.gap y = 0 := by
  have hs := (Program.hasCanonical_of_eq ho hk).standard hp
  obtain ⟨t₀, hl, hsol, hst⟩ := solves_iff_of_visits h0 h1 hp ho hk h
  rw [hsol] at hy
  obtain ⟨-, rfl⟩ | ⟨cols, n, v, handsOver, restore⟩ := hst
  · exact (hs.solves_tableau s.tolerance).1 hy
  · obtain ⟨hb, -, q, added, ha, rfl, hw, -, he⟩ := handsOver.based h0 h1 hp ho
    have hkept := (hl.trans hrows).trans (handsOver.length_rows h0 h1 hp ho).symm
    exact ha.gap_restored_eq_zero hs hb he hw restore hkept hy

section Faithful

variable (hf : s.Faithful p)

include hf

theorem rhsNonneg_of_reaches_of_faithful (h : s.Visits p phase t) (hn : t.RhsNonneg)
    (hr : Relation.ReflTransGen Advances t u) : u.RhsNonneg :=
  Tableau.rhsNonneg_of_reaches hr (based_of_visits h0 h1 hp ho h) hn
    fun v hv => hf.ratio phase v (h.reaches hv)

theorem rhsNonneg_of_visits_one (h : s.Visits p .one t) : t.RhsNonneg := by
  obtain ⟨n, hrun⟩ := h
  obtain ⟨k, hk, q, added, hq⟩ := hrun.canonical
  obtain ⟨needs, hc⟩ := hrun.one_climbs hk hq
  have hs := (Program.hasCanonical_of_eq ho hk).standard hp
  exact rhsNonneg_of_reaches_of_faithful h0 h1 hp ho hf ⟨0, .start (.one hk needs hq)⟩
    (((Canonical.hasArtificials_of_eq hq).standard hs).rhsNonneg_phaseOneTableau _ _) hc.reaches

theorem HandsOver.settled (h : s.HandsOver p k cols n t) : t.Settled cols where
  based := (h.based h0 h1 hp ho).1
  nonneg := rhsNonneg_of_visits_one h0 h1 hp ho hf h.visits
  zero := hf.zero k cols n t h

theorem rhsNonneg_of_visits_two (h : s.Visits p .two t) : t.RhsNonneg := by
  obtain ⟨k, hk, -⟩ := Program.canonical?_eq ho
  obtain ⟨t₀, hr, hv, hst⟩ := h.reached_two hk
  refine rhsNonneg_of_reaches_of_faithful h0 h1 hp ho hf hv ?_ hr
  obtain ⟨-, rfl⟩ | ⟨cols, n, v, handsOver, restore⟩ := hst
  · exact ((Program.hasCanonical_of_eq ho hk).standard hp).rhsNonneg_tableau _
  · have hset := handsOver.settled h0 h1 hp ho hf
    obtain ⟨hb, -, q, added, ha, rfl, hw, -⟩ := handsOver.based h0 h1 hp ho
    obtain ⟨m, w, hd, -, hww, -, rfl⟩ := restore_eq hb restore
    have hnot := ha.width_not_mem_cols (hww.trans hw)
    exact (hset.of_drives hd).nonneg.removeColumns hnot k.program.names

theorem abs_gap_le_of_visits (hk : p.canonical? = .ok k) (h : s.Visits p .two t)
    (hy : t.Solves y) : ∀ c ∈ k.program.constraints,
      |c.gap y| ≤ s.tolerance * ∑ i ∈ Finset.range k.program.vars.length, |y i| := by
  have hs := (Program.hasCanonical_of_eq ho hk).standard hp
  obtain ⟨t₀, -, hsol, hst⟩ := solves_iff_of_visits h0 h1 hp ho hk h
  rw [hsol] at hy
  obtain ⟨-, rfl⟩ | ⟨cols, n, v, handsOver, restore⟩ := hst
  · intro c hc
    rw [(hs.solves_tableau s.tolerance).1 hy c hc, abs_zero]
    exact mul_nonneg h0 (Finset.sum_nonneg fun i _ => abs_nonneg _)
  · have hset := handsOver.settled h0 h1 hp ho hf
    obtain ⟨-, htol, q, added, ha, rfl, hw, -, he⟩ := handsOver.based h0 h1 hp ho
    rw [← htol]
    exact ha.abs_gap_restored_le hs hset he hw restore hy

end Faithful

theorem read_off (h : (s.solve p).result = .ok sol) (hst : sol.status = .optimal) :
    ∃ k, p.canonical? = .ok k ∧ p.HasCanonical o k ∧ s.Visits p .two sol.final ∧
      sol.final.HasUnitBasis ∧
      sol.values = (List.range k.program.vars.length).map sol.final.point ∧
      sol.assignment p = (List.range p.vars.length).map sol.final.point := by
  obtain ⟨k, hk, hc⟩ := Program.canonical?_eq ho
  have hv := visits_final h (by rw [hst]; exact nofun)
  have hd := prices_of_visits h0 h1 hp ho hk hv
  have hvalues := (records_of_solve h).values
  refine ⟨k, hk, hc, hv, hd.unit, ?_, ?_⟩
  · rw [hvalues, assignment_eq_map_point, hd.width]
  · rw [Solution.assignment, hvalues]
    rfl

theorem satisfied_of_rows (h : (s.solve p).result = .ok sol) (hst : sol.status = .optimal)
    (hrows : sol.final.rows.length = p.constraints.length) {τ : ℚ} (hτ : 0 ≤ τ)
    (hge : ∀ a ∈ sol.values, -τ ≤ a) :
    ∀ c ∈ p.constraints, c.satisfied? (sol.assignment p) τ = .ok true := by
  obtain ⟨k, hk, hc, hv, hunit, hvalues, hassign⟩ := read_off h0 h1 hp ho h hst
  have hgap := gap_eq_zero_of_visits h0 h1 hp ho hk hv hrows (solves_point hunit)
  rw [hvalues] at hge
  have hs := hc.satisfied_upTo hp hτ
    (fun i hi => hge _ (List.mem_map_of_mem (List.mem_range.2 hi)))
    fun c hc => (abs_eq_zero.2 (hgap c hc)).le
  rwa [hassign, ← add_zero τ]

theorem values_nonneg_of_faithful (hf : s.Faithful p) (h : (s.solve p).result = .ok sol)
    (hst : sol.status = .optimal) :
    (∀ a ∈ sol.values, 0 ≤ a) ∧ ∀ a ∈ sol.assignment p, 0 ≤ a := by
  obtain ⟨k, -, -, hv, hunit, hvalues, hassign⟩ := read_off h0 h1 hp ho h hst
  have hpoint := point_nonneg hunit (rhsNonneg_of_visits_two h0 h1 hp ho hf hv)
  rw [hvalues, hassign]
  simp [hpoint]

theorem satisfied_of_faithful (hf : s.Faithful p) (h : (s.solve p).result = .ok sol)
    (hst : sol.status = .optimal) {τ : ℚ} (hτ : s.tolerance * sol.values.sum ≤ τ) :
    ∀ c ∈ p.constraints, c.satisfied? (sol.assignment p) τ = .ok true := by
  obtain ⟨k, hk, hc, hv, hunit, hvalues, hassign⟩ := read_off h0 h1 hp ho h hst
  have hpoint := point_nonneg hunit (rhsNonneg_of_visits_two h0 h1 hp ho hf hv)
  have hgap := abs_gap_le_of_visits h0 h1 hp ho hf hk hv (solves_point hunit)
  have hsum : sol.values.sum = ∑ i ∈ Finset.range k.program.vars.length, |sol.final.point i| := by
    rw [Finset.sum_congr rfl fun i _ => abs_of_nonneg (hpoint i), hvalues]
    rfl
  rw [← hsum] at hgap
  have hs := hc.satisfied_upTo hp le_rfl (fun i _ => by rw [neg_zero]; exact hpoint i)
    fun c hc => (hgap c hc).trans hτ
  rwa [hassign, ← zero_add τ]

/-- How far an optimum of a tolerance may be off the program. As long as no row was dropped, its
constraints are not violated by more than the values of the last tableau fall below 0. If the
tolerance has been faithful, none of them does, and where rows were dropped the violation is at most
the tolerance times the sum of the values. -/
theorem satisfied_of_solve (h : (s.solve p).result = .ok sol) (hst : sol.status = .optimal) :
    (sol.final.rows.length = p.constraints.length → ∀ τ, 0 ≤ τ → (∀ a ∈ sol.values, -τ ≤ a) →
      ∀ c ∈ p.constraints, c.satisfied? (sol.assignment p) τ = .ok true) ∧
    (s.Faithful p → (∀ a ∈ sol.values, 0 ≤ a) ∧ (∀ a ∈ sol.assignment p, 0 ≤ a) ∧
      (sol.final.rows.length = p.constraints.length → p.Feasible (sol.assignment p)) ∧
      ∀ τ, s.tolerance * sol.values.sum ≤ τ →
        ∀ c ∈ p.constraints, c.satisfied? (sol.assignment p) τ = .ok true) := by
  refine ⟨fun hrows τ hτ hge => satisfied_of_rows h0 h1 hp ho h hst hrows hτ hge, fun hf => ?_⟩
  obtain ⟨hvalues, hassign⟩ := values_nonneg_of_faithful h0 h1 hp ho hf h hst
  refine ⟨hvalues, hassign, fun hrows => ⟨by simp [Solution.assignment], hassign, ?_⟩,
    fun τ hτ => satisfied_of_faithful h0 h1 hp ho hf h hst hτ⟩
  exact satisfied_of_rows h0 h1 hp ho h hst hrows le_rfl (by simpa using hvalues)

end

def starts (s : Simplex ℚ) (p : Program ℚ) : List (Tableau ℚ) :=
  match p.canonical? with
  | .error _ => []
  | .ok k =>
    if k.needsPhaseOne then
      (k.withArtificials.toOption.map fun x => x.1.phaseOneTableau x.2 s.tolerance).toList ++
        ((s.handOver? p).bind fun x =>
          (x.2.2.2.restore x.1.program x.2.1).result.toOption).toList
    else [k.program.tableau s.tolerance]

theorem mem_starts (h : p.Starts s.tolerance phase t) : t ∈ s.starts p := by
  cases h with
  | one hk needs hq => simp [starts, hk, needs, hq, Except.toOption]
  | two hk needs => simp [starts, hk, needs]

theorem HandsOver.handOver?_eq (h : s.HandsOver p k cols n t)
    (hhalt : ∀ t ∈ s.starts p, (t.ascend s.limit).halt ≠ .exhausted) :
    s.handOver? p = some (k, cols, n, t) := by
  cases h with
  | intro run hk hq move zero =>
      obtain ⟨needs, hc⟩ := run.one_climbs hk hq
      have hle := hc.le_of_not_exhausted (hhalt _ (mem_starts (.one hk needs hq)))
      have hs : t.Stops (s.limit - n) .optimal := .optimal move
      obtain ⟨steps, rfl, he⟩ := hc.ascend_eq hs
      rw [Nat.add_sub_cancel' hle] at he
      simp [handOver?, hk, hq, he, needs, zero, Except.toOption]

theorem mem_starts_of_handOver (h : s.handOver? p = some (k, cols, n, t))
    (hu : (t.restore k.program cols).result = .ok u) : u ∈ s.starts p := by
  cases handsOver_of_eq h with
  | intro run hk hq =>
      have needs := (run.one_climbs hk hq).1
      simp [starts, hk, needs, h, hu, Except.toOption]

theorem faithful_of_starts
    (hr : ∀ t ∈ s.starts p, (t.ascend s.limit).halt ≠ .exhausted ∧
      ∀ u ∈ t.trail s.limit, u.PicksLeast)
    (hz : ∀ x ∈ s.handOver? p, ∀ b ∈ x.2.2.2.rows, b.hasBasic x.2.1 → b.row.rhs = 0) :
    s.Faithful p where
  ratio phase t h := by
    have hleast {t₀ : Tableau ℚ} (ht₀ : t₀ ∈ s.starts p)
        (hreach : Relation.ReflTransGen Advances t₀ t) : t.PicksLeast :=
      (hr t₀ ht₀).2 t (mem_trail_of_reaches (hr t₀ ht₀).1 hreach)
    cases phase with
    | one =>
        obtain ⟨n, hrun⟩ := h
        obtain ⟨k, hk, q, added, hq⟩ := hrun.canonical
        obtain ⟨needs, hc⟩ := hrun.one_climbs hk hq
        exact hleast (mem_starts (.one hk needs hq)) hc.reaches
    | two =>
        obtain ⟨k, hk, -⟩ := h.choose_spec.canonical
        obtain ⟨t₀, hreach, -, hst⟩ := h.reached_two hk
        refine hleast ?_ hreach
        obtain ⟨needs, rfl⟩ | ⟨cols, n, v, handsOver, restore⟩ := hst
        · exact mem_starts (.two hk needs)
        · exact mem_starts_of_handOver (handsOver.handOver?_eq fun t ht => (hr t ht).1) restore
  zero k cols n t h := hz _ (h.handOver?_eq fun t ht => (hr t ht).1)

theorem faithful_of_exact (hs : s.tolerance = 0) (hp : p.Valid) (ho : p.objective = some o) :
    s.Faithful p where
  ratio phase t h := picksLeast_of_exact (vertex_of_visits hs hp ho h).exact
  zero k cols n t h b hb hcols := by
    have ht := vertex_of_visits hs hp ho h.visits
    obtain ⟨-, -, -, -, -, hpos, -⟩ := h.reached
    exact (driven_refl ht hpos).zero b hb hcols

theorem satisfied_of_solve_blend : ∃ sol,
    ((⟨1 / 10 ^ 9, 10000⟩ : Simplex ℚ).solve .blend).result = .ok sol ∧
    sol.assignment .blend = [0, 2] ∧ (⟨1 / 10 ^ 9, 10000⟩ : Simplex ℚ).Faithful .blend ∧
    Program.blend.Feasible (sol.assignment .blend) ∧
    ∀ c ∈ Program.blend.constraints,
      c.satisfied? (sol.assignment .blend) (1 / 10 ^ 7) = .ok true := by
  have hs : ((⟨1 / 10 ^ 9, 10000⟩ : Simplex ℚ).solve .blend).result.toOption.map (fun sol =>
      (sol.status, sol.assignment .blend, sol.values, sol.final.rows.length)) =
        some (.optimal, [0, 2], [0, 2, 1, 0], 3) := by
    decide +kernel
  have hf : (⟨1 / 10 ^ 9, 10000⟩ : Simplex ℚ).Faithful .blend :=
    faithful_of_starts (by decide +kernel) (by decide +kernel)
  obtain ⟨sol, hr, he⟩ := exists_ok_of_map_toOption hs
  simp only [Prod.mk.injEq] at he
  obtain ⟨hst, hx, hvalues, hrows⟩ := he
  obtain ⟨-, hfaithful⟩ := satisfied_of_solve (by norm_num) (by norm_num) Program.blend_valid rfl
    hr hst
  obtain ⟨-, -, hfeasible, hsat⟩ := hfaithful hf
  refine ⟨sol, hr, hx, hf, hfeasible hrows, hsat _ ?_⟩
  rw [hvalues]
  norm_num

end Simplex

def Program.shallow : Program ℚ where
  name := "shallow"
  id := 0
  vars := [⟨"x", 0, 0⟩]
  constraints := [⟨.ofTerms [(⟨"x", 0, 0⟩, 1 / 2 ^ 30)] 0, .le, 1, 0⟩,
    ⟨.ofTerms [(⟨"x", 0, 0⟩, 1)] 0, .le, 2 ^ 31, 1⟩]
  objective := some ⟨.ofTerms [(⟨"x", 0, 0⟩, 1)] 0, .max⟩

/-- Nothing but `x = -1 / 2` solves the equation, and phase one misses it by less than the
tolerance. -/
def Program.sliver : Program ℚ where
  name := "sliver"
  id := 0
  vars := [⟨"x", 0, 0⟩]
  constraints := [⟨.ofTerms [(⟨"x", 0, 0⟩, -1 / 2 ^ 29)] 0, .eq, 1 / 2 ^ 30, 0⟩]
  objective := some ⟨.ofTerms [(⟨"x", 0, 0⟩, 1)] 0, .max⟩

def Program.faint : Program ℚ where
  name := "faint"
  id := 0
  vars := [⟨"x", 0, 0⟩]
  constraints := [⟨.ofTerms [(⟨"x", 0, 0⟩, 1 / 2 ^ 30)] 0, .eq, 0, 0⟩,
    ⟨.ofTerms [(⟨"x", 0, 0⟩, 1)] 0, .le, 128, 1⟩]
  objective := some ⟨.ofTerms [(⟨"x", 0, 0⟩, 1)] 0, .max⟩

/-- At the standard tolerance an optimum may be off the program in three ways: the least ratio
passes over a row, an artificial variable counts as 0, and a row counts as empty. -/
theorem Simplex.optimum_off_program :
    (Program.shallow.Valid ∧ ∃ sol,
      ((⟨1 / 10 ^ 9, 10000⟩ : Simplex ℚ).solve .shallow).result = .ok sol ∧
      sol.status = .optimal ∧ sol.assignment .shallow = [2 ^ 31] ∧
      ∃ c ∈ Program.shallow.constraints, c.satisfied? [2 ^ 31] (1 / 10 ^ 7) = .ok false) ∧
    (Program.sliver.Valid ∧ ∃ sol,
      ((⟨1 / 10 ^ 9, 10000⟩ : Simplex ℚ).solve .sliver).result = .ok sol ∧
      sol.status = .optimal ∧ sol.assignment .sliver = [-1 / 2] ∧ ¬ (-1 / 10 ^ 9 : ℚ) ≤ -1 / 2) ∧
    (Program.faint.Valid ∧ ∃ sol,
      ((⟨1 / 10 ^ 9, 10000⟩ : Simplex ℚ).solve .faint).result = .ok sol ∧
      sol.status = .optimal ∧ sol.assignment .faint = [128] ∧
      ∃ c ∈ Program.faint.constraints, c.satisfied? [128] (1 / 10 ^ 7) = .ok false) := by
  have hshallow : ((⟨1 / 10 ^ 9, 10000⟩ : Simplex ℚ).solve .shallow).result.toOption.map
      (fun sol => (sol.status, sol.assignment .shallow)) = some (.optimal, [2 ^ 31]) := by
    decide +kernel
  have hsliver : ((⟨1 / 10 ^ 9, 10000⟩ : Simplex ℚ).solve .sliver).result.toOption.map
      (fun sol => (sol.status, sol.assignment .sliver)) = some (.optimal, [-1 / 2]) := by
    decide +kernel
  have hfaint : ((⟨1 / 10 ^ 9, 10000⟩ : Simplex ℚ).solve .faint).result.toOption.map
      (fun sol => (sol.status, sol.assignment .faint)) = some (.optimal, [128]) := by
    decide +kernel
  obtain ⟨a, ha, hea⟩ := exists_ok_of_map_toOption hshallow
  obtain ⟨b, hb, heb⟩ := exists_ok_of_map_toOption hsliver
  obtain ⟨c, hc, hec⟩ := exists_ok_of_map_toOption hfaint
  simp only [Prod.mk.injEq] at hea heb hec
  refine ⟨⟨by decide +kernel, a, ha, hea.1, hea.2, ?_⟩,
    ⟨by decide +kernel, b, hb, heb.1, heb.2, by norm_num⟩,
    ⟨by decide +kernel, c, hc, hec.1, hec.2, ?_⟩⟩
  · exact ⟨_, List.mem_cons_self, by decide +kernel⟩
  · exact ⟨_, List.mem_cons_self, by decide +kernel⟩

end LinProg
