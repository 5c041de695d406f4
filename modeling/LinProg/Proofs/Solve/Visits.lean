import LinProg.Proofs.Solve.Course
import LinProg.Proofs.Solve.PhaseOne
import LinProg.Proofs.Tableau.Ratio

namespace LinProg

/-- A minimum that falls along `x = y + 1`, an equation said twice. -/
def Program.slope : Program ℚ where
  name := "slope"
  id := 0
  vars := [⟨"x", 0, 0⟩, ⟨"y", 1, 0⟩]
  constraints :=
    [⟨.ofTerms [(⟨"x", 0, 0⟩, 1), (⟨"y", 1, 0⟩, -1)] 0, .eq, 1, 0⟩,
      ⟨.ofTerms [(⟨"x", 0, 0⟩, -2), (⟨"y", 1, 0⟩, 2)] 0, .eq, -2, 1⟩]
  objective := some ⟨.ofTerms [(⟨"x", 0, 0⟩, -1)] 3, .min⟩

theorem Program.slope_valid : slope.Valid := by decide

theorem Program.length_rows_phaseOneTableau (q : Program ℚ) (added : List (Var × ℕ)) (tol : ℚ) :
    (q.phaseOneTableau added tol).rows.length = q.constraints.length := by
  simp [phaseOneTableau, Tableau.ofRows, Tableau.detectBasis, rows]

namespace Simplex

open Tableau

variable {s : Simplex ℚ} {p : Program ℚ} {o : Objective ℚ} {k : Canonical ℚ} {phase : Phase}
variable {q : Program ℚ} {added : List (Var × ℕ)} {cols : List ℕ} {n : ℕ} {t u : Tableau ℚ}

theorem HandsOver.reached (h : s.HandsOver p k cols n t) : p.canonical? = .ok k ∧
    ∃ q added, k.HasArtificials q added ∧ cols = added.map (·.1.index) ∧ ¬ t.hasPositive cols ∧
      Relation.ReflTransGen Advances (q.phaseOneTableau added s.tolerance) t := by
  cases h with
  | intro run hk hq _ zero =>
      exact ⟨hk, _, _, Canonical.hasArtificials_of_eq hq, rfl, zero,
        (run.one_climbs hk hq).2.reaches⟩

theorem Visits.reached_two (h : s.Visits p .two t) (hk : p.canonical? = .ok k) :
    ∃ t₀, Relation.ReflTransGen Advances t₀ t ∧ s.Visits p .two t₀ ∧
      (k.needsPhaseOne = false ∧ t₀ = k.program.tableau s.tolerance ∨
        ∃ cols m v, s.HandsOver p k cols m v ∧ (v.restore k.program cols).result = .ok t₀) := by
  obtain ⟨n, hrun⟩ := h
  obtain ⟨l, t₀, hc, hs⟩ := two_climbs hrun hk
  refine ⟨t₀, hc.reaches, ?_, hs⟩
  obtain ⟨needs, rfl⟩ | ⟨cols, m, v, handsOver, restore⟩ := hs
  · exact ⟨0, .start (.two hk needs)⟩
  · exact ⟨m, handsOver.run_restore restore⟩

section Based

variable (h0 : 0 ≤ s.tolerance) (h1 : s.tolerance < 1) (hp : p.Valid) (ho : p.objective = some o)

include h0 h1 hp ho

theorem based_of_run_one (h : p.Run s.tolerance .one n t) (hk : p.canonical? = .ok k)
    (hq : k.withArtificials = .ok (q, added)) : t.Based ∧ t.tol = s.tolerance ∧
      t.width = q.vars.length ∧ t.rows.length = q.constraints.length ∧
      (q.phaseOneTableau added s.tolerance).Equivalent t := by
  have hr := (h.one_climbs hk hq).2.reaches
  have hstart : (q.phaseOneTableau added s.tolerance).Based :=
    ⟨h0, (Canonical.hasArtificials_of_eq hq).hasUnitBasis_phaseOneTableau
      (Program.hasCanonical_of_eq ho hk) hp h0 h1⟩
  obtain ⟨hb, he, hw⟩ := based_of_reaches hr hstart
  exact ⟨hb, tol_of_reaches hr hstart, hw.trans (q.width_phaseOneRow added),
    (length_rows_of_reaches hr).trans (q.length_rows_phaseOneTableau added s.tolerance), he⟩

theorem HandsOver.based (h : s.HandsOver p k cols n t) : t.Based ∧ t.tol = s.tolerance ∧
    ∃ q added, k.HasArtificials q added ∧ cols = added.map (·.1.index) ∧
      t.width = q.vars.length ∧ t.rows.length = q.constraints.length ∧
      (q.phaseOneTableau added s.tolerance).Equivalent t := by
  cases h with
  | intro run hk hq =>
      obtain ⟨hb, htol, hw, hl, he⟩ := based_of_run_one h0 h1 hp ho run hk hq
      exact ⟨hb, htol, _, _, Canonical.hasArtificials_of_eq hq, rfl, hw, hl, he⟩

/-- At every tableau of phase two the objective row stands for the objective of the canonical form,
and no column but those of its variables is left. -/
theorem prices_of_visits (hk : p.canonical? = .ok k) (h : s.Visits p .two t) :
    t.Prices k.program o.simplify.orient := by
  obtain ⟨t₀, hr, -, hs⟩ := h.reached_two hk
  have hc := Program.hasCanonical_of_eq ho hk
  refine Prices.of_reaches ?_ hr
  obtain ⟨needs, rfl⟩ | ⟨cols, m, v, handsOver, restore⟩ := hs
  · have hd := hc.depicts_tableau hp ho s.tolerance
    exact ⟨⟨h0, hc.hasUnitBasis_tableau hp ho needs h0 h1⟩, hd.width, hd.objective⟩
  · obtain ⟨hb, -, q, added, ha, rfl, hw, -⟩ := handsOver.based h0 h1 hp ho
    exact ha.prices_restore hc hp ho hb hw restore

theorem based_of_visits (h : s.Visits p phase t) : t.Based := by
  cases phase with
  | one =>
      obtain ⟨n, hrun⟩ := h
      obtain ⟨k, hk, q, added, hq⟩ := hrun.canonical
      exact (based_of_run_one h0 h1 hp ho hrun hk hq).1
  | two =>
      obtain ⟨k, hk, -⟩ := Program.canonical?_eq ho
      exact (prices_of_visits h0 h1 hp ho hk h).toBased

end Based

section Exact

variable (hs : s.tolerance = 0) (hp : p.Valid) (ho : p.objective = some o)

include hs hp ho

theorem HandsOver.restored (h : s.HandsOver p k cols n t)
    (hu : (t.restore k.program cols).result = .ok u) :
    t.Vertex ∧ u.Vertex ∧ u.point = t.point ∧ u.Depicts k.program o.simplify.orient := by
  obtain ⟨hk, q, added, ha, rfl, hpos, hr⟩ := h.reached
  rw [hs] at hr
  have hc := Program.hasCanonical_of_eq ho hk
  have hv := ha.vertex_phaseOneTableau hc hp
  obtain ⟨-, he, hw⟩ := based_of_reaches hr hv.based
  have ht := vertex_of_reaches hr hv
  exact ⟨ht, ha.vertex_restore hc hp ho ht he (hw.trans (q.width_phaseOneRow added)) hpos hu⟩

theorem depicts_of_visits (hk : p.canonical? = .ok k) (h : s.Visits p .two t) :
    t.Vertex ∧ t.Depicts k.program o.simplify.orient := by
  obtain ⟨t₀, hr, -, hst⟩ := h.reached_two hk
  have hc := Program.hasCanonical_of_eq ho hk
  have hstart : t₀.Vertex ∧ t₀.Depicts k.program o.simplify.orient := by
    obtain ⟨needs, rfl⟩ | ⟨cols, m, v, handsOver, restore⟩ := hst
    · rw [hs]
      exact ⟨hc.vertex_tableau hp ho needs, hc.depicts_tableau hp ho 0⟩
    · obtain ⟨-, hu, -, hd⟩ := handsOver.restored hs hp ho restore
      exact ⟨hu, hd⟩
  obtain ⟨-, he, hw⟩ := based_of_reaches hr hstart.1.based
  exact ⟨vertex_of_reaches hr hstart.1, hstart.2.of_equivalent he hw⟩

theorem vertex_of_visits_one (h : s.Visits p .one t) : t.Vertex ∧
    ∃ (q : Program ℚ) (added : List (Var × ℕ)), (q.phaseOneTableau added 0).Equivalent t := by
  obtain ⟨n, hrun⟩ := h
  obtain ⟨k, hk, q, added, hq⟩ := hrun.canonical
  have hr := (hrun.one_climbs hk hq).2.reaches
  rw [hs] at hr
  have hv := (Canonical.hasArtificials_of_eq hq).vertex_phaseOneTableau
    (Program.hasCanonical_of_eq ho hk) hp
  exact ⟨vertex_of_reaches hr hv, q, added, (based_of_reaches hr hv.based).2.1⟩

theorem vertex_of_visits (h : s.Visits p phase t) : t.Vertex := by
  cases phase with
  | one => exact (vertex_of_visits_one hs hp ho h).1
  | two =>
      obtain ⟨k, hk, -⟩ := Program.canonical?_eq ho
      exact (depicts_of_visits hs hp ho hk h).1

theorem HandsOver.driven (h : s.HandsOver p k cols n t) {x : ℕ × Tableau ℚ}
    (hx : Relation.ReflTransGen (Drives cols) (0, t) x) : t.Driven cols x.2 := by
  obtain ⟨-, -, -, -, -, hpos, -⟩ := h.reached
  exact driven_of_drives hx (vertex_of_visits hs hp ho h.visits) hpos

theorem move_ne_unbounded_of_visits (h : s.Visits p .one t) : t.move ≠ .unbounded := by
  obtain ⟨ht, q, added, he⟩ := vertex_of_visits_one hs hp ho h
  exact Canonical.HasArtificials.move_ne_unbounded ht he

end Exact

/-- Through both phases every row has a basic column that is exactly a unit vector, the objective
row included. In phase two the columns are those of the canonical form, so no artificial variable is
basic there. -/
theorem unitBasis_of_visits (h0 : 0 ≤ s.tolerance) (h1 : s.tolerance < 1) (hp : p.Valid)
    (ho : p.objective = some o) (h : s.Visits p phase t) :
    t.basis.length = t.rows.length ∧ t.basis.Nodup ∧
      (∀ r < t.rows.length, ∃ c, t.basis[r]? = some (some c) ∧ t.UnitIn r c) ∧
      (phase = .two → ∃ k, p.canonical? = .ok k ∧ t.width = k.program.vars.length ∧
        ∀ q added, k.withArtificials = .ok (q, added) → ∀ e ∈ added,
          some e.1.index ∉ t.basis) := by
  have hb := based_of_visits h0 h1 hp ho h
  refine ⟨List.length_map .., hb.unit.nodup_basis, fun r hr => ?_, ?_⟩
  · have hget := List.getElem?_eq_getElem hr
    obtain ⟨c, hc, hu⟩ := hb.unit r _ hget
    exact ⟨c, by rw [basis, List.getElem?_map, hget, Option.map_some, hc], hu⟩
  · rintro rfl
    obtain ⟨k, hk, -⟩ := Program.canonical?_eq ho
    have hw := (prices_of_visits h0 h1 hp ho hk h).width
    refine ⟨k, hk, hw, fun q added hq e he hm => ?_⟩
    have hle := ((Canonical.hasArtificials_of_eq hq).entered.index_lt e he).1
    have hlt := hb.unit.lt_of_mem_basis hm
    omega

theorem unitBasis_of_visits_slope : ∃ t, (⟨1 / 4, 10⟩ : Simplex ℚ).Visits .slope .two t ∧
    t.basis = [some 0] ∧ t.UnitIn 0 0 ∧ t.width = 2 := by
  have hs : ((⟨1 / 4, 10⟩ : Simplex ℚ).handOver? .slope).bind (fun x =>
      (x.2.2.2.restore x.1.program x.2.1).result.toOption.map fun u => (u.basis, u.width)) =
        some ([some 0], 2) := by
    decide +kernel
  cases hh : (⟨1 / 4, 10⟩ : Simplex ℚ).handOver? .slope with
  | none =>
      rw [hh] at hs
      cases hs
  | some x =>
      obtain ⟨k, cols, n, t⟩ := x
      obtain ⟨m, v, hv, -⟩ := t.exists_restore k.program cols
      simp only [hh, Option.bind_some, hv] at hs
      obtain ⟨hbasis, hwidth⟩ := Prod.mk.inj (Option.some.inj hs)
      have hvis : (⟨1 / 4, 10⟩ : Simplex ℚ).Visits .slope .two _ :=
        ⟨n, (handsOver_of_eq hh).run_restore hv⟩
      obtain ⟨hlen, -, hunit, -⟩ := unitBasis_of_visits (by norm_num) (by norm_num)
        Program.slope_valid rfl hvis
      rw [hbasis] at hlen hunit
      obtain ⟨c, hc, hu⟩ := hunit 0 (hlen ▸ Nat.one_pos)
      cases hc
      exact ⟨_, hvis, hbasis, hu, hwidth⟩

end Simplex

end LinProg
