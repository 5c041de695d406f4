import LinProg.Proofs.Solve.Visits
import LinProg.Proofs.Tableau.Rise

namespace LinProg

/-- Six degenerate pivots lead back to the slack variables. -/
def Program.whirl : Program ℚ where
  name := "whirl"
  id := 0
  vars := [⟨"x", 0, 0⟩, ⟨"y", 1, 0⟩, ⟨"z", 2, 0⟩, ⟨"w", 3, 0⟩]
  constraints :=
    [⟨.ofTerms [(⟨"x", 0, 0⟩, 1 / 4), (⟨"y", 1, 0⟩, -8), (⟨"z", 2, 0⟩, -1), (⟨"w", 3, 0⟩, 9)] 0,
        .le, 0, 0⟩,
      ⟨.ofTerms [(⟨"x", 0, 0⟩, 1 / 2), (⟨"y", 1, 0⟩, -12), (⟨"z", 2, 0⟩, -1 / 2),
        (⟨"w", 3, 0⟩, 3)] 0, .le, 0, 1⟩]
  objective := some ⟨.ofTerms [(⟨"x", 0, 0⟩, 3 / 4), (⟨"y", 1, 0⟩, -20), (⟨"z", 2, 0⟩, 1 / 2),
    (⟨"w", 3, 0⟩, -6)] 0, .max⟩

theorem Program.whirl_valid : whirl.Valid := by decide

namespace Simplex

open Tableau

variable {s : Simplex ℚ} {p : Program ℚ} {o : Objective ℚ}

/-- Through both phases, and while the artificial variables are driven out between them, the basic
solution stays feasible, and a pivot raises the objective unless it is degenerate. So within one
phase only degenerate pivots lead back to the same basic columns. -/
theorem nonneg_and_rises_of_visits (hs : s.tolerance = 0) (hp : p.Valid)
    (ho : p.objective = some o) :
    (∀ phase t, s.Visits p phase t → t.RhsNonneg) ∧
      (∀ k cols n t x, s.HandsOver p k cols n t →
        Relation.ReflTransGen (Drives cols) (0, t) x → x.2.RhsNonneg) ∧
      (∀ phase t u, s.Visits p phase t → t.Advances u → ∃ q, t.AdvancesBy q u ∧
        (q = 0 ∧ u.value = t.value ∨ 0 < q ∧ t.value < u.value)) ∧
      ∀ phase t u, s.Visits p phase t → Relation.ReflTransGen Advances t u →
        t.basicColumns = u.basicColumns → ∀ v q w, Relation.ReflTransGen Advances t v →
          v.AdvancesBy q w → Relation.ReflTransGen Advances w u → q = 0 := by
  refine ⟨fun phase t ht => ?_, fun k cols n t x h hx => ?_, fun phase t u ht htu => ?_,
    fun phase t u ht htu hc v q w htv hvw hwu => ?_⟩
  · exact (vertex_of_visits hs hp ho ht).nonneg
  · exact (h.driven hs hp ho hx).vertex.nonneg
  · have hv := vertex_of_visits hs hp ho ht
    obtain ⟨q, hq⟩ := htu.exists_ratio hv.exact.ge
    exact ⟨q, hq, hq.rises hv⟩
  · exact ratio_eq_zero_of_return (vertex_of_visits hs hp ho ht) htu hc htv hvw hwu

theorem nonneg_and_rises_of_visits_whirl : ∃ t u v, (⟨0, 10⟩ : Simplex ℚ).Visits .whirl .two t ∧
    t.AdvancesBy 0 v ∧ Relation.ReflTransGen Advances v u ∧ t.basis = [some 4, some 5] ∧
    v.basis = [some 0, some 5] ∧ u.basis = [some 4, some 5] ∧ t.RhsNonneg := by
  have hstart : Program.whirl.canonical?.toOption.map (fun k =>
      (k.needsPhaseOne, (k.program.tableau 0).move)) = some (false, .pivot 1 0) := by
    decide +kernel
  have hbases : Program.whirl.canonical?.toOption.bind (fun k =>
      ((k.program.tableau 0).pivot 1 0).toOption.map fun v =>
        [(k.program.tableau 0).basis, v.basis, (v.ascend 5).last.basis]) =
      some [[some 4, some 5], [some 0, some 5], [some 4, some 5]] := by
    decide +kernel
  obtain ⟨k, hk, -⟩ := Program.canonical?_eq (show Program.whirl.objective = some _ from rfl)
  simp only [hk, Except.toOption, Option.map_some, Option.some.injEq, Prod.mk.injEq] at hstart
  obtain ⟨hn, hm⟩ := hstart
  obtain ⟨v, hv⟩ := exists_pivot_of_move hm
  simp only [hk, hv, Except.toOption, Option.bind_some, Option.map_some, Option.some.injEq,
    List.cons.injEq] at hbases
  obtain ⟨htb, hvb, hub, -⟩ := hbases
  have ht : (⟨0, 10⟩ : Simplex ℚ).Visits .whirl .two (k.program.tableau 0) :=
    ⟨0, .start (.two hk hn)⟩
  obtain ⟨-, -, hclimbs, -⟩ := climbs_ascend 5 v
  have hvu := hclimbs.reaches
  obtain ⟨hnonneg, -, hrise, hreturn⟩ :=
    nonneg_and_rises_of_visits (s := ⟨0, 10⟩) rfl Program.whirl_valid rfl
  obtain ⟨q, hq, -⟩ := hrise .two _ v ht ⟨1, 0, hm, hv⟩
  obtain rfl : q = 0 := by
    refine hreturn .two _ _ ht (hvu.head hq.advances) ?_ _ q v .refl hq hvu
    rw [basicColumns, basicColumns, htb, hub]
  exact ⟨_, _, v, ht, hq, hvu, htb, hvb, hub, hnonneg .two _ ht⟩

end Simplex

end LinProg
