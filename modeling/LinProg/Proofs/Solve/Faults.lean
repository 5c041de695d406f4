import LinProg.Proofs.Program.Runs
import LinProg.Proofs.Solve.Driving
import LinProg.Proofs.Solve.Endings
import LinProg.Proofs.Solve.Lookup

namespace LinProg

variable {α : Type} [Scalar α]

namespace Simplex

variable {s : Simplex α} {p : Program α} {f : Fault}

theorem error_of_solve (hα : Comparable α) {k : Canonical α} (hk : p.canonical? = .ok k)
    (h : (s.solve p).result = .error f) :
    f = .pivotLimit s.limit ∨ f = .unboundedPhaseOne ∧ k.needsPhaseOne = true := by
  cases solve_eq_iff.1 h with
  | missing objective => cases (Program.canonical?_none objective).symm.trans hk
  | exhausted => exact .inl rfl
  | refused _ _ move pivot =>
      obtain ⟨u, hu⟩ := Tableau.pivot_of_move hα move
      cases pivot.symm.trans hu
  | unboundedPhaseOne run _ _ =>
      obtain ⟨q, added, hq, -⟩ := k.withArtificials_eq
      exact .inr ⟨rfl, (run.one_climbs hk hq).1⟩
  | @notRestored k cols _ t _ _ _ restore =>
      obtain ⟨u, hu⟩ := Tableau.exists_restore_ok hα t k.program cols
      cases restore.symm.trans hu

theorem solve_eq_missingObjective_iff (hα : Comparable α) :
    (s.solve p).result = .error .missingObjective ↔ p.objective = none := by
  constructor
  · intro h
    cases ho : p.objective with
    | none => rfl
    | some o =>
        obtain ⟨k, hk, -⟩ := Program.canonical?_eq ho
        rcases error_of_solve hα hk h with hf | ⟨hf, -⟩
        · cases hf
        · cases hf
  · intro ho
    rw [solve, Logged.result_bind, Logged.result_lift, Program.canonical?_none ho]
    rfl

/-- However a program came about, its solve fails only for want of an objective, at the limit, or in
phase one where some row has no slack. No index it uses points past the end. -/
theorem faults_of_solve (hα : Comparable α) {w : List (Ledger α)} {l : Ledger α}
    (hr : Ledger.Runs w) (hl : l ∈ w) (s : Simplex α) :
    ((s.solve l.program).result = .error .missingObjective ↔ l.program.objective = none) ∧
    (∀ f, (s.solve l.program).result = .error f → f = .missingObjective ∨ f = .pivotLimit s.limit ∨
      f = .unboundedPhaseOne ∧ ∃ k, l.program.canonical? = .ok k ∧
        ∃ r < k.program.constraints.length, ∀ e ∈ k.slacks, e.2 ≠ r) ∧
    s.solve? l = .of ((s.solve l.program).result.map Solution.onGrid) := by
  refine ⟨solve_eq_missingObjective_iff hα, fun f h => ?_,
    solve?_eq s (Ledger.sound_of_runs hr l hl)⟩
  cases ho : l.program.objective with
  | none =>
      rw [(solve_eq_missingObjective_iff hα).2 ho] at h
      exact .inl (Except.error.inj h).symm
  | some o =>
      obtain ⟨k, hk, -⟩ := Program.canonical?_eq ho
      rcases error_of_solve hα hk h with hf | ⟨hf, hn⟩
      · exact .inr (.inl hf)
      · exact .inr (.inr ⟨hf, k, hk, k.exists_row_without_slack hn⟩)

end Simplex

def Program.climb : Program Numeral where
  name := "climb"
  id := 0
  vars := [⟨"x", 0, 0⟩]
  constraints := [⟨.ofTerms [(⟨"x", 0, 0⟩, 1)] 0, .ge, .num 4, 0⟩]
  objective := some ⟨.ofTerms [(⟨"x", 0, 0⟩, 1)] 0, .max⟩

/-- With a tolerance that compares to nothing, nothing is ever optimal and the limit ends it. -/
theorem Simplex.faults_of_solve_climb : ∃ l : Ledger Numeral, Ledger.Runs [l] ∧
    l.program = .climb ∧ (⟨.nan, 3⟩ : Simplex Numeral).solve? l = .of (.error (.pivotLimit 3)) := by
  have hbuilt : [.createVariable "x",
      .addConstraint ⟨.ofTerms [(⟨"x", 0, 0⟩, 1)] 0, .ge, .num 4, 0⟩,
      .maximize (.ofTerms [(⟨"x", 0, 0⟩, 1)] 0)].foldlM (fun p c => Call.apply p c)
      (Program.new "climb" 0) = .ok .climb := rfl
  obtain ⟨l, hr, hl⟩ := Ledger.exists_runs "climb" 0 hbuilt
  obtain ⟨-, -, hgrid⟩ :=
    faults_of_solve comparable_numeral hr List.mem_cons_self ⟨.nan, 3⟩
  have hf : ((⟨.nan, 3⟩ : Simplex Numeral).solve .climb).result = .error (.pivotLimit 3) :=
    eq_error_of_fault? (by decide +kernel)
  exact ⟨l, hr, hl, by rw [hgrid, hl, hf]; rfl⟩

end LinProg
