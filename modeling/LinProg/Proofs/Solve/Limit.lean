import Mathlib.Data.ENat.Basic
import LinProg.Proofs.Solve.Driving
import LinProg.Proofs.Solve.Endings

namespace LinProg

namespace Simplex

variable {α : Type} [Scalar α]

/-- After `n` pivots of both phases together, a solve without a limit wants one more. -/
def GoesPast (tol : α) (p : Program α) (n : ℕ) : Prop :=
  ∃ phase t, p.Run tol phase n t ∧ t.WantsPivot

variable {tol : α} {p : Program α} {s : Simplex α} {m n : ℕ}

theorem GoesPast.of_le (h : GoesPast tol p n) (hmn : m ≤ n) : GoesPast tol p m := by
  obtain ⟨phase, t, hrun, hw⟩ := h
  rcases hmn.lt_or_eq with hlt | rfl
  · exact hrun.of_lt hlt
  · exact ⟨phase, t, hrun, hw⟩

theorem solve_eq_pivotLimit_iff {l : ℕ} :
    (s.solve p).result = .error (.pivotLimit l) ↔ l = s.limit ∧ GoesPast s.tolerance p s.limit := by
  rw [solve_eq_iff]
  constructor
  · intro h
    cases h with
    | exhausted run wants => exact ⟨rfl, _, _, run, wants⟩
    | refused _ _ _ pivot => cases Tableau.pivot_fault pivot
    | notRestored _ _ restore =>
        obtain ⟨i, j, hf⟩ := Tableau.restore_fault restore
        cases hf
  · rintro ⟨rfl, phase, t, run, wants⟩
    exact .exhausted run wants

theorem Outcome.of_le {r : Except Fault (Solution α)} (h : (⟨tol, m⟩ : Simplex α).Outcome p r)
    (hmn : m ≤ n) (hne : r ≠ .error (.pivotLimit m)) : (⟨tol, n⟩ : Simplex α).Outcome p r := by
  cases h with
  | missing objective => exact .missing objective
  | exhausted => exact absurd rfl hne
  | refused run lt move pivot => exact .refused run (lt.trans_le hmn) move pivot
  | unboundedPhaseOne run le move => exact .unboundedPhaseOne run (le.trans hmn) move
  | infeasible starts run le hk hq move positive =>
      exact .infeasible starts run (le.trans hmn) hk hq move positive
  | notRestored handsOver le restore =>
      cases handsOver with
      | intro run hk hq move zero =>
          exact .notRestored (.intro run hk hq move zero) (le.trans hmn) restore
  | optimal starts run le hk move => exact .optimal starts run (le.trans hmn) hk move
  | unbounded starts run le hk move => exact .unbounded starts run (le.trans hmn) hk move

theorem exists_pivots (tol : α) (p : Program α) :
    ∃ pivots : ℕ∞, ∀ n : ℕ, GoesPast tol p n ↔ n < pivots := by
  classical
  by_cases hend : ∃ n, ¬ GoesPast tol p n
  · refine ⟨Nat.find hend, fun n => ?_⟩
    rw [Nat.cast_lt]
    constructor
    · intro h
      by_contra hle
      exact Nat.find_spec hend (h.of_le (not_lt.1 hle))
    · intro hlt
      exact not_not.1 (Nat.find_min hend hlt)
  -- A solve that never ends goes past every number of pivots.
  · push Not at hend
    exact ⟨⊤, fun n => ⟨fun _ => ENat.natCast_lt_top n, fun _ => hend n⟩⟩

/-- The limit only cuts a solve off. A result that is not the limit stays under every larger limit,
a limit that is too small leaves all smaller ones too small, and the ones too small are those below
the number of pivots that both phases together make without a limit. -/
theorem limit_cuts_off (tol : α) (p : Program α) :
    (∀ m n, m ≤ n → ((⟨tol, m⟩ : Simplex α).solve p).result ≠ .error (.pivotLimit m) →
      ((⟨tol, n⟩ : Simplex α).solve p).result = ((⟨tol, m⟩ : Simplex α).solve p).result) ∧
    (∀ m n, m ≤ n → ((⟨tol, n⟩ : Simplex α).solve p).result = .error (.pivotLimit n) →
      ((⟨tol, m⟩ : Simplex α).solve p).result = .error (.pivotLimit m)) ∧
    ∃ pivots : ℕ∞, (∀ n : ℕ, GoesPast tol p n ↔ n < pivots) ∧
      ∀ m : ℕ, ((⟨tol, m⟩ : Simplex α).solve p).result = .error (.pivotLimit m) ↔ m < pivots := by
  obtain ⟨pivots, hpivots⟩ := exists_pivots tol p
  refine ⟨fun m n hmn h => ?_, fun m n hmn h => ?_, pivots, hpivots, fun m => ?_⟩
  · exact ((outcome_solve _ p).of_le hmn h).result_eq
  · exact solve_eq_pivotLimit_iff.2 ⟨rfl, (solve_eq_pivotLimit_iff.1 h).2.of_le hmn⟩
  · rw [solve_eq_pivotLimit_iff, ← hpivots]
    exact and_iff_right rfl

end Simplex

/-- Both phases make one pivot: `x` enters at 2 and rises to 5. -/
def Program.relay : Program ℚ where
  name := "relay"
  id := 0
  vars := [⟨"x", 0, 0⟩]
  constraints := [⟨.ofTerms [(⟨"x", 0, 0⟩, 1)] 0, .ge, 2, 0⟩,
    ⟨.ofTerms [(⟨"x", 0, 0⟩, 1)] 0, .le, 5, 1⟩]
  objective := some ⟨.ofTerms [(⟨"x", 0, 0⟩, 1)] 0, .max⟩

theorem Simplex.limit_cuts_off_relay : ∃ sol,
    ((⟨0, 2⟩ : Simplex ℚ).solve .relay).result = .ok sol ∧ sol.assignment .relay = [5] ∧
    ((⟨0, 10000⟩ : Simplex ℚ).solve .relay).result = .ok sol ∧
    ((⟨0, 1⟩ : Simplex ℚ).solve .relay).result = .error (.pivotLimit 1) ∧
    ((⟨0, 0⟩ : Simplex ℚ).solve .relay).result = .error (.pivotLimit 0) ∧
    GoesPast 0 .relay 1 ∧ ¬ GoesPast 0 .relay 2 := by
  have hs : ((⟨0, 2⟩ : Simplex ℚ).solve .relay).result.toOption.map (·.assignment .relay) =
      some [5] := by
    decide +kernel
  have h1 : ((⟨0, 1⟩ : Simplex ℚ).solve .relay).result = .error (.pivotLimit 1) :=
    eq_error_of_fault? (by decide +kernel)
  obtain ⟨hlarger, hsmaller, pivots, hpast, hlimit⟩ := limit_cuts_off (0 : ℚ) .relay
  obtain ⟨sol, hr, hx⟩ := exists_ok_of_map_toOption hs
  have hne : ((⟨0, 2⟩ : Simplex ℚ).solve .relay).result ≠ .error (.pivotLimit 2) := by
    rw [hr]
    exact nofun
  refine ⟨sol, hr, hx, ?_, h1, hsmaller 0 1 zero_le_one h1, ?_, ?_⟩
  · rw [hlarger 2 10000 (by norm_num) hne, hr]
  · exact (hpast 1).2 ((hlimit 1).1 h1)
  · exact fun h => hne ((hlimit 2).2 ((hpast 2).1 h))

end LinProg
