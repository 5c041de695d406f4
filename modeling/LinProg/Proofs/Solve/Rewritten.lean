import LinProg.Proofs.Program.Rewritten
import LinProg.Proofs.Solve.Endings
import LinProg.Proofs.Solve.Visits

namespace LinProg

def Optimum.neg : Optimum ℚ → Optimum ℚ
  | attained x => attained (-x)
  | plusInfinity => minusInfinity
  | minusInfinity => plusInfinity
  | undefined => undefined

def Solution.turn (turned : Bool) (sol : Solution ℚ) : Solution ℚ :=
  { sol with optimum := if turned then sol.optimum.neg else sol.optimum }

namespace Simplex

variable {s : Simplex ℚ} {p q : Program ℚ} {turned flipped : Bool} {used : ℕ}
variable {initial t : Tableau ℚ}

theorem conclude_turn (h : p.SameForm q turned) :
    (s.conclude q (flipped ^^ turned) used initial t).result =
      (s.conclude p flipped used initial t).result.map (Solution.turn turned) := by
  simp only [conclude, Logged.result_bind, h.id, h.names]
  cases ha : (s.optimize used t).result with
  | error f => rfl
  | ok a =>
      rw [ok_bind, ok_bind]
      rcases (optimize_eq_ok_iff.1 ha).2 with hh | hh <;>
        cases flipped <;> cases turned <;>
          simp [hh, Except.map, Solution.turn, Optimum.neg, ok_bind, pure]

theorem proceed_turn (h : p.SameForm q turned) {k : Canonical ℚ} {cols : List ℕ} {halt : Halt} :
    s.proceed q { k with flipped := k.flipped ^^ turned } cols initial used halt t =
      (s.proceed p k cols initial used halt t).map (Solution.turn turned) := by
  rw [proceed, proceed]
  by_cases hu : halt = .unbounded
  · rw [if_pos hu, if_pos hu]
    rfl
  · rw [if_neg hu, if_neg hu]
    by_cases hpos : t.hasPositive cols
    · rw [if_pos hpos, if_pos hpos, h.id, h.names]
      cases turned <;> rfl
    · rw [if_neg hpos, if_neg hpos]
      cases (t.restore k.program cols).result with
      | error f => rfl
      | ok v => exact conclude_turn h

/-- Solving sees a program through its canonical form alone. -/
theorem solve_turn (h : p.SameForm q turned) :
    (s.solve q).result = (s.solve p).result.map (Solution.turn turned) := by
  cases ho : p.objective with
  | none =>
      have ho' : q.objective = none := by simpa [ho] using h.objective
      rw [solve, solve, Logged.result_bind, Logged.result_bind, Logged.result_lift,
        Logged.result_lift, Program.canonical?_none ho, Program.canonical?_none ho']
      rfl
  | some o =>
      obtain ⟨k, hk, -⟩ := Program.canonical?_eq ho
      have hk' := h.canonical? hk
      cases hn : k.needsPhaseOne with
      | false => rw [solve_direct hk hn, solve_direct hk' hn, conclude_turn h]
      | true =>
          obtain ⟨r, added, hq, -⟩ := k.withArtificials_eq
          rw [solve_phaseOne hk hn hq, solve_phaseOne hk' hn hq]
          cases s.optimize 0 (r.phaseOneTableau added s.tolerance) |>.result with
          | error f => rfl
          | ok a => exact proceed_turn h
/-- However a program is written, solving it takes the same course: it fails alike, or it goes from
the same tableau to the same tableau and ends with the same verdict and values. The value of the
objective is the same too, or has the other sign where the objective is turned around. -/
theorem solve_of_rewritten (s : Simplex ℚ) (h : p.Rewritten q turned) :
    (∃ f, (s.solve p).result = .error f ∧ (s.solve q).result = .error f) ∨
      ∃ a b, (s.solve p).result = .ok a ∧ (s.solve q).result = .ok b ∧
        b.status = a.status ∧ b.assignment q = a.assignment p ∧ b.values = a.values ∧
        b.initial = a.initial ∧ b.final = a.final ∧
        (b.optimum = if turned then a.optimum.neg else a.optimum) ∧
        (a.status = .infeasible → a.optimum = .undefined ∧ b.optimum = .undefined) := by
  have hform := h.sameForm
  have hturn := solve_turn (s := s) hform
  cases hp : (s.solve p).result with
  | error f =>
      rw [hp] at hturn
      exact .inl ⟨f, rfl, hturn⟩
  | ok a =>
      rw [hp] at hturn
      refine .inr ⟨a, _, rfl, hturn, rfl, ?_, rfl, rfl, rfl, rfl, fun hst => ?_⟩
      · rw [Solution.assignment, Solution.assignment, hform.vars]
        rfl
      · exact ⟨(records_of_solve hp).optimum hst, (records_of_solve hturn).optimum hst⟩

theorem solve_of_rewritten_slope : ∃ q a b, Program.slope.Rewritten q true ∧
    q.objective.map (·.direction) = some .max ∧
    ((⟨0, 10⟩ : Simplex ℚ).solve .slope).result = .ok a ∧ a.optimum = .minusInfinity ∧
    ((⟨0, 10⟩ : Simplex ℚ).solve q).result = .ok b ∧ b.optimum = .plusInfinity ∧
    b.final = a.final := by
  have hobj : Program.slope.objective = some ⟨.ofTerms [(⟨"x", 0, 0⟩, -1)] 3, .min⟩ := rfl
  have hterm : (LinExpr.ofTerms [(⟨"x", 0, 0⟩, -1), (⟨"y", 1, 0⟩, 0)] 3 : LinExpr ℚ).simplify =
      (LinExpr.ofTerms [(⟨"x", 0, 0⟩, -1)] 3 : LinExpr ℚ).simplify := by
    simp [LinExpr.simplify, LinExpr.ofTerms, Terms.addAll, Terms.add, Terms.insert, Terms.empty,
      Terms.nonzero, Var.lt_iff]
  have hq := ((Program.Rewritten.refl (p := .slope)).invert (i := 1) rfl (by decide +kernel)
    |>.objectiveTerms hobj hterm).turn rfl
  have hs : ((⟨0, 10⟩ : Simplex ℚ).solve .slope).result.toOption.map (·.optimum) =
      some .minusInfinity := by
    decide +kernel
  obtain ⟨f, hf, -⟩ | ⟨a, b, ha, hb, -, -, -, -, hfinal, hopt, -⟩ := solve_of_rewritten ⟨0, 10⟩ hq
  · rw [hf] at hs
    cases hs
  · rw [ha] at hs
    have hv : a.optimum = .minusInfinity := Option.some.inj hs
    exact ⟨_, a, b, hq, rfl, ha, hv, hb, by rw [hopt, hv]; rfl, hfinal⟩

end Simplex

end LinProg
