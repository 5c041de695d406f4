import LinProg.Proofs.Program.Numbers
import LinProg.Proofs.Solve.Result
import LinProg.Proofs.Tableau.Relabel

namespace LinProg

def Tableau.numbers {α : Type} (t : Tableau α) : List (Row α) × List (Option ℕ) :=
  (t.objective :: t.rows.map (·.row), t.rows.map (·.basic))

/-- Everything there is to a solution but names and the identity of the program. -/
def Solution.numbers {α : Type} (sol : Solution α) : Status × Optimum α × List α ×
    (List (Row α) × List (Option ℕ)) × List (Row α) × List (Option ℕ) :=
  (sol.status, sol.optimum, sol.values, sol.initial.numbers, sol.final.numbers)

namespace Simplex

variable {α : Type} [Scalar α] {s : Simplex α} {p q : Program α}

theorem optimize_relabel (s : Simplex α) (used : ℕ) (labels : List String) (t : Tableau α) :
    (s.optimize used (t.relabel labels)).result =
      (s.optimize used t).result.map (Ascent.relabel labels) := by
  have ha : (t.relabel labels).ascend (s.limit - used) =
      (t.ascend (s.limit - used)).relabel labels := Tableau.ascendFrom_relabel labels [] _ t
  rw [result_optimize, result_optimize, ha]
  generalize t.ascend (s.limit - used) = a
  obtain ⟨steps, last, halt⟩ := a
  cases halt with
  | optimal | unbounded | exhausted | refused => rfl

theorem conclude_relabel (s : Simplex α) (p q : Program α) (flipped : Bool) (used : ℕ)
    (labels labels' : List String) (initial t : Tableau α) :
    (s.conclude q flipped used (initial.relabel labels) (t.relabel labels')).result.map
        Solution.numbers =
      (s.conclude p flipped used initial t).result.map Solution.numbers := by
  rw [conclude, conclude, Logged.result_bind, Logged.result_bind, optimize_relabel]
  cases (s.optimize used t).result with
  | error f => rfl
  | ok a =>
      obtain ⟨steps, last, halt⟩ := a
      cases halt <;> cases flipped <;> rfl

theorem tableau_relabel {k l : Canonical α} (h : k.SameNumbers l) (tol : α) :
    l.program.tableau tol = (k.program.tableau tol).relabel l.program.names := by
  rw [Program.tableau, Program.tableau, Program.objectiveRow_eq_of_numbers h.program,
    Program.rows_eq_of_numbers h.length_vars h.constraints]
  rfl

theorem phaseOneTableau_relabel {r r' : Program α} {added added' : List (Var × ℕ)}
    (hn : r.vars.length = r'.vars.length)
    (hcs : r.constraints.map (·.numbers) = r'.constraints.map (·.numbers))
    (hadded : places added = places added') (tol : α) :
    r'.phaseOneTableau added' tol = (r.phaseOneTableau added tol).relabel r'.names := by
  rw [Program.phaseOneTableau, Program.phaseOneTableau,
    Program.phaseOneRow_eq_of_numbers hn hcs hadded, Program.rows_eq_of_numbers hn hcs]
  rfl

theorem proceed_relabel (s : Simplex α) (p q : Program α) {k l : Canonical α}
    (h : k.SameNumbers l) (cols : List ℕ) (labels : List String) (initial : Tableau α) (used : ℕ)
    (halt : Halt) (t : Tableau α) :
    (s.proceed q l cols (initial.relabel labels) used halt (t.relabel labels)).map
        Solution.numbers =
      (s.proceed p k cols initial used halt t).map Solution.numbers := by
  have hpositive : (t.relabel labels).hasPositive cols = t.hasPositive cols := rfl
  rw [proceed, proceed, hpositive]
  split
  · rfl
  · split
    · rfl
    · have hrestore := Tableau.restore_relabel cols labels t
        (Program.objectiveRow_eq_of_numbers h.program)
      rw [hrestore, ← h.flipped]
      cases (t.restore k.program cols).result with
      | error f => rfl
      | ok u => exact conclude_relabel s p q k.flipped _ _ _ initial u

theorem numbers_of_canonical (s : Simplex α) {k l : Canonical α} (h : k.SameNumbers l)
    (hk : p.canonical? = .ok k) (hl : q.canonical? = .ok l) :
    (s.solve q).result.map Solution.numbers = (s.solve p).result.map Solution.numbers := by
  have hneeds := h.needsPhaseOne_eq
  cases hn : k.needsPhaseOne with
  | false =>
      rw [solve_direct hk hn, solve_direct hl (hneeds ▸ hn), tableau_relabel h, h.flipped]
      exact conclude_relabel s p q l.flipped 0 _ _ _ _
  | true =>
      obtain ⟨r, added, hr, hkr⟩ := k.withArtificials_eq
      obtain ⟨r', added', hr', hlr⟩ := l.withArtificials_eq
      obtain ⟨hlen, hcs, hadded⟩ := h.artificials hkr hlr
      have hcols : added'.map (·.1.index) = added.map (·.1.index) := by
        simpa [places, Function.comp_def] using congrArg (List.map (·.1)) hadded.symm
      rw [solve_phaseOne hk hn hr, solve_phaseOne hl (hneeds ▸ hn) hr', hcols,
        phaseOneTableau_relabel hlen hcs hadded, optimize_relabel]
      cases (s.optimize 0 (r.phaseOneTableau added s.tolerance)).result with
      | error f => rfl
      | ok a => exact proceed_relabel s p q h _ r'.names _ _ a.halt a.last

theorem result_numbers (s : Simplex α) (hp : p.Consistent) (hq : q.Consistent)
    (h : p.numbers = q.numbers) :
    (s.solve q).result.map Solution.numbers = (s.solve p).result.map Solution.numbers := by
  cases ho : p.objective with
  | none =>
      have ho' := (Program.objective_eq_none_iff h).1 ho
      rw [solve, solve, Logged.result_bind, Logged.result_bind, Logged.result_lift,
        Logged.result_lift, Program.canonical?_none ho, Program.canonical?_none ho']
      rfl
  | some o =>
      obtain ⟨o', ho'⟩ : ∃ o', q.objective = some o' := by
        refine Option.ne_none_iff_exists'.1 fun hn => ?_
        rw [(Program.objective_eq_none_iff h).2 hn] at ho
        cases ho
      obtain ⟨k, hk, hpk⟩ := Program.canonical?_eq ho
      obtain ⟨l, hl, hql⟩ := Program.canonical?_eq ho'
      exact numbers_of_canonical s (hpk.sameNumbers hql hp hq ho ho' h) hk hl

/-- A solve does not look at names: whatever they are, it fails alike, or it finds the same verdict,
value and assignment by way of the same tableaux. -/
theorem solve_numbers (s : Simplex α) (hp : p.Consistent) (hq : q.Consistent)
    (h : p.numbers = q.numbers) :
    (s.solve p).result.map (fun sol => (sol.numbers, sol.assignment p)) =
      (s.solve q).result.map (fun sol => (sol.numbers, sol.assignment q)) := by
  have hn : p.vars.length = q.vars.length := congrArg Prod.fst h
  have hr := result_numbers s hp hq h
  cases ha : (s.solve p).result with
  | error f =>
      rw [ha] at hr
      cases hb : (s.solve q).result with
      | error g =>
          rw [hb] at hr
          cases hr
          rfl
      | ok b => rw [hb] at hr; cases hr
  | ok a =>
      rw [ha] at hr
      cases hb : (s.solve q).result with
      | error g => rw [hb] at hr; cases hr
      | ok b =>
          rw [hb] at hr
          have hab : b.numbers = a.numbers := Except.ok.inj hr
          have hvalues : b.values = a.values := congrArg (·.2.2.1) hab
          have hassign : a.assignment p = b.assignment q := by
            rw [Solution.assignment, Solution.assignment, hvalues, hn]
          simp only [Except.map, hab, hassign]

end Simplex

/-- A slack, a surplus variable and an artificial one are added to the variables `x` and `y`. -/
def Program.titled (id : ℕ) (x y : String) : Program ℚ where
  name := x
  id := id
  vars := [⟨x, 0, id⟩, ⟨y, 1, id⟩]
  constraints := [⟨.ofTerms [(⟨x, 0, id⟩, 1), (⟨y, 1, id⟩, 1)] 0, .le, 4, 0⟩,
    ⟨.ofTerms [(⟨x, 0, id⟩, 1)] 0, .ge, 1, 1⟩]
  objective := some ⟨.ofTerms [(⟨y, 1, id⟩, 1)] 0, .max⟩

theorem Simplex.solve_numbers_titled : ∃ a b,
    ((⟨0, 10⟩ : Simplex ℚ).solve (.titled 0 "s0" "a1")).result = .ok a ∧
    ((⟨0, 10⟩ : Simplex ℚ).solve (.titled 1 "x" "y")).result = .ok b ∧
    a.initial.labels = ["s0", "a1", "s0_1", "s1", "a1_1"] ∧
    b.initial.labels = ["x", "y", "s0", "s1", "a1"] ∧
    a.numbers = b.numbers ∧ a.assignment (.titled 0 "s0" "a1") = [1, 3] ∧
    b.assignment (.titled 1 "x" "y") = [1, 3] := by
  have hs : ((⟨0, 10⟩ : Simplex ℚ).solve (.titled 0 "s0" "a1")).result.toOption.map
      (fun sol => (sol.initial.labels, sol.assignment (.titled 0 "s0" "a1"))) =
      some (["s0", "a1", "s0_1", "s1", "a1_1"], [1, 3]) := by
    decide +kernel
  have ht : ((⟨0, 10⟩ : Simplex ℚ).solve (.titled 1 "x" "y")).result.toOption.map
      (·.initial.labels) = some ["x", "y", "s0", "s1", "a1"] := by
    decide +kernel
  obtain ⟨a, ha, hla⟩ := exists_ok_of_map_toOption hs
  obtain ⟨b, hb, hlb⟩ := exists_ok_of_map_toOption ht
  have hnum := solve_numbers (p := .titled 0 "s0" "a1") (q := .titled 1 "x" "y") ⟨0, 10⟩
    (by decide) (by decide) rfl
  rw [ha, hb] at hnum
  obtain ⟨hn, hassign⟩ := Prod.mk.inj (Except.ok.inj hnum)
  obtain ⟨hla, hva⟩ := Prod.mk.inj hla
  exact ⟨a, b, ha, hb, hla, hlb, hn, hva, hassign.symm.trans hva⟩

end LinProg
