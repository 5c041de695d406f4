import LinProg.Proofs.Program.Store
import LinProg.Proofs.Solve.Endings

namespace LinProg

variable {α : Type} [Scalar α]

namespace Program

/-- The program `q` is `p`, or a copy of it, after more was added to it. -/
inductive Grows (p : Program α) : Program α → Prop
  | refl : Grows p p
  | addVariable {q r : Program α} {name : String} {v : Var} (h : Grows p q)
      (add : q.addVariable name = .ok (v, r)) : Grows p r
  | addConstraint {q r : Program α} {c : Constraint α} (h : Grows p q)
      (add : q.addConstraint c = .ok r) : Grows p r
  | setObjective {q r : Program α} {o : Objective α} (h : Grows p q)
      (set : q.setObjective o = .ok r) : Grows p r
  | simplify {q : Program α} (h : Grows p q) : Grows p q.simplify

variable {p q : Program α}

theorem Grows.id (h : p.Grows q) : q.id = p.id := by
  induction h with
  | refl => rfl
  | addVariable _ add ih =>
      obtain ⟨-, -, rfl⟩ := addVariable_eq add
      exact ih
  | addConstraint _ add ih =>
      obtain ⟨-, rfl⟩ := addConstraint_eq add
      exact ih
  | setObjective _ set ih =>
      obtain ⟨-, rfl⟩ := setObjective_eq set
      exact ih
  | simplify _ ih => exact ih

theorem Grows.consistent (hp : p.Consistent) (h : p.Grows q) : q.Consistent := by
  induction h with
  | refl => exact hp
  | addVariable _ add ih => exact ih.addVariable add
  | addConstraint _ add ih => exact ih.addConstraint add
  | setObjective _ set ih => exact ih.setObjective set
  | simplify _ ih => exact ih.simplify

end Program

namespace Solution

variable {p q : Program α} {sol : Solution α} {v : Var}

theorem getElem?_assignment {i : ℕ} (hi : i < q.vars.length) :
    (sol.assignment q)[i]? = some (sol.values.getD i 0) := by
  rw [assignment, List.getElem?_map, List.getElem?_range hi, Option.map_some]

theorem Records.value_of_lt (h : sol.Records p) (ho : v.owner = p.id)
    (hv : v.index < p.vars.length) : sol.value v = .ok (sol.values.getD v.index 0) := by
  rw [value, if_neg]
  rw [h.owner, h.names, Program.names, List.length_map]
  rintro (hne | hle)
  · exact hne ho
  · exact Nat.not_lt.2 hle hv

theorem Records.value_of_le (h : sol.Records p) (hv : p.vars.length ≤ v.index) :
    sol.value v = .error (.foreignVariable v.name) := by
  rw [value, if_pos]
  rw [h.names, Program.names, List.length_map]
  exact .inr hv

end Solution

/-- A program may grow once it is solved. Its assignment and the values of its variables still agree
on what was there. A variable that came later has no value, and in the assignment it has that of the
column at its position in the final tableau, past the columns of the program solved. -/
theorem Simplex.assignment_of_grows (s : Simplex α) {p q : Program α} {sol : Solution α}
    (hp : p.Consistent) (hq : p.Grows q) (h : (s.solve p).result = .ok sol) :
    (sol.assignment q).length = q.vars.length ∧ ∀ v ∈ q.vars,
      (v.index < p.vars.length →
        ∃ x, sol.value v = .ok x ∧ (sol.assignment q)[v.index]? = some x) ∧
      (p.vars.length ≤ v.index →
        sol.value v = .error (.foreignVariable v.name) ∧
          (sol.assignment q)[v.index]? = some (sol.final.assignment.getD v.index 0)) := by
  have hr := records_of_solve h
  refine ⟨by simp [Solution.assignment], ?_⟩
  intro v hv
  obtain ⟨hi, ho⟩ := (hq.consistent hp).of_mem hv
  constructor
  · intro hlt
    exact ⟨_, hr.value_of_lt (ho.trans hq.id) hlt, Solution.getElem?_assignment hi⟩
  · intro hle
    exact ⟨hr.value_of_le hle, hr.values ▸ Solution.getElem?_assignment hi⟩

def Program.spare : Program ℚ where
  name := "spare"
  id := 0
  vars := [⟨"x", 0, 0⟩]
  constraints := [⟨.ofTerms [(⟨"x", 0, 0⟩, 1)] 0, .le, 4, 0⟩]
  objective := some ⟨.ofTerms [(⟨"x", 0, 0⟩, 1)] 0, .min⟩

theorem Simplex.values_spare : ∃ sol, ((⟨0, 10⟩ : Simplex ℚ).solve .spare).result = .ok sol ∧
    sol.values = [0, 4] := by
  have hs : ((⟨0, 10⟩ : Simplex ℚ).solve .spare).result.toOption.map (·.values) = some [0, 4] := by
    decide +kernel
  exact exists_ok_of_map_toOption hs

theorem Simplex.assignment_of_grows_spare : ∃ q sol, Program.spare.Grows q ∧
    q.vars = [⟨"x", 0, 0⟩, ⟨"w", 1, 0⟩, ⟨"u", 2, 0⟩] ∧
    ((⟨0, 10⟩ : Simplex ℚ).solve .spare).result = .ok sol ∧ sol.assignment q = [0, 4, 0] ∧
    sol.value ⟨"x", 0, 0⟩ = .ok 0 ∧ sol.value ⟨"w", 1, 0⟩ = .error (.foreignVariable "w") := by
  have hw : Program.spare.addVariable "w" = .ok (⟨"w", 1, 0⟩, _) := rfl
  have hu : Program.addVariable { Program.spare with vars := [⟨"x", 0, 0⟩, ⟨"w", 1, 0⟩] } "u" =
      .ok (⟨"u", 2, 0⟩, _) := rfl
  have hq := (Program.Grows.refl.addVariable hw).addVariable hu
  obtain ⟨sol, hr, hvalues⟩ := values_spare
  obtain ⟨-, hv⟩ := assignment_of_grows _ (by decide) hq hr
  refine ⟨_, sol, hq, rfl, hr, by rw [Solution.assignment, hvalues]; rfl, ?_, ?_⟩
  · obtain ⟨x, hx, he⟩ := (hv ⟨"x", 0, 0⟩ (.head _)).1 zero_lt_one
    rw [Solution.assignment, hvalues] at he
    rw [hx, ← Option.some.inj he]
    rfl
  · exact ((hv ⟨"w", 1, 0⟩ (.tail _ (.head _))).2 le_rfl).1

/-- A variable that came after the solve is not always assigned 0: `w` gets the slack. -/
theorem Simplex.assignment_reads_slack : ¬ ∀ (s : Simplex ℚ) (p q : Program ℚ) (sol : Solution ℚ),
    p.Consistent → p.Grows q → (s.solve p).result = .ok sol →
    ∀ v ∈ q.vars, p.vars.length ≤ v.index → (sol.assignment q)[v.index]? = some 0 := by
  intro hzero
  obtain ⟨sol, hr, hvalues⟩ := values_spare
  have hw : Program.spare.addVariable "w" = .ok (⟨"w", 1, 0⟩, _) := rfl
  have h0 := hzero _ _ _ sol (by decide) (Program.Grows.refl.addVariable hw) hr ⟨"w", 1, 0⟩
    (.tail _ (.head _)) le_rfl
  rw [Solution.assignment, hvalues] at h0
  exact absurd (Option.some.inj h0) (by decide +kernel)

end LinProg
