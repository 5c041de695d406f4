import LinProg.Proofs.Program.Store
import LinProg.Program.Canonical

namespace LinProg

/-- Whether a relation admits what its left side is short of its right side. -/
def Relation.Admits : Relation → ℚ → Prop
  | le, g => 0 ≤ g
  | ge, g => g ≤ 0
  | eq, g => g = 0

theorem Relation.admits_flip (r : Relation) (g : ℚ) : r.flip.Admits (-g) ↔ r.Admits g := by
  cases r <;> simp [flip, Admits]

def Direction.Better : Direction → ℚ → ℚ → Prop
  | max, a, b => b < a
  | min, a, b => a < b

def Direction.gain : Direction → ℚ → ℚ
  | max, a => a
  | min, a => -a

theorem Direction.better_iff (d : Direction) (a b : ℚ) : d.Better a b ↔ d.gain b < d.gain a := by
  cases d with
  | max => exact Iff.rfl
  | min => exact neg_lt_neg_iff.symm

namespace Constraint

/-- What the expression is short of the bound. -/
def gap (c : Constraint ℚ) (x : ℕ → ℚ) : ℚ := c.bound - c.expr.value x

def Holds (c : Constraint ℚ) (x : ℕ → ℚ) : Prop := c.relation.Admits (c.gap x)

variable {c : Constraint ℚ} {x y : ℕ → ℚ} {n : ℕ}

theorem gap_congr (hc : c.expr.Within n) (h : ∀ i < n, x i = y i) : c.gap x = c.gap y := by
  rw [gap, gap, LinExpr.value_congr hc h]

theorem holds_congr (hc : c.expr.Within n) (h : ∀ i < n, x i = y i) :
    c.Holds x ↔ c.Holds y := by
  rw [Holds, Holds, gap_congr hc h]

theorem holds_iff_gap (h : c.relation = .eq) : c.Holds x ↔ c.gap x = 0 := by
  rw [Holds, h]
  exact Iff.rfl

theorem holds_simplify : c.simplify.Holds x ↔ c.Holds x := by
  simp [Holds, gap, simplify]

theorem gap_invert (c : Constraint ℚ) (x : ℕ → ℚ) : c.invert.gap x = -c.gap x := by
  simp only [gap, invert, LinExpr.value_scale]; ring

theorem holds_invert : c.invert.Holds x ↔ c.Holds x := by
  rw [Holds, gap_invert]
  exact c.relation.admits_flip (c.gap x)

theorem holds_orient : c.orient.Holds x ↔ c.Holds x := by
  rw [orient]
  split
  · exact holds_invert
  · exact Iff.rfl

theorem bound_orient_nonneg (c : Constraint ℚ) : 0 ≤ c.orient.bound := by
  rw [orient]
  split
  · next h => exact neg_nonneg.2 h.le
  · next h => exact not_lt.1 h

theorem satisfied_iff {l : List ℚ} (hc : c.expr.Within l.length) :
    c.satisfied? l 0 = .ok true ↔ c.Holds (valuation l) := by
  rw [satisfied?]
  rw [LinExpr.eval_eq hc]
  change Except.ok _ = Except.ok true ↔ _
  rw [Except.ok.injEq, Holds, gap]
  cases c.relation with
  | le => simp [Relation.Admits]
  | ge => simp [Relation.Admits]
  | eq => simp [Relation.Admits, sub_eq_zero, eq_comm (a := c.bound)]

end Constraint

namespace Program

def Satisfied (p : Program ℚ) (x : List ℚ) : Prop :=
  ∀ c ∈ p.constraints, c.satisfied? x 0 = .ok true

/-- One nonnegative value for each variable, with every constraint satisfied. -/
def Feasible (p : Program ℚ) (x : List ℚ) : Prop :=
  x.length = p.vars.length ∧ (∀ a ∈ x, 0 ≤ a) ∧ p.Satisfied x

instance (p : Program ℚ) (x : List ℚ) : Decidable (p.Satisfied x) :=
  inferInstanceAs (Decidable (∀ c ∈ p.constraints, c.satisfied? x 0 = .ok true))

instance (p : Program ℚ) (x : List ℚ) : Decidable (p.Feasible x) :=
  inferInstanceAs (Decidable (x.length = p.vars.length ∧ (∀ a ∈ x, 0 ≤ a) ∧ p.Satisfied x))

def Optimal (p : Program ℚ) (o : Objective ℚ) (x : List ℚ) : Prop :=
  p.Feasible x ∧ ∀ y, p.Feasible y →
    ∃ a b, p.eval o.expr y = .ok a ∧ p.eval o.expr x = .ok b ∧ ¬ o.direction.Better a b

def Unbounded (p : Program ℚ) (o : Objective ℚ) : Prop :=
  ∀ bound, ∃ x, p.Feasible x ∧ ∃ a, p.eval o.expr x = .ok a ∧ o.direction.Better a bound

variable {p : Program ℚ}

theorem eval_eq {e : LinExpr ℚ} {x : List ℚ} (he : e.Within p.vars.length)
    (hx : x.length = p.vars.length) : p.eval e x = .ok (e.value (valuation x)) := by
  rw [eval]
  rw [if_neg (by omega)]
  exact LinExpr.eval_eq (hx ▸ he)

theorem eval_map_range {e : LinExpr ℚ} (he : e.Within p.vars.length) (x : ℕ → ℚ) :
    p.eval e ((List.range p.vars.length).map x) = .ok (e.value x) := by
  rw [eval_eq he (by simp), LinExpr.value_congr he fun i hi => valuation_map_range x hi]

theorem Valid.within (hp : p.Valid) {c : Constraint ℚ} (hc : c ∈ p.constraints) :
    c.expr.Within p.vars.length := within_of_owns (hp.constraints c hc)

theorem Valid.within_objective (hp : p.Valid) {o : Objective ℚ} (ho : p.objective = some o) :
    o.expr.Within p.vars.length := within_of_owns (hp.objective o ho)

theorem satisfied_iff (hp : ∀ c ∈ p.constraints, c.expr.Within p.vars.length) {x : List ℚ}
    (hx : x.length = p.vars.length) :
    p.Satisfied x ↔ ∀ c ∈ p.constraints, c.Holds (valuation x) := by
  have h (c : Constraint ℚ) (hc : c ∈ p.constraints) :=
    Constraint.satisfied_iff (l := x) (by rw [hx]; exact hp c hc)
  exact ⟨fun hs c hc => (h c hc).1 (hs c hc), fun hs c hc => (h c hc).2 (hs c hc)⟩

theorem feasible_iff (hp : ∀ c ∈ p.constraints, c.expr.Within p.vars.length) {x : List ℚ} :
    p.Feasible x ↔ x.length = p.vars.length ∧ (∀ i, 0 ≤ valuation x i) ∧
      ∀ c ∈ p.constraints, c.Holds (valuation x) := by
  constructor
  · rintro ⟨hl, hn, hs⟩
    exact ⟨hl, valuation_nonneg_iff.2 hn, (satisfied_iff hp hl).1 hs⟩
  · rintro ⟨hl, hn, hs⟩
    exact ⟨hl, valuation_nonneg_iff.1 hn, (satisfied_iff hp hl).2 hs⟩

theorem feasible_map_range (hp : ∀ c ∈ p.constraints, c.expr.Within p.vars.length) {x : ℕ → ℚ}
    (hx : ∀ i < p.vars.length, 0 ≤ x i) (h : ∀ c ∈ p.constraints, c.Holds x) :
    p.Feasible ((List.range p.vars.length).map x) := by
  refine (feasible_iff hp).2 ⟨by simp, ?_, ?_⟩
  · apply valuation_nonneg_iff.2
    intro a ha
    obtain ⟨i, hi, rfl⟩ := List.mem_map.1 ha
    exact hx i (List.mem_range.1 hi)
  · intro c hc
    exact (Constraint.holds_congr (hp c hc) fun i hi => valuation_map_range x hi).2 (h c hc)

end Program

end LinProg
