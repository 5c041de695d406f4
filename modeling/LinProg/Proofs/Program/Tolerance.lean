import LinProg.Proofs.Program.Completion

namespace LinProg

def Relation.AdmitsUpTo (τ : ℚ) : Relation → ℚ → Prop
  | le, g => -τ ≤ g
  | ge, g => g ≤ τ
  | eq, g => |g| ≤ τ

theorem Relation.admitsUpTo_flip (r : Relation) (τ g : ℚ) :
    r.flip.AdmitsUpTo τ (-g) ↔ r.AdmitsUpTo τ g := by
  cases r <;> simp [flip, AdmitsUpTo, neg_le]

namespace Constraint

def HoldsUpTo (τ : ℚ) (c : Constraint ℚ) (x : ℕ → ℚ) : Prop := c.relation.AdmitsUpTo τ (c.gap x)

variable {c : Constraint ℚ} {x y : ℕ → ℚ} {τ : ℚ} {n : ℕ}

theorem holdsUpTo_congr (hc : c.expr.Within n) (h : ∀ i < n, x i = y i) :
    c.HoldsUpTo τ x ↔ c.HoldsUpTo τ y := by
  rw [HoldsUpTo, HoldsUpTo, gap_congr hc h]

theorem holdsUpTo_orient : c.simplify.orient.HoldsUpTo τ x ↔ c.HoldsUpTo τ x := by
  have hs : c.simplify.HoldsUpTo τ x ↔ c.HoldsUpTo τ x := by
    rw [HoldsUpTo, HoldsUpTo, gap, gap, simplify, LinExpr.value_simplify]
  rw [← hs, orient]
  split
  · rw [HoldsUpTo, gap_invert]
    exact c.relation.admitsUpTo_flip τ _
  · exact Iff.rfl

theorem satisfied_upTo_iff {l : List ℚ} (hc : c.expr.Within l.length) :
    c.satisfied? l τ = .ok true ↔ c.HoldsUpTo τ (valuation l) := by
  rw [satisfied?, LinExpr.eval_eq hc]
  change Except.ok _ = Except.ok true ↔ _
  rw [Except.ok.injEq, HoldsUpTo, gap]
  cases c.relation with
  | le =>
      rw [decide_eq_true_iff, Relation.AdmitsUpTo]
      constructor <;> intro h <;> linarith
  | ge =>
      rw [decide_eq_true_iff, Relation.AdmitsUpTo]
      constructor <;> intro h <;> linarith
  | eq => rw [decide_eq_true_iff, scalar_abs, abs_sub_comm, Relation.AdmitsUpTo]

end Constraint

/-- Where the added variables are not far below 0 and the equations of the canonical form not far
from true, nor are the constraints. -/
theorem Program.HasCanonical.holdsUpTo {p : Program ℚ} {o : Objective ℚ} {k : Canonical ℚ}
    (h : p.HasCanonical o k) {y : ℕ → ℚ} {τ ε : ℚ} (h0 : 0 ≤ τ)
    (hy : ∀ i < k.program.vars.length, -τ ≤ y i) (hd : ∀ d ∈ k.program.constraints, |d.gap y| ≤ ε) :
    ∀ c ∈ p.constraints, c.HoldsUpTo (τ + ε) y := by
  intro c hc
  obtain ⟨r, hr⟩ := List.getElem?_of_mem hc
  have ho : p.oriented[r]? = some c.simplify.orient := by
    rw [oriented, List.getElem?_map, hr, Option.map_some]
  rw [← Constraint.holdsUpTo_orient, Constraint.HoldsUpTo]
  have hadded {v : Var} {w : ℚ} (he : ((v, r), w) ∈ k.entries) : -τ ≤ y v.index :=
    hy _ (h.position_lt he)
  rcases h.row_cases ho with ⟨hrel, v, hv, hk⟩ | ⟨hrel, v, hv, hk⟩ | ⟨hrel, hk⟩
  · have hgap := abs_le.1 (hd _ (List.mem_of_getElem? hk))
    have hv := hadded (List.mem_append_left _ (List.mem_map_of_mem hv))
    rw [Auxiliary.slack_weighs.gap, one_mul] at hgap
    rw [hrel, Relation.AdmitsUpTo]
    linarith [hgap.1]
  · have hgap := abs_le.1 (hd _ (List.mem_of_getElem? hk))
    have hv := hadded (List.mem_append_right _ (List.mem_map_of_mem hv))
    rw [Auxiliary.surplus_weighs.gap, neg_one_mul, sub_neg_eq_add] at hgap
    rw [hrel, Relation.AdmitsUpTo]
    linarith [hgap.2]
  · rw [hrel, Relation.AdmitsUpTo]
    exact (hd _ (List.mem_of_getElem? hk)).trans (le_add_of_nonneg_left h0)

theorem Program.HasCanonical.satisfied_upTo {p : Program ℚ} {o : Objective ℚ} {k : Canonical ℚ}
    (h : p.HasCanonical o k) (hp : p.Valid) {y : ℕ → ℚ} {τ ε : ℚ} (h0 : 0 ≤ τ)
    (hy : ∀ i < k.program.vars.length, -τ ≤ y i) (hd : ∀ d ∈ k.program.constraints, |d.gap y| ≤ ε) :
    ∀ c ∈ p.constraints,
      c.satisfied? ((List.range p.vars.length).map y) (τ + ε) = .ok true := by
  intro c hc
  have hw := hp.within hc
  refine (Constraint.satisfied_upTo_iff (by simpa using hw)).2 ?_
  rw [Constraint.holdsUpTo_congr hw fun i hi => valuation_map_range y hi]
  exact h.holdsUpTo h0 hy hd c hc

end LinProg
