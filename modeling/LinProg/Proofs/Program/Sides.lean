import LinProg.Proofs.Expr.Coverage
import LinProg.Proofs.Program.Rewritten
import LinProg.Proofs.Program.Tolerance

namespace LinProg

namespace Constraint

variable {c : Constraint ℚ} {x : List ℚ} {τ : ℚ} {i : ℕ}

theorem satisfied?_of_within (h : c.expr.Within x.length) (τ : ℚ) :
    ∃ s, c.satisfied? x τ = .ok s ∧ (s = true ↔ c.HoldsUpTo τ (valuation x)) := by
  have hiff := satisfied_upTo_iff (τ := τ) h
  rw [satisfied?, LinExpr.eval_eq h] at hiff ⊢
  exact ⟨_, rfl, (Except.ok.injEq _ _).to_iff.symm.trans hiff⟩

theorem satisfied?_of_missing (h : IsLeast (c.expr.missing x.length) i) (τ : ℚ) :
    c.satisfied? x τ = .error (.tooFewValues (i + 1) x.length) := by
  rw [satisfied?, LinExpr.eval_eq_error h]
  rfl

theorem holdsUpTo_invert {y : ℕ → ℚ} : c.invert.HoldsUpTo τ y ↔ c.HoldsUpTo τ y := by
  rw [HoldsUpTo, gap_invert]
  exact c.relation.admitsUpTo_flip τ _

theorem satisfied?_invert (c : Constraint ℚ) (x : List ℚ) (τ : ℚ) :
    c.invert.satisfied? x τ = c.satisfied? x τ := by
  by_cases h : c.expr.Within x.length
  · have hinv : c.invert.expr.Within x.length := by
      rw [LinExpr.within_iff_missing] at h ⊢
      exact (c.expr.missing_scale _ _).trans h
    obtain ⟨s, hs, hiff⟩ := satisfied?_of_within h τ
    obtain ⟨s', hs', hiff'⟩ := satisfied?_of_within hinv τ
    have hss : s' = s := Bool.eq_iff_iff.2 (hiff'.trans (holdsUpTo_invert.trans hiff.symm))
    rw [hs, hs', hss]
  · obtain ⟨i, hi⟩ := LinExpr.exists_isLeast_missing h
    have hinv : IsLeast (c.invert.expr.missing x.length) i :=
      (c.expr.missing_scale (-1) x.length).symm ▸ hi
    rw [satisfied?_of_missing hi, satisfied?_of_missing hinv]

theorem gap_relate (lhs : LinExpr ℚ) (r : Relation) (rhs : LinExpr ℚ) (y : ℕ → ℚ) :
    (relate lhs r rhs).gap y = rhs.value y - lhs.value y := by
  have hsub := LinExpr.value_sub lhs rhs y
  rw [LinExpr.value] at hsub
  rw [gap, relate, LinExpr.value]
  linarith

theorem missing_relate (lhs : LinExpr ℚ) (r : Relation) (rhs : LinExpr ℚ) (n : ℕ) :
    (relate lhs r rhs).expr.missing n = lhs.missing n ∪ rhs.missing n :=
  LinExpr.missing_sub lhs rhs n

theorem within_relate (lhs : LinExpr ℚ) (r : Relation) (rhs : LinExpr ℚ) {n : ℕ} :
    (relate lhs r rhs).expr.Within n ↔ ∀ v ∈ lhs.vars ++ rhs.vars, v.index < n := by
  rw [LinExpr.within_iff_missing, missing_relate, Set.union_empty_iff, List.forall_mem_append,
    ← LinExpr.within_iff_missing, ← LinExpr.within_iff_missing, LinExpr.within_iff,
    LinExpr.within_iff]

/-- A constraint says of its two sides what its relation says, up to the tolerance, and turning it
around makes no difference. It is refused where the assignment does not reach a variable of one of
the sides, though it may have cancelled. -/
theorem satisfied?_relate (lhs : LinExpr ℚ) (r : Relation) (rhs : LinExpr ℚ) (x : List ℚ) (tol : ℚ) :
    (relate lhs r rhs).expr.constant = 0 ∧
    (relate lhs r rhs).invert.invert = relate lhs r rhs ∧
    (relate lhs r rhs).invert.satisfied? x tol = (relate lhs r rhs).satisfied? x tol ∧
    ((∀ v ∈ lhs.vars ++ rhs.vars, v.index < x.length) → ∃ a b s,
      lhs.eval x = .ok a ∧ rhs.eval x = .ok b ∧ (relate lhs r rhs).satisfied? x tol = .ok s ∧
      (s = true ↔ match r with
        | .le => a - b ≤ tol
        | .ge => -tol ≤ a - b
        | .eq => |a - b| ≤ tol)) ∧
    ((∃ v ∈ lhs.vars ++ rhs.vars, x.length ≤ v.index) →
      ∃ i, IsLeast (lhs.missing x.length ∪ rhs.missing x.length) i ∧
        (relate lhs r rhs).satisfied? x tol = .error (.tooFewValues (i + 1) x.length)) := by
  refine ⟨rfl, invert_invert _, satisfied?_invert _ x tol, fun h => ?_, ?_⟩
  · obtain ⟨s, hs, hiff⟩ := satisfied?_of_within ((within_relate lhs r rhs).2 h) tol
    obtain ⟨hl, hr⟩ := List.forall_mem_append.1 h
    refine ⟨_, _, s, LinExpr.eval_eq (LinExpr.within_iff.2 hl),
      LinExpr.eval_eq (LinExpr.within_iff.2 hr), hs, hiff.trans ?_⟩
    rw [HoldsUpTo, gap_relate]
    cases r with
    | le => exact neg_le_sub_iff_le_add.trans sub_le_iff_le_add'.symm
    | ge => exact sub_le_iff_le_add'.trans neg_le_sub_iff_le_add.symm
    | eq =>
        rw [abs_sub_comm]
        exact Iff.rfl
  · rintro ⟨v, hv, hle⟩
    have hnot : ¬ (relate lhs r rhs).expr.Within x.length := fun h =>
      Nat.not_lt.2 hle ((within_relate lhs r rhs).1 h v hv)
    obtain ⟨i, hi⟩ := LinExpr.exists_isLeast_missing hnot
    exact ⟨i, missing_relate lhs r rhs _ ▸ hi, satisfied?_of_missing hi tol⟩

/-- In `x + 2 y + 3 ≤ x + y + 7` the variable `x` cancels, but has to have a value. -/
theorem satisfied?_relate_cancelled : ∃ lhs rhs : LinExpr ℚ,
    lhs = .ofTerms [(⟨"x", 0, 0⟩, 1), (⟨"y", 1, 0⟩, 2)] 3 ∧
    rhs = .ofTerms [(⟨"x", 0, 0⟩, 1), (⟨"y", 1, 0⟩, 1)] 7 ∧
    (relate lhs .le rhs).satisfied? [100, 4] 0 = .ok true ∧
    (relate lhs .le rhs).satisfied? [100, 5] 0 = .ok false ∧
    (relate lhs .le rhs).satisfied? [] 0 = .error (.tooFewValues 1 0) ∧
    (relate lhs .le rhs).invert.satisfied? [] 0 = .error (.tooFewValues 1 0) := by
  obtain ⟨lhs, hl⟩ : ∃ e : LinExpr ℚ, e = .ofTerms [(⟨"x", 0, 0⟩, 1), (⟨"y", 1, 0⟩, 2)] 3 :=
    ⟨_, rfl⟩
  obtain ⟨rhs, hr⟩ : ∃ e : LinExpr ℚ, e = .ofTerms [(⟨"x", 0, 0⟩, 1), (⟨"y", 1, 0⟩, 1)] 7 :=
    ⟨_, rfl⟩
  have hlv : lhs.vars = [⟨"x", 0, 0⟩, ⟨"y", 1, 0⟩] := by
    rw [hl]
    rfl
  have hrv : rhs.vars = [⟨"x", 0, 0⟩, ⟨"y", 1, 0⟩] := by
    rw [hr]
    rfl
  have hpair (y a b : ℚ) (ha : lhs.eval [100, y] = .ok a) (hb : rhs.eval [100, y] = .ok b) :
      ∃ s, (relate lhs .le rhs).satisfied? [100, y] 0 = .ok s ∧ (s = true ↔ a - b ≤ 0) := by
    obtain ⟨-, -, -, hcovers, -⟩ := satisfied?_relate lhs .le rhs [100, y] 0
    obtain ⟨a', b', s, ha', hb', hs, hiff⟩ := hcovers (by rw [hlv, hrv]; simp)
    obtain rfl := Except.ok.inj (ha.symm.trans ha')
    obtain rfl := Except.ok.inj (hb.symm.trans hb')
    exact ⟨s, hs, hiff⟩
  obtain ⟨s, hs, htrue⟩ := hpair 4 111 111 (by rw [hl]; decide +kernel) (by rw [hr]; decide +kernel)
  obtain ⟨s', hs', hfalse⟩ :=
    hpair 5 113 112 (by rw [hl]; decide +kernel) (by rw [hr]; decide +kernel)
  obtain ⟨-, -, hinv, -, hmissing⟩ := satisfied?_relate lhs .le rhs [] 0
  obtain ⟨i, hi, herr⟩ := hmissing ⟨⟨"x", 0, 0⟩, by rw [hlv]; exact .head _, le_rfl⟩
  obtain rfl : i = 0 := Nat.le_zero.1 (hi.2 (.inl ⟨le_rfl, ⟨"x", 0, 0⟩, hlv ▸ .head _, rfl⟩))
  refine ⟨lhs, rhs, hl, hr, ?_, ?_, herr, hinv.trans herr⟩
  · rw [hs, htrue.2 (by norm_num)]
  · rw [hs', Bool.eq_false_iff.2 fun h => absurd (hfalse.1 h) (by norm_num)]

end Constraint

end LinProg
