import Mathlib.Order.Nat
import LinProg.Proofs.Expr.Vars

namespace LinProg

namespace Terms

theorem getD_get?_nonzero (t : Terms ℚ) (v : Var) :
    (t.nonzero.get? v).getD 0 = (t.get? v).getD 0 := by
  have hs := t.sorted
  unfold get? nonzero
  dsimp only
  generalize t.toList = ts at hs ⊢
  induction ts with
  | nil => rfl
  | cons a ts ih =>
      obtain ⟨ha, hs⟩ := List.pairwise_cons.1 hs
      by_cases hv : (a.1 == v) = true
      · by_cases h0 : a.2 = 0
        · have hrest : (ts.filter fun b => b.2 != 0).find? (fun b => b.1 == v) = none := by
            refine List.find?_eq_none.2 fun b hb he => ?_
            have hlt := Var.lt_iff.1 (ha b (List.mem_of_mem_filter hb))
            have hav := Var.beq_iff.1 hv
            have hbv := Var.beq_iff.1 he
            omega
          simp [h0, hv, hrest]
        · simp [h0, hv]
      · by_cases h0 : a.2 = 0
        · simpa [h0, hv] using ih hs
        · simpa [h0, hv] using ih hs

end Terms

namespace LinExpr

section Missing

variable {α : Type}

/-- The positions of variables that an assignment of `n` values does not reach. -/
def missing (e : LinExpr α) (n : ℕ) : Set ℕ := {i | n ≤ i ∧ ∃ v ∈ e.vars, v.index = i}

variable {e : LinExpr α} {n i : ℕ}

theorem within_iff : e.Within n ↔ ∀ v ∈ e.vars, v.index < n := by
  rw [vars, Terms.vars, List.forall_mem_map]
  exact Iff.rfl

theorem exists_isLeast_missing (h : ¬ e.Within n) : ∃ i, IsLeast (e.missing n) i := by
  classical
  rw [within_iff] at h
  push Not at h
  obtain ⟨v, hv, hn⟩ := h
  exact ⟨_, Nat.isLeast_find ⟨v.index, hn, v, hv, rfl⟩⟩

theorem within_iff_missing : e.Within n ↔ e.missing n = ∅ := by
  constructor
  · intro h
    refine Set.eq_empty_of_forall_notMem fun i hi => ?_
    obtain ⟨hn, v, hv, rfl⟩ := hi
    exact absurd (within_iff.1 h v hv) (Nat.not_lt.2 hn)
  · intro h
    by_contra hw
    obtain ⟨i, hi, -⟩ := exists_isLeast_missing hw
    rw [h] at hi
    exact hi

variable [Scalar α]

theorem missing_scale (e : LinExpr α) (k : α) (n : ℕ) : (e.scale k).missing n = e.missing n := by
  rw [missing, vars_scale, missing]

/-- Also a term that cancels has to be reached. -/
theorem missing_sub (e f : LinExpr α) (n : ℕ) :
    (e - f).missing n = e.missing n ∪ f.missing n := by
  have hmem (g : LinExpr α) (i : ℕ) : (∃ v ∈ g.vars, v.index = i) ↔
      ∃ v, g.contains v ∧ v.index = i := by
    constructor
    · rintro ⟨v, hv, rfl⟩
      exact ⟨v, contains_iff.2 ⟨v, hv, Var.beq_iff.2 ⟨rfl, rfl⟩⟩, rfl⟩
    · rintro ⟨v, hv, rfl⟩
      obtain ⟨w, hw, hwv⟩ := contains_iff.1 hv
      exact ⟨w, hw, (Var.beq_iff.1 hwv).1⟩
  ext i
  simp only [missing, hmem, contains_sub, Bool.or_eq_true, Set.mem_union, Set.mem_ofPred_eq,
    or_and_right, exists_or, and_or_left]

theorem eval_eq_error {x : List α} (h : IsLeast (e.missing x.length) i) :
    e.eval x = .error (.tooFewValues (i + 1) x.length) := by
  obtain ⟨⟨hn, v, hv, hvi⟩, hleast⟩ := h
  have hs := e.terms.sorted
  obtain ⟨a, ha, rfl⟩ := List.mem_map.1 hv
  have hleast : ∀ b ∈ e.terms.toList, x.length ≤ b.1.index → i ≤ b.1.index := fun b hb hle =>
    hleast ⟨hle, b.1, List.mem_map_of_mem hb, rfl⟩
  unfold eval
  generalize e.terms.toList = ts at hs ha hleast
  generalize e.constant = s
  -- The scan stops at the first term not reached, and no later term has a lesser position.
  induction ts generalizing s with
  | nil => cases ha
  | cons b ts ih =>
      obtain ⟨hb, hs⟩ := List.pairwise_cons.1 hs
      rw [List.foldlM_cons]
      by_cases hlt : b.1.index < x.length
      · have hne : a ≠ b := by
          rintro rfl
          omega
        rw [List.getElem?_eq_getElem hlt]
        refine ih hs ?_ (fun c hc => hleast c (List.mem_cons_of_mem b hc)) _
        exact (List.mem_cons.1 ha).resolve_left hne
      · have hbi : b.1.index = i := by
          have hle := hleast b List.mem_cons_self (Nat.not_lt.1 hlt)
          rcases List.mem_cons.1 ha with rfl | ha
          · exact hvi
          · have hab := Var.lt_iff.1 (hb a ha)
            omega
        rw [List.getElem?_eq_none (Nat.not_lt.1 hlt), hbi]
        rfl

end Missing

variable {e : LinExpr ℚ} {x : List ℚ} {a : ℚ}

theorem eval_eq_ok_iff : e.eval x = .ok a ↔ e.Within x.length ∧ a = e.value (valuation x) := by
  constructor
  · intro h
    have hw : e.Within x.length := by
      by_contra hw
      obtain ⟨i, hi⟩ := exists_isLeast_missing hw
      rw [eval_eq_error hi] at h
      cases h
    rw [eval_eq hw] at h
    exact ⟨hw, (Except.ok.inj h).symm⟩
  · rintro ⟨hw, rfl⟩
    exact eval_eq hw

theorem coefficient_simplify (e : LinExpr ℚ) (v : Var) :
    e.simplify.coefficient v = e.coefficient v := e.terms.getD_get?_nonzero v

theorem dense_simplify (e : LinExpr ℚ) (n : ℕ) : e.simplify.dense n = e.dense n := by
  rw [dense_eq, dense_eq]
  refine List.map_congr_left fun j _ => ?_
  exact e.terms.value_nonzero _

theorem Within.simplify {n : ℕ} (h : e.Within n) : e.simplify.Within n :=
  fun a ha => h a (List.mem_of_mem_filter ha)

theorem eval_simplify (h : e.eval x = .ok a) : e.simplify.eval x = .ok a := by
  obtain ⟨hw, rfl⟩ := eval_eq_ok_iff.1 h
  rw [eval_eq hw.simplify, value_simplify]

end LinExpr

def dot (a x : List ℚ) : ℚ := (List.zipWith (· * ·) a x).sum

theorem dot_map_range (f : ℕ → ℚ) (n : ℕ) (x : List ℚ) :
    dot ((List.range n).map f) x = ∑ j ∈ Finset.range n, f j * valuation x j := by
  induction n generalizing f x with
  | zero => rfl
  | succ n ih =>
      rw [List.range_succ_eq_map, List.map_cons, List.map_map, Finset.sum_range_succ']
      cases x with
      | nil => simp [dot, valuation]
      | cons y x =>
          have htail := ih (f ∘ Nat.succ) x
          have hval (j : ℕ) : valuation (y :: x) (j + 1) = valuation x j := rfl
          simp only [hval]
          rw [dot] at htail ⊢
          rw [List.zipWith_cons_cons, List.sum_cons, htail, add_comm]
          rfl

namespace LinExpr

/-- The constant and the products of the dense coefficients with the values. -/
def denseValue (e : LinExpr ℚ) (n : ℕ) (x : List ℚ) : ℚ := e.constant + dot (e.dense n) x

theorem value_eq_denseValue {e : LinExpr ℚ} {n : ℕ} (h : e.Within n) (x : List ℚ) :
    e.value (valuation x) = e.denseValue n x := by
  rw [value_eq_sum h, denseValue, dense_eq, dot_map_range]

end LinExpr

end LinProg
