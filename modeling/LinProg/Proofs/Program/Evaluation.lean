import LinProg.Proofs.Expr.Coverage
import LinProg.Proofs.Expr.Formula
import LinProg.Proofs.Program.Store

namespace LinProg

namespace Program

variable {p : Program ℚ} {e : LinExpr ℚ} {x : List ℚ}

theorem Consistent.coefficient_of_owns (hp : p.Consistent) (he : ∀ v ∈ e.vars, p.owns v) {j : ℕ}
    {v : Var} (hv : p.vars[j]? = some v) : e.coefficient v = e.coeffAt j := by
  obtain ⟨hj, rfl⟩ := List.getElem?_eq_some_iff.1 hv
  obtain ⟨hi, ho⟩ := hp.position j hj
  rw [LinExpr.coefficient_eq_coeffAt, hi]
  intro w hw
  rw [ho]
  exact (owns_iff.1 (he w hw)).1

theorem eval_of_le (h : p.vars.length ≤ x.length) (e : LinExpr ℚ) : p.eval e x = e.eval x :=
  if_neg (Nat.not_lt.2 h)

theorem eval_of_lt (h : x.length < p.vars.length) (e : LinExpr ℚ) :
    p.eval e x = .error (.tooFewValues p.vars.length x.length) := if_pos h

/-- The dense coefficients are those of the variables, and every evaluation that succeeds gives the
constant and their products with the values. It is refused where the assignment does not reach all
variables of the program, or all those of the expression. Dropping zero terms makes no difference to
either but that an assignment may be long enough then. -/
theorem eval_eq_denseValue (hp : p.Consistent) (he : ∀ v ∈ e.vars, p.owns v) (x : List ℚ) :
    ((e.dense p.vars.length).length = p.vars.length ∧
      ∀ (j : ℕ) v, p.vars[j]? = some v → (e.dense p.vars.length)[j]? = some (e.coefficient v)) ∧
    (p.vars.length ≤ x.length → p.eval e x = .ok (e.denseValue p.vars.length x) ∧
      e.eval x = .ok (e.denseValue p.vars.length x)) ∧
    (x.length < p.vars.length →
      p.eval e x = .error (.tooFewValues p.vars.length x.length) ∧
      (e.eval x = .ok (e.denseValue p.vars.length x) ↔ ∀ v ∈ e.vars, v.index < x.length) ∧
      ((∃ v ∈ e.vars, x.length ≤ v.index) → ∃ i, IsLeast (e.missing x.length) i ∧
        e.eval x = .error (.tooFewValues (i + 1) x.length))) ∧
    (∀ v, e.simplify.coefficient v = e.coefficient v) ∧
    e.simplify.dense p.vars.length = e.dense p.vars.length ∧
    ∀ a, (e.eval x = .ok a → e.simplify.eval x = .ok a) ∧
      (p.eval e x = .ok a → p.eval e.simplify x = .ok a) := by
  have hw := within_of_owns he
  have hok : e.eval x = .ok (e.denseValue p.vars.length x) ↔ e.Within x.length := by
    rw [LinExpr.eval_eq_ok_iff, ← LinExpr.value_eq_denseValue hw, and_iff_left rfl]
  refine ⟨⟨?_, fun j v hv => ?_⟩, fun hle => ?_, fun hlt => ⟨eval_of_lt hlt e, ?_, ?_⟩,
    e.coefficient_simplify, e.dense_simplify _, fun a => ⟨LinExpr.eval_simplify, fun h => ?_⟩⟩
  · rw [LinExpr.dense, List.length_map, List.length_range]
  · have hj := (List.getElem?_eq_some_iff.1 hv).1
    rw [LinExpr.dense_eq, List.getElem?_map, List.getElem?_range hj, Option.map_some,
      hp.coefficient_of_owns he hv]
  · have hx := hok.2 (hw.mono hle)
    exact ⟨(eval_of_le hle e).trans hx, hx⟩
  · exact hok.trans LinExpr.within_iff
  · rintro ⟨v, hv, hle⟩
    have hnot : ¬ e.Within x.length := fun h =>
      Nat.not_lt.2 hle (LinExpr.within_iff.1 h v hv)
    obtain ⟨i, hi⟩ := LinExpr.exists_isLeast_missing hnot
    exact ⟨i, hi, LinExpr.eval_eq_error hi⟩
  · rcases Nat.lt_or_ge x.length p.vars.length with hlt | hle
    · rw [eval_of_lt hlt] at h
      cases h
    · rw [eval_of_le hle] at h ⊢
      exact LinExpr.eval_simplify h

def box : Program ℚ := ⟨"box", 0, [⟨"x", 0, 0⟩, ⟨"y", 1, 0⟩, ⟨"z", 2, 0⟩], [], none⟩

theorem eval_eq_denseValue_box : ∃ e : LinExpr ℚ,
    e = .ofTerms [(⟨"x", 0, 0⟩, 2), (⟨"y", 1, 0⟩, 0)] 5 ∧ box.Consistent ∧
    (∀ v ∈ e.vars, box.owns v) ∧ e.dense 3 = [2, 0, 0] ∧
    box.eval e [4, 7, 9, 1] = .ok 13 ∧ e.eval [4, 7] = .ok 13 ∧
    box.eval e [4, 7] = .error (.tooFewValues 3 2) ∧
    e.eval [4] = .error (.tooFewValues 2 1) ∧ e.simplify.eval [4, 7] = .ok 13 := by
  obtain ⟨e, he⟩ : ∃ e : LinExpr ℚ, e = .ofTerms [(⟨"x", 0, 0⟩, 2), (⟨"y", 1, 0⟩, 0)] 5 :=
    ⟨_, rfl⟩
  have hvars : e.vars = [⟨"x", 0, 0⟩, ⟨"y", 1, 0⟩] := by
    rw [he]
    rfl
  have hown : ∀ v ∈ e.vars, box.owns v := by
    rw [hvars]
    decide
  have hbox : box.Consistent := by decide
  have hlong := (eval_eq_denseValue hbox hown [4, 7, 9, 1]).2.1 (by decide)
  obtain ⟨-, -, hmid, -, -, hsame⟩ := eval_eq_denseValue hbox hown [4, 7]
  obtain ⟨hshort, hcovers, -⟩ := hmid (by decide)
  obtain ⟨-, -, hone, -⟩ := eval_eq_denseValue hbox hown [4]
  obtain ⟨i, ⟨⟨hi, v, hv, hvi⟩, -⟩, herr⟩ :=
    (hone (by decide)).2.2 ⟨⟨"y", 1, 0⟩, hvars ▸ .tail _ (.head _), le_rfl⟩
  obtain rfl : i = 1 := by
    rw [hvars] at hv
    rcases List.mem_pair.1 hv with rfl | rfl
    · exact absurd (hvi ▸ hi) (by decide)
    · exact hvi.symm
  have h4 : e.denseValue 3 [4, 7, 9, 1] = 13 := by
    rw [he]
    decide +kernel
  have h2 : e.denseValue 3 [4, 7] = 13 := by
    rw [he]
    decide +kernel
  have heval : e.eval [4, 7] = .ok 13 := h2 ▸ hcovers.2 (by rw [hvars]; decide)
  refine ⟨e, he, hbox, hown, ?_, h4 ▸ hlong.1, heval, hshort, herr, (hsame 13).1 heval⟩
  rw [he]
  decide +kernel

end Program

end LinProg
