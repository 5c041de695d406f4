import Mathlib.Algebra.Order.Ring.Abs
import LinProg.Proofs.Expr.Value
import LinProg.Proofs.Tableau.Budget

namespace LinProg

/-- All that is asked of comparisons: a number that is not within a bound is no closer to 0 than
that, and a number above a bound is not within it. Floating point numbers comply, with those that
compare to nothing included. -/
structure Comparable (α : Type) [Scalar α] : Prop where
  abs : ∀ a t : α, ¬ a ≤ t → ¬ Scalar.abs a ≤ t
  above : ∀ a t : α, t < a → ¬ a ≤ t

theorem comparable_rat : Comparable ℚ where
  abs a t h := by
    rw [scalar_abs]
    exact fun hle => h ((le_abs_self a).trans hle)
  above _ _ h := not_le.2 h

/-- The rational numbers with one more that compares to nothing. -/
inductive Numeral where
  | nan
  | num (q : ℚ)

namespace Numeral

def lift (f : ℚ → ℚ → ℚ) : Numeral → Numeral → Numeral
  | num p, num q => num (f p q)
  | _, _ => nan

def compares (r : ℚ → ℚ → Bool) : Numeral → Numeral → Bool
  | num p, num q => r p q
  | _, _ => false

def map (f : ℚ → ℚ) : Numeral → Numeral
  | num q => num (f q)
  | nan => nan

instance : Scalar Numeral where
  zero := num 0
  one := num 1
  add := lift (· + ·)
  sub := lift (· - ·)
  mul := lift (· * ·)
  div a b := if compares (· == ·) b (num 0) then nan else lift (· / ·) a b
  neg := map (-·)
  lt a b := compares (fun p q => decide (p < q)) a b
  le a b := compares (fun p q => decide (p ≤ q)) a b
  beq := compares (· == ·)
  abs := map Scalar.abs
  decidableLT _ _ := inferInstanceAs (Decidable (_ = true))
  decidableLE _ _ := inferInstanceAs (Decidable (_ = true))

end Numeral

theorem comparable_numeral : Comparable Numeral where
  abs a t h := by
    cases a with
    | nan => exact h
    | num p =>
        cases t with
        | nan => exact h
        | num q =>
            have hpq : ¬ p ≤ q := fun hle => h (decide_eq_true hle)
            exact fun hle => comparable_rat.abs p q hpq (of_decide_eq_true hle)
  above a t h := by
    cases a with
    | nan => exact nofun
    | num p =>
        cases t with
        | nan => exact nofun
        | num q =>
            have hn := comparable_rat.above p q (of_decide_eq_true h)
            exact fun hle => hn (of_decide_eq_true hle)

namespace Tableau

variable {α : Type} [Scalar α] {t : Tableau α} {i j r : ℕ} {b : BasicRow α}

theorem leastFrom_lt {best : ℕ} (least : α) (h : best < j) (cs : List α) :
    leastFrom best least j cs < j + cs.length := by
  induction cs generalizing best least j with
  | nil => exact h
  | cons c cs ih =>
      rw [leastFrom, List.length_cons, Nat.add_comm cs.length, ← Nat.add_assoc]
      split
      · exact ih c (Nat.lt_succ_self j)
      · exact ih least (h.trans (Nat.lt_succ_self j))

theorem entering_lt_width (h : t.isOptimal = false) : t.entering < t.width := by
  rw [entering, width, Row.width]
  cases hc : t.objective.coeffs with
  | nil => simp [isOptimal, hc] at h
  | cons c cs =>
      rw [List.length_cons, Nat.add_comm]
      exact leastFrom_lt c Nat.one_pos cs

theorem leastRatioFrom_cases {tol q : α} {best : Option (ℕ × α)} {bs : List (BasicRow α)}
    (h : leastRatioFrom tol j i best bs = some (r, q)) :
    best = some (r, q) ∨ ∃ k b, bs[k]? = some b ∧ r = i + k ∧ ¬ b.row.cell j ≤ tol := by
  induction bs generalizing i best with
  | nil => exact .inl h
  | cons b bs ih =>
      rw [leastRatioFrom] at h
      have hrest {k : ℕ} {c : BasicRow α} (hc : bs[k]? = some c) (hr : r = i + 1 + k)
          (hn : ¬ c.row.cell j ≤ tol) :
          ∃ k c, (b :: bs)[k]? = some c ∧ r = i + k ∧ ¬ c.row.cell j ≤ tol :=
        ⟨k + 1, c, hc, by omega, hn⟩
      split at h
      · rcases ih h with hbest | ⟨k, c, hc, hr, hn⟩
        · exact .inl hbest
        · exact .inr (hrest hc hr hn)
      · next hb =>
          rcases ih h with hbest | ⟨k, c, hc, hr, hn⟩
          · rcases (ite_eq_or_eq _ _ _).imp (·.symm.trans hbest) (·.symm.trans hbest) with
              hkept | hnew
            · exact .inl hkept
            · obtain ⟨rfl, -⟩ := Prod.mk.inj (Option.some.inj hnew)
              exact .inr ⟨0, b, rfl, rfl, hb⟩
          · exact .inr (hrest hc hr hn)

theorem entry_of_move (h : t.move = .pivot i j) :
    ∃ r b, i = r + 1 ∧ t.rows[r]? = some b ∧ j < t.width ∧ ¬ b.row.cell j ≤ t.tol := by
  rw [move] at h
  split at h
  · cases h
  · next hopt =>
      split at h
      · cases h
      · split at h
        · next i' hl =>
            obtain ⟨rfl, rfl⟩ := Move.pivot.inj h
            obtain ⟨⟨i', q⟩, hq, rfl⟩ := Option.map_eq_some_iff.1 hl
            obtain hn | ⟨k, b, hb, hr, hn⟩ := leastRatioFrom_cases hq
            · cases hn
            · exact ⟨k, b, by simpa [Nat.add_comm] using hr, hb,
                entering_lt_width (Bool.eq_false_iff.2 hopt), hn⟩
        · cases h

theorem pivot_of_move (hα : Comparable α) (h : t.move = .pivot i j) :
    ∃ u, t.pivot i j = .ok u := by
  obtain ⟨r, b, rfl, hb, hj, hn⟩ := entry_of_move h
  rw [pivot_of_row hb, if_neg]
  · exact ⟨_, rfl⟩
  · exact not_or.2 ⟨Nat.not_le.2 hj, hα.abs _ _ hn⟩

end Tableau

end LinProg
