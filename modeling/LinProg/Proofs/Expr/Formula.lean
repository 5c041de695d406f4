import Mathlib.Algebra.CharZero.Infinite
import Mathlib.Algebra.MvPolynomial.Funext
import LinProg.Expr.Formula
import LinProg.Proofs.Expr.Vars
import LinProg.Proofs.Program.Store

namespace LinProg

open MvPolynomial (C X)

namespace Operand

variable {α : Type}

def isScalar : Operand α → Bool
  | scalar _ => true
  | _ => false

def isExpr : Operand α → Bool
  | expr _ => true
  | _ => false

variable [Scalar α] {a b : Operand α} {e : LinExpr α} {v : Var}

theorem exists_add? (h : (a.isScalar && b.isScalar) = false) : ∃ e, a.add? b = some e := by
  cases a <;> cases b <;> simp_all [isScalar, add?]

theorem exists_sub? (h : (a.isScalar && b.isScalar) = false) : ∃ e, a.sub? b = some e := by
  cases a <;> cases b <;> simp_all [isScalar, sub?]

theorem exists_mul? (h : (a.isScalar ^^ b.isScalar) = true) : ∃ e, a.mul? b = some e := by
  cases a <;> cases b <;> simp_all [isScalar, mul?]

theorem exists_neg? (h : a.isScalar = false) : ∃ e, a.neg? = some e := by
  cases a with
  | scalar c => cases h
  | var v => exact ⟨_, rfl⟩
  | expr e => exact ⟨_, rfl⟩

theorem mem_vars_add? (h : a.add? b = some e) (hv : v ∈ e.vars) :
    v ∈ a.toExpr.vars ∨ v ∈ b.toExpr.vars := by
  cases a with
  | scalar c => cases b <;> cases h <;> exact .inr hv
  | var u =>
      cases b with
      | scalar c => cases h; exact .inl hv
      | var w => cases h; exact (LinExpr.mem_vars_addVar hv).imp_right List.mem_singleton.2
      | expr g => cases h; exact (LinExpr.mem_vars_addVar hv).symm.imp_left List.mem_singleton.2
  | expr f =>
      cases b with
      | scalar c => cases h; exact .inl hv
      | var w => cases h; exact (LinExpr.mem_vars_addVar hv).imp_right List.mem_singleton.2
      | expr g => cases h; exact LinExpr.mem_vars_add hv

theorem mem_vars_sub? (h : a.sub? b = some e) (hv : v ∈ e.vars) :
    v ∈ a.toExpr.vars ∨ v ∈ b.toExpr.vars := by
  cases a with
  | scalar c =>
      cases b with
      | scalar d => cases h
      | var w => cases h; exact .inr ((LinExpr.ofVar w : LinExpr α).vars_neg ▸ hv)
      | expr g => cases h; exact .inr (g.vars_neg ▸ hv)
  | var u =>
      cases b with
      | scalar c => cases h; exact .inl hv
      | var w => cases h; exact (LinExpr.mem_vars_subVar hv).imp_right List.mem_singleton.2
      | expr g =>
          cases h
          exact (LinExpr.mem_vars_addVar hv).symm.imp List.mem_singleton.2 (g.vars_neg ▸ ·)
  | expr f =>
      cases b with
      | scalar c => cases h; exact .inl hv
      | var w => cases h; exact (LinExpr.mem_vars_subVar hv).imp_right List.mem_singleton.2
      | expr g => cases h; exact LinExpr.mem_vars_sub hv

theorem mem_vars_mul? (h : a.mul? b = some e) (hv : v ∈ e.vars) :
    v ∈ a.toExpr.vars ∨ v ∈ b.toExpr.vars := by
  cases a with
  | scalar c =>
      cases b with
      | scalar d => cases h
      | var w => cases h; exact .inr ((LinExpr.ofVar w).vars_scale c ▸ hv)
      | expr g => cases h; exact .inr (g.vars_scale c ▸ hv)
  | var u =>
      cases b with
      | scalar c => cases h; exact .inl ((LinExpr.ofVar u).vars_scale c ▸ hv)
      | var w => cases h
      | expr g => cases h
  | expr f =>
      cases b with
      | scalar c => cases h; exact .inl (f.vars_scale c ▸ hv)
      | var w => cases h
      | expr g => cases h

theorem contains_add? (h : a.add? b = some e) (v : Var) :
    e.contains v = (a.toExpr.contains v || b.toExpr.contains v) := by
  cases a <;> cases b <;> cases h <;> simp [toExpr, Bool.or_comm]

theorem contains_sub? (h : a.sub? b = some e) (v : Var) :
    e.contains v = (a.toExpr.contains v || b.toExpr.contains v) := by
  cases a <;> cases b <;> cases h <;> simp [toExpr, Bool.or_comm]

theorem contains_mul? (h : a.mul? b = some e) (v : Var) :
    e.contains v = (a.toExpr.contains v || b.toExpr.contains v) := by
  cases a <;> cases b <;> cases h <;> simp [toExpr]

theorem value_add? {a b : Operand ℚ} {e : LinExpr ℚ} (h : a.add? b = some e) (x : ℕ → ℚ) :
    e.value x = a.toExpr.value x + b.toExpr.value x := by
  cases a <;> cases b <;> cases h <;> simp [toExpr, add_comm]

theorem value_sub? {a b : Operand ℚ} {e : LinExpr ℚ} (h : a.sub? b = some e) (x : ℕ → ℚ) :
    e.value x = a.toExpr.value x - b.toExpr.value x := by
  cases a <;> cases b <;> cases h <;> simp [toExpr, sub_eq_add_neg, add_comm]

theorem value_mul? {a b : Operand ℚ} {e : LinExpr ℚ} (h : a.mul? b = some e) (x : ℕ → ℚ) :
    e.value x = a.toExpr.value x * b.toExpr.value x := by
  cases a <;> cases b <;> cases h <;> simp [toExpr, mul_comm]

end Operand

namespace LinExpr

variable {e : LinExpr ℚ}

noncomputable def polynomial (e : LinExpr ℚ) : MvPolynomial ℕ ℚ :=
  C e.constant + (e.terms.toList.map fun a => C a.2 * X a.1.index).sum

theorem eval_polynomial (e : LinExpr ℚ) (x : ℕ → ℚ) :
    MvPolynomial.eval x e.polynomial = e.value x := by
  rw [polynomial, map_add, map_list_sum, List.map_map, MvPolynomial.eval_C, value, Terms.value]
  congr 3
  funext a
  simp

theorem coeff_polynomial (e : LinExpr ℚ) (j : ℕ) :
    e.polynomial.coeff (Finsupp.single j 1) = e.coeffAt j := by
  have hone (a : Var × ℚ) : (C a.2 * X a.1.index : MvPolynomial ℕ ℚ).coeff (Finsupp.single j 1) =
      a.2 * (Pi.single j 1 : ℕ → ℚ) a.1.index := by
    rw [MvPolynomial.coeff_C_mul, MvPolynomial.coeff_X, Pi.single_apply]
    simp [Finsupp.single_left_inj]
  have hsum (ts : List (Var × ℚ)) :
      (ts.map fun a => (C a.2 * X a.1.index : MvPolynomial ℕ ℚ)).sum.coeff (Finsupp.single j 1) =
        (ts.map fun a => a.2 * (Pi.single j 1 : ℕ → ℚ) a.1.index).sum := by
    induction ts with
    | nil => rfl
    | cons a ts ih => rw [List.map_cons, List.sum_cons, MvPolynomial.coeff_add, hone, ih]; rfl
  have hj : 0 ≠ Finsupp.single j 1 := (Finsupp.single_ne_zero.2 one_ne_zero).symm
  rw [polynomial, MvPolynomial.coeff_add, hsum, MvPolynomial.coeff_C, if_neg hj, zero_add]
  rfl

theorem constantCoeff_polynomial (e : LinExpr ℚ) :
    MvPolynomial.constantCoeff e.polynomial = e.constant := by
  have hsum (ts : List (Var × ℚ)) : MvPolynomial.constantCoeff
      (ts.map fun a => (C a.2 * X a.1.index : MvPolynomial ℕ ℚ)).sum = 0 := by
    induction ts with
    | nil => rfl
    | cons a ts ih => simp [ih]
  rw [polynomial, map_add, hsum, MvPolynomial.constantCoeff_C, add_zero]

/-- Among variables of one program the position says which one is looked up. -/
theorem coefficient_eq_coeffAt {v : Var} (h : ∀ w ∈ e.vars, w.owner = v.owner) :
    e.coefficient v = e.coeffAt v.index := by
  have hs := e.terms.sorted
  have h : ∀ a ∈ e.terms.toList, a.1.owner = v.owner :=
    fun a ha => h a.1 (List.mem_map_of_mem ha)
  unfold coefficient coeffAt Terms.get? Terms.value
  generalize e.terms.toList = ts at hs h ⊢
  induction ts with
  | nil => rfl
  | cons a ts ih =>
      obtain ⟨ha, hs⟩ := List.pairwise_cons.1 hs
      have ho := h a List.mem_cons_self
      have h := fun b hb => h b (List.mem_cons_of_mem _ hb)
      rw [List.map_cons, List.sum_cons, ← ih hs h, Pi.single_apply]
      by_cases hi : a.1.index = v.index
      · have hrest : ts.find? (fun b => b.1 == v) = none := by
          refine List.find?_eq_none.2 fun b hb he => ?_
          have hlt := Var.lt_iff.1 (ha b hb)
          have he := (Var.beq_iff.1 he).1
          rw [ho, h b hb] at hlt
          omega
        have hv : (a.1 == v) = true := Var.beq_iff.2 ⟨hi, ho⟩
        simp [hv, hrest, hi]
      · have hv : (a.1 == v) = false := Bool.eq_false_iff.2 fun he => hi (Var.beq_iff.1 he).1
        simp [hv, hi]

theorem pairwise_index {n : ℕ} (h : ∀ w ∈ e.vars, w.owner = n) :
    e.vars.Pairwise fun u v => u.index < v.index := by
  refine List.pairwise_map.2 (e.terms.sorted.imp_of_mem fun {a b} ha hb hlt => ?_)
  have ha := h a.1 (List.mem_map_of_mem ha)
  have hb := h b.1 (List.mem_map_of_mem hb)
  have hlt := Var.lt_iff.1 hlt
  omega

end LinExpr

namespace Assignment

def vars {α : Type} : Assignment α → List Var
  | addVar v => [v]
  | subVar v => [v]
  | scale _ => []

theorem exists_apply? {α : Type} [Scalar α] (s : Assignment α) {a : Operand α}
    (h : a.isExpr) : ∃ e, s.apply? a = some e := by
  cases a with
  | scalar c => cases h
  | var v => cases h
  | expr e => cases s <;> exact ⟨_, rfl⟩

def value (y : ℚ) (x : ℕ → ℚ) : Assignment ℚ → ℚ
  | addVar v => y + x v.index
  | subVar v => y - x v.index
  | scale c => y * c

noncomputable def polynomial (q : MvPolynomial ℕ ℚ) : Assignment ℚ → MvPolynomial ℕ ℚ
  | addVar v => q + X v.index
  | subVar v => q - X v.index
  | scale c => q * C c

end Assignment

namespace Formula

variable {α : Type} [Scalar α]

def isScalar : Formula α → Bool
  | operand a => a.isScalar
  | _ => false

def isExpr : Formula α → Bool
  | operand a => a.isExpr
  | _ => true

/-- Every operator gets operands it is defined for. -/
def wellFormed : Formula α → Bool
  | operand _ => true
  | ofTerms _ _ => true
  | add a b => a.wellFormed && b.wellFormed && !(a.isScalar && b.isScalar)
  | sub a b => a.wellFormed && b.wellFormed && !(a.isScalar && b.isScalar)
  | mul a b => a.wellFormed && b.wellFormed && (a.isScalar ^^ b.isScalar)
  | neg a => a.wellFormed && !a.isScalar
  | toExpr a => a.wellFormed
  | simplified a => a.wellFormed
  | assign a _ => a.wellFormed && a.isExpr

def vars : Formula α → List Var
  | operand a => a.toExpr.vars
  | ofTerms l _ => l.map (·.1)
  | add a b => a.vars ++ b.vars
  | sub a b => a.vars ++ b.vars
  | mul a b => a.vars ++ b.vars
  | neg a => a.vars
  | toExpr a => a.vars
  | simplified a => a.vars
  | assign a s => a.vars ++ s.vars

def unsimplified : Formula α → Bool
  | operand _ => true
  | ofTerms _ _ => true
  | add a b => a.unsimplified && b.unsimplified
  | sub a b => a.unsimplified && b.unsimplified
  | mul a b => a.unsimplified && b.unsimplified
  | neg a => a.unsimplified
  | toExpr a => a.unsimplified
  | simplified _ => false
  | assign a _ => a.unsimplified

def value (x : ℕ → ℚ) : Formula ℚ → ℚ
  | operand (.scalar c) => c
  | operand (.var v) => x v.index
  | operand (.expr e) => e.value x
  | ofTerms l c => (l.map fun a => a.2 * x a.1.index).sum + c
  | add a b => a.value x + b.value x
  | sub a b => a.value x - b.value x
  | mul a b => a.value x * b.value x
  | neg a => -a.value x
  | toExpr a => a.value x
  | simplified a => a.value x
  | assign a s => s.value (a.value x) x

noncomputable def polynomial : Formula ℚ → MvPolynomial ℕ ℚ
  | operand (.scalar c) => C c
  | operand (.var v) => X v.index
  | operand (.expr e) => e.polynomial
  | ofTerms l c => (l.map fun a => C a.2 * X a.1.index).sum + C c
  | add a b => a.polynomial + b.polynomial
  | sub a b => a.polynomial - b.polynomial
  | mul a b => a.polynomial * b.polynomial
  | neg a => -a.polynomial
  | toExpr a => a.polynomial
  | simplified a => a.polynomial
  | assign a s => s.polynomial a.polynomial

theorem eval_polynomial (f : Formula ℚ) (x : ℕ → ℚ) :
    MvPolynomial.eval x f.polynomial = f.value x := by
  induction f with
  | operand a =>
      cases a with
      | scalar c => exact MvPolynomial.eval_C c
      | var v => exact MvPolynomial.eval_X v.index
      | expr e => exact e.eval_polynomial x
  | ofTerms l c =>
      rw [polynomial, map_add, map_list_sum, List.map_map, MvPolynomial.eval_C, value]
      congr 3
      funext a
      simp
  | add a b iha ihb => rw [polynomial, map_add, iha, ihb, value]
  | sub a b iha ihb => rw [polynomial, map_sub, iha, ihb, value]
  | mul a b iha ihb => rw [polynomial, map_mul, iha, ihb, value]
  | neg a ih => rw [polynomial, map_neg, ih, value]
  | toExpr a ih => exact ih
  | simplified a ih => exact ih
  | assign a s ih =>
      cases s with
      | addVar v => rw [polynomial, Assignment.polynomial, map_add, ih, MvPolynomial.eval_X]; rfl
      | subVar v => rw [polynomial, Assignment.polynomial, map_sub, ih, MvPolynomial.eval_X]; rfl
      | scale c => rw [polynomial, Assignment.polynomial, map_mul, ih, MvPolynomial.eval_C]; rfl

/-- The ways in which a result comes about. -/
inductive Evaluates : Formula α → Operand α → Prop
  | operand (a) : Evaluates (operand a) a
  | ofTerms (l c) : Evaluates (ofTerms l c) (.expr (.ofTerms l c))
  | add {f g a b e} (hf : Evaluates f a) (hg : Evaluates g b) (h : a.add? b = some e) :
      Evaluates (add f g) (.expr e)
  | sub {f g a b e} (hf : Evaluates f a) (hg : Evaluates g b) (h : a.sub? b = some e) :
      Evaluates (sub f g) (.expr e)
  | mul {f g a b e} (hf : Evaluates f a) (hg : Evaluates g b) (h : a.mul? b = some e) :
      Evaluates (mul f g) (.expr e)
  | neg {f a} (hf : Evaluates f a) : Evaluates (neg f) (.expr (-a.toExpr))
  | toExpr {f a} (hf : Evaluates f a) : Evaluates (toExpr f) (.expr a.toExpr)
  | simplified {f a} (hf : Evaluates f a) : Evaluates (simplified f) (.expr a.toExpr.simplify)
  | addVar {f e} (v) (hf : Evaluates f (.expr e)) :
      Evaluates (assign f (.addVar v)) (.expr (e.addVar v))
  | subVar {f e} (v) (hf : Evaluates f (.expr e)) :
      Evaluates (assign f (.subVar v)) (.expr (e.subVar v))
  | scale {f e} (c) (hf : Evaluates f (.expr e)) :
      Evaluates (assign f (.scale c)) (.expr (e.scale c))

theorem evaluates_of_eval? {f : Formula α} {a : Operand α} (h : f.eval? = some a) :
    f.Evaluates a := by
  induction f generalizing a with
  | operand b => cases h; exact .operand b
  | ofTerms l c => cases h; exact .ofTerms l c
  | add f g ihf ihg =>
      simp only [eval?, Option.bind_eq_bind, Option.bind_eq_some_iff, Option.pure_def] at h
      obtain ⟨b, hb, c, hc, e, he, h⟩ := h
      cases h
      exact .add (ihf hb) (ihg hc) he
  | sub f g ihf ihg =>
      simp only [eval?, Option.bind_eq_bind, Option.bind_eq_some_iff, Option.pure_def] at h
      obtain ⟨b, hb, c, hc, e, he, h⟩ := h
      cases h
      exact .sub (ihf hb) (ihg hc) he
  | mul f g ihf ihg =>
      simp only [eval?, Option.bind_eq_bind, Option.bind_eq_some_iff, Option.pure_def] at h
      obtain ⟨b, hb, c, hc, e, he, h⟩ := h
      cases h
      exact .mul (ihf hb) (ihg hc) he
  | neg f ih =>
      simp only [eval?, Option.bind_eq_bind, Option.bind_eq_some_iff, Option.pure_def] at h
      obtain ⟨b, hb, e, he, h⟩ := h
      cases h
      cases b with
      | scalar c => cases he
      | var v => cases he; exact .neg (ih hb)
      | expr g => cases he; exact .neg (ih hb)
  | toExpr f ih =>
      simp only [eval?, Option.bind_eq_bind, Option.bind_eq_some_iff, Option.pure_def] at h
      obtain ⟨b, hb, h⟩ := h
      cases h
      exact .toExpr (ih hb)
  | simplified f ih =>
      simp only [eval?, Option.bind_eq_bind, Option.bind_eq_some_iff, Option.pure_def] at h
      obtain ⟨b, hb, h⟩ := h
      cases h
      exact .simplified (ih hb)
  | assign f s ih =>
      simp only [eval?, Option.bind_eq_bind, Option.bind_eq_some_iff, Option.pure_def] at h
      obtain ⟨b, hb, e, he, h⟩ := h
      cases h
      cases b with
      | scalar c => cases s <;> cases he
      | var v => cases s <;> cases he
      | expr g =>
          cases s with
          | addVar v => cases he; exact .addVar v (ih hb)
          | subVar v => cases he; exact .subVar v (ih hb)
          | scale c => cases he; exact .scale c (ih hb)

theorem exists_eval? {f : Formula α} (h : f.wellFormed) :
    ∃ a, f.eval? = some a ∧ a.isScalar = f.isScalar ∧ a.isExpr = f.isExpr := by
  induction f with
  | operand a => exact ⟨a, rfl, rfl, rfl⟩
  | ofTerms l c => exact ⟨_, rfl, rfl, rfl⟩
  | add f g ihf ihg =>
      simp only [wellFormed, Bool.and_eq_true, Bool.not_eq_true'] at h
      obtain ⟨a, ha, hsa, _⟩ := ihf h.1.1
      obtain ⟨b, hb, hsb, _⟩ := ihg h.1.2
      obtain ⟨e, he⟩ := Operand.exists_add? (a := a) (b := b) (by rw [hsa, hsb, h.2])
      exact ⟨.expr e, by simp [eval?, ha, hb, he], rfl, rfl⟩
  | sub f g ihf ihg =>
      simp only [wellFormed, Bool.and_eq_true, Bool.not_eq_true'] at h
      obtain ⟨a, ha, hsa, _⟩ := ihf h.1.1
      obtain ⟨b, hb, hsb, _⟩ := ihg h.1.2
      obtain ⟨e, he⟩ := Operand.exists_sub? (a := a) (b := b) (by rw [hsa, hsb, h.2])
      exact ⟨.expr e, by simp [eval?, ha, hb, he], rfl, rfl⟩
  | mul f g ihf ihg =>
      simp only [wellFormed, Bool.and_eq_true] at h
      obtain ⟨a, ha, hsa, _⟩ := ihf h.1.1
      obtain ⟨b, hb, hsb, _⟩ := ihg h.1.2
      obtain ⟨e, he⟩ := Operand.exists_mul? (a := a) (b := b) (by rw [hsa, hsb, h.2])
      exact ⟨.expr e, by simp [eval?, ha, hb, he], rfl, rfl⟩
  | neg f ih =>
      simp only [wellFormed, Bool.and_eq_true, Bool.not_eq_true'] at h
      obtain ⟨a, ha, hs, _⟩ := ih h.1
      obtain ⟨e, he⟩ := Operand.exists_neg? (a := a) (hs.trans h.2)
      exact ⟨.expr e, by simp [eval?, ha, he], rfl, rfl⟩
  | toExpr f ih =>
      obtain ⟨a, ha, _⟩ := ih h
      exact ⟨.expr a.toExpr, by simp [eval?, ha], rfl, rfl⟩
  | simplified f ih =>
      obtain ⟨a, ha, _⟩ := ih h
      exact ⟨.expr a.toExpr.simplify, by simp [eval?, ha], rfl, rfl⟩
  | assign f s ih =>
      simp only [wellFormed, Bool.and_eq_true] at h
      obtain ⟨a, ha, _, he⟩ := ih h.1
      obtain ⟨e, he⟩ := s.exists_apply? (he.trans h.2)
      exact ⟨.expr e, by simp [eval?, ha, he], rfl, rfl⟩

theorem Evaluates.mem_vars {f : Formula α} {a : Operand α} (h : f.Evaluates a) {v : Var}
    (hv : v ∈ a.toExpr.vars) : v ∈ f.vars := by
  revert hv
  induction h with
  | operand a => exact id
  | ofTerms l c =>
      intro hv
      exact (Terms.mem_vars_addAll hv).resolve_left List.not_mem_nil
  | add _ _ he iha ihb =>
      exact fun hv => List.mem_append.2 ((Operand.mem_vars_add? he hv).imp iha ihb)
  | sub _ _ he iha ihb =>
      exact fun hv => List.mem_append.2 ((Operand.mem_vars_sub? he hv).imp iha ihb)
  | mul _ _ he iha ihb =>
      exact fun hv => List.mem_append.2 ((Operand.mem_vars_mul? he hv).imp iha ihb)
  | @neg f a _ ih => exact fun hv => ih (a.toExpr.vars_neg ▸ hv)
  | toExpr _ ih => exact ih
  | @simplified f a _ ih => exact fun hv => ih ((List.filter_sublist.map _).subset hv)
  | @addVar f e v _ ih =>
      exact fun hv => List.mem_append.2 ((LinExpr.mem_vars_addVar hv).imp ih List.mem_singleton.2)
  | @subVar f e v _ ih =>
      exact fun hv => List.mem_append.2 ((LinExpr.mem_vars_subVar hv).imp ih List.mem_singleton.2)
  | @scale f e c _ ih => exact fun hv => List.mem_append_left _ (ih (e.vars_scale c ▸ hv))

/-- No term is lost as long as nothing is simplified, not even one that cancels. -/
theorem Evaluates.contains {f : Formula α} {a : Operand α} (h : f.Evaluates a)
    (hf : f.unsimplified) (v : Var) : a.toExpr.contains v = f.vars.any (· == v) := by
  revert hf
  induction h with
  | operand a =>
      intro _
      rw [Formula.vars, LinExpr.vars, Terms.vars, LinExpr.contains_eq_any, List.any_map]
      rfl
  | ofTerms l c =>
      intro _
      rw [vars, List.any_map]
      exact LinExpr.contains_ofTerms l c v
  | add _ _ he iha ihb =>
      intro hf
      obtain ⟨hf, hg⟩ := Bool.and_eq_true_iff.1 hf
      rw [vars, List.any_append, ← iha hf, ← ihb hg]
      exact Operand.contains_add? he v
  | sub _ _ he iha ihb =>
      intro hf
      obtain ⟨hf, hg⟩ := Bool.and_eq_true_iff.1 hf
      rw [vars, List.any_append, ← iha hf, ← ihb hg]
      exact Operand.contains_sub? he v
  | mul _ _ he iha ihb =>
      intro hf
      obtain ⟨hf, hg⟩ := Bool.and_eq_true_iff.1 hf
      rw [vars, List.any_append, ← iha hf, ← ihb hg]
      exact Operand.contains_mul? he v
  | @neg f a _ ih => exact fun hf => (a.toExpr.contains_neg v).trans (ih hf)
  | toExpr _ ih => exact ih
  | @simplified f a _ ih => exact nofun
  | @addVar f e u _ ih =>
      intro hf
      rw [vars, List.any_append, ← ih hf, Assignment.vars, List.any_cons, List.any_nil,
        Bool.or_false]
      exact e.contains_addVar u v
  | @subVar f e u _ ih =>
      intro hf
      rw [vars, List.any_append, ← ih hf, Assignment.vars, List.any_cons, List.any_nil,
        Bool.or_false]
      exact e.contains_subVar u v
  | @scale f e c _ ih =>
      intro hf
      rw [vars, List.any_append, ← ih hf, Assignment.vars, List.any_nil, Bool.or_false]
      exact e.contains_scale c v

theorem Evaluates.value {f : Formula ℚ} {a : Operand ℚ} (h : f.Evaluates a) (x : ℕ → ℚ) :
    a.toExpr.value x = f.value x := by
  induction h with
  | operand a =>
      cases a with
      | scalar c => exact LinExpr.value_const c x
      | var v => exact LinExpr.value_ofVar v x
      | expr e => rfl
  | ofTerms l c => exact (LinExpr.value_ofTerms l c x).trans (add_comm _ _)
  | add _ _ he iha ihb => rw [Formula.value, ← iha, ← ihb]; exact Operand.value_add? he x
  | sub _ _ he iha ihb => rw [Formula.value, ← iha, ← ihb]; exact Operand.value_sub? he x
  | mul _ _ he iha ihb => rw [Formula.value, ← iha, ← ihb]; exact Operand.value_mul? he x
  | @neg f a _ ih => rw [Formula.value, ← ih]; exact a.toExpr.value_neg x
  | toExpr _ ih => exact ih
  | @simplified f a _ ih => exact (a.toExpr.value_simplify x).trans ih
  | @addVar f e v _ ih => rw [Formula.value, ← ih]; exact e.value_addVar v x
  | @subVar f e v _ ih => rw [Formula.value, ← ih]; exact e.value_subVar v x
  | @scale f e c _ ih => rw [Formula.value, ← ih]; exact e.value_scale c x

theorem Evaluates.polynomial {f : Formula ℚ} {a : Operand ℚ} (h : f.Evaluates a) :
    a.toExpr.polynomial = f.polynomial := by
  apply MvPolynomial.funext
  intro x
  rw [LinExpr.eval_polynomial, eval_polynomial, h.value]

/-- A formula over the variables of a program has a result as soon as its operators are used where
they are defined, and the result is what the formula spells: it has the coefficients and the
constant of its polynomial and its value at every assignment that covers the variables. Unless
something is simplified its terms are the variables that occur, in the order of the program. -/
theorem eval?_spells {p : Program ℚ} (hp : p.Consistent) {f : Formula ℚ} (hf : f.wellFormed)
    (hv : ∀ v ∈ f.vars, v ∈ p.vars) :
    ∃ a, f.eval? = some a ∧
      (∀ v ∈ p.vars, a.toExpr.coefficient v = f.polynomial.coeff (Finsupp.single v.index 1)) ∧
      a.toExpr.constant = MvPolynomial.constantCoeff f.polynomial ∧
      (∀ x : List ℚ, (∀ v ∈ f.vars, v.index < x.length) →
        a.toExpr.eval x = .ok (f.value (valuation x))) ∧
      (f.unsimplified → (∀ v, v ∈ a.toExpr.vars ↔ v ∈ f.vars) ∧
        a.toExpr.vars.Pairwise fun u v => u.index < v.index) := by
  obtain ⟨a, ha, _⟩ := exists_eval? hf
  have he := evaluates_of_eval? ha
  have hsub (v : Var) (h : v ∈ a.toExpr.vars) : v ∈ p.vars := hv v (he.mem_vars h)
  have hown (v : Var) (h : v ∈ a.toExpr.vars) : v.owner = p.id := (hp.of_mem (hsub v h)).2
  refine ⟨a, ha, ?_, ?_, ?_, ?_⟩
  · intro v hvp
    rw [← he.polynomial, LinExpr.coeff_polynomial]
    exact LinExpr.coefficient_eq_coeffAt fun w hw => (hown w hw).trans (hp.of_mem hvp).2.symm
  · rw [← he.polynomial, LinExpr.constantCoeff_polynomial]
  · intro x hx
    have hw : a.toExpr.Within x.length :=
      fun b hb => hx b.1 (he.mem_vars (List.mem_map_of_mem hb))
    rw [LinExpr.eval_eq hw, he.value]
  · intro hu
    refine ⟨fun v => ⟨he.mem_vars, fun h => ?_⟩, LinExpr.pairwise_index hown⟩
    have hc : a.toExpr.contains v := by
      rw [he.contains hu]
      exact List.any_eq_true.2 ⟨v, h, Var.beq_iff.2 ⟨rfl, rfl⟩⟩
    obtain ⟨w, hw, hwv⟩ := LinExpr.contains_iff.1 hc
    rwa [← hp.eq_of_beq (hsub w hw) (hv v h) hwv]

/-- `3 - (x - y) * 2`, with `y` added and `x` subtracted, less `-(x + x + x)`. -/
def sample : Formula ℚ :=
  let x : Formula ℚ := operand (.var ⟨"x", 0, 0⟩)
  let y : Formula ℚ := operand (.var ⟨"y", 1, 0⟩)
  let e := sub (operand (.scalar 3)) (mul (sub x y) (operand (.scalar 2)))
  sub (assign (assign e (.addVar ⟨"y", 1, 0⟩)) (.subVar ⟨"x", 0, 0⟩)) (neg (add (add x x) x))

theorem eval?_spells_sample : ∃ a, sample.eval? = some a ∧
    sample.polynomial.coeff (Finsupp.single 0 1) = 0 ∧
    sample.polynomial.coeff (Finsupp.single 1 1) = 3 ∧
    MvPolynomial.constantCoeff sample.polynomial = 3 ∧
    a.toExpr.eval [5, 7] = .ok 24 ∧ ⟨"x", 0, 0⟩ ∈ a.toExpr.vars := by
  let x : Var := ⟨"x", 0, 0⟩
  let y : Var := ⟨"y", 1, 0⟩
  let p : Program ℚ := ⟨"plane", 0, [x, y], [], none⟩
  have hv : ∀ v ∈ [x, y, y, x, x, x, x], v ∈ [x, y] := by simp
  obtain ⟨a, ha, hcoeff, hconst, heval, hterms⟩ :=
    eval?_spells (p := p) (by decide) (f := sample) (by decide) hv
  have hnum : sample.eval?.map (fun a =>
      (a.toExpr.coefficient x, a.toExpr.coefficient y, a.toExpr.constant)) = some (0, 3, 3) := by
    decide +kernel
  obtain ⟨hx, hy, hc⟩ := Prod.ext_iff.1 (Option.some.inj (ha ▸ hnum)) |>.imp_right Prod.ext_iff.1
  have hin : x ∈ sample.vars := by simp [sample, vars, LinExpr.vars_ofVar, Operand.toExpr, x]
  refine ⟨a, ha, ?_, ?_, ?_, ?_, ((hterms (by decide)).1 x).2 hin⟩
  · exact (hcoeff x (by simp [p])).symm.trans hx
  · exact (hcoeff y (by simp [p])).symm.trans hy
  · exact hconst.symm.trans hc
  · have hval : sample.value (valuation [5, 7]) = 24 := by decide +kernel
    rw [heval [5, 7] fun v h => ?_, hval]
    rcases List.mem_pair.1 (hv v h) with rfl | rfl <;> decide

end Formula

end LinProg
