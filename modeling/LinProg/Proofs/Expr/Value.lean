import Mathlib.Algebra.BigOperators.Field
import Mathlib.Algebra.Order.BigOperators.Group.Finset
import Mathlib.Algebra.Order.Ring.Rat
import Mathlib.Data.List.Perm.Subperm
import Mathlib.Tactic.Linarith
import Mathlib.Tactic.MkIffOfInductiveProp
import Mathlib.Tactic.Ring
import LinProg.Expr.Linear

namespace LinProg

@[simp]
theorem scalar_abs (x : ℚ) : Scalar.abs x = |x| := by
  change (if x < 0 then -x else x) = |x|
  split
  · next h => exact (abs_of_neg h).symm
  · next h => exact (abs_of_nonneg (not_lt.1 h)).symm

/-- The values of a list by position, 0 past its end. -/
def valuation (l : List ℚ) (i : ℕ) : ℚ := l.getD i 0

theorem valuation_append_left {l m : List ℚ} {i : ℕ} (h : i < l.length) :
    valuation (l ++ m) i = valuation l i := by
  simp [valuation, List.getD_eq_getElem?_getD, List.getElem?_append_left h]

theorem valuation_append_right (l m : List ℚ) (i : ℕ) :
    valuation (l ++ m) (l.length + i) = valuation m i := by
  simp [valuation, List.getD_eq_getElem?_getD, List.getElem?_append_right]

theorem valuation_map_range {n i : ℕ} (f : ℕ → ℚ) (h : i < n) :
    valuation ((List.range n).map f) i = f i := by
  simp [valuation, List.getD_eq_getElem?_getD, h]

theorem valuation_of_le {l : List ℚ} {i : ℕ} (h : l.length ≤ i) : valuation l i = 0 := by
  simp [valuation, List.getD_eq_getElem?_getD, h]

theorem valuation_nonneg_iff {l : List ℚ} : (∀ i, 0 ≤ valuation l i) ↔ ∀ a ∈ l, 0 ≤ a := by
  constructor
  · intro h a ha
    obtain ⟨i, hi, rfl⟩ := List.getElem_of_mem ha
    simpa [valuation, List.getD_eq_getElem?_getD, hi] using h i
  · intro h i
    by_cases hi : i < l.length
    · have ha := h l[i] (List.getElem_mem hi)
      simpa [valuation, List.getD_eq_getElem?_getD, hi] using ha
    · exact (valuation_of_le (not_lt.1 hi)).ge

namespace Terms

def value (t : Terms ℚ) (x : ℕ → ℚ) : ℚ := (t.toList.map fun a => a.2 * x a.1.index).sum

def Within {α : Type} (t : Terms α) (n : ℕ) : Prop := ∀ a ∈ t.toList, a.1.index < n

variable {t : Terms ℚ} {n : ℕ}

theorem sum_insert (v : Var) (c : ℚ) (x : ℕ → ℚ) (ts : List (Var × ℚ)) :
    ((insert v c ts).map fun a => a.2 * x a.1.index).sum =
      (ts.map fun a => a.2 * x a.1.index).sum + c * x v.index := by
  induction ts with
  | nil => simp [insert]
  | cons a ts ih =>
      obtain ⟨w, d⟩ := a
      rw [insert]
      split
      · simp only [List.map_cons, List.sum_cons]; ring
      · next hvw =>
          split
          · simp only [List.map_cons, List.sum_cons, ih]; ring
          · next hwv =>
              have hi := (Var.beq_iff.1 (Var.beq_of_not_lt hvw hwv)).1
              simp only [List.map_cons, List.sum_cons, hi]; ring

theorem value_add (t : Terms ℚ) (v : Var) (c : ℚ) (x : ℕ → ℚ) :
    (t.add v c).value x = t.value x + c * x v.index := sum_insert v c x t.toList

theorem value_scale (t : Terms ℚ) (k : ℚ) (x : ℕ → ℚ) :
    (t.scale k).value x = t.value x * k := by
  simp only [value, scale, List.map_map]
  rw [← List.sum_map_mul_right]
  exact congrArg List.sum (List.map_congr_left fun a _ => by simp only [Function.comp]; ring)

theorem value_nonzero (t : Terms ℚ) (x : ℕ → ℚ) : t.nonzero.value x = t.value x := by
  simp only [value, nonzero]
  induction t.toList with
  | nil => rfl
  | cons a ts ih =>
      by_cases ha : a.2 = 0
      · simp [ha, ih]
      · simp [bne_iff_ne.2 ha, ih]

theorem value_addAll (t : Terms ℚ) (l : List (Var × ℚ)) (x : ℕ → ℚ) :
    (t.addAll l).value x = t.value x + (l.map fun a => a.2 * x a.1.index).sum := by
  induction l generalizing t with
  | nil => simp [addAll]
  | cons a l ih =>
      refine (ih (t.add a.1 a.2)).trans ?_
      rw [value_add, List.map_cons, List.sum_cons, add_assoc]

theorem value_congr {x y : ℕ → ℚ} (ht : t.Within n) (h : ∀ i < n, x i = y i) :
    t.value x = t.value y := by
  refine congrArg List.sum (List.map_congr_left fun a ha => ?_)
  rw [h _ (ht a ha)]

/-- The value as a sum over positions, where the unit vectors pick out the coefficients. -/
theorem value_eq_sum (ht : t.Within n) (x : ℕ → ℚ) :
    t.value x = ∑ j ∈ Finset.range n, t.value (Pi.single j 1) * x j := by
  unfold value Within at *
  generalize t.toList = ts at ht ⊢
  induction ts with
  | nil => simp
  | cons a ts ih =>
      have ha : a.1.index ∈ Finset.range n := Finset.mem_range.2 (ht a (by simp))
      have hs := ih fun b hb => ht b (List.mem_cons_of_mem _ hb)
      have hone : ∑ j ∈ Finset.range n, a.2 * (Pi.single j 1 : ℕ → ℚ) a.1.index * x j =
          a.2 * x a.1.index := by
        rw [Finset.sum_eq_single_of_mem _ ha]
        · simp
        · intro j _ hj
          simp [hj.symm]
      simp only [List.map_cons, List.sum_cons, add_mul, Finset.sum_add_distrib, hs, hone]

theorem Within.mono {α : Type} {t : Terms α} {m n : ℕ} (h : t.Within m) (hmn : m ≤ n) :
    t.Within n := fun a ha => (h a ha).trans_le hmn

theorem mem_insert_index {α : Type} [Scalar α] {v : Var} {c : α} {a : Var × α}
    {ts : List (Var × α)} (h : a ∈ insert v c ts) : a.1 = v ∨ ∃ b ∈ ts, a.1 = b.1 := by
  induction ts with
  | nil => simp_all [insert]
  | cons b ts ih =>
      obtain ⟨w, d⟩ := b
      unfold insert at h
      split at h
      · rcases List.mem_cons.1 h with rfl | h
        · exact .inl rfl
        · exact .inr ⟨a, h, rfl⟩
      · split at h
        · rcases List.mem_cons.1 h with rfl | h
          · exact .inr ⟨_, List.mem_cons_self, rfl⟩
          · obtain hv | ⟨b, hb, he⟩ := ih h
            · exact .inl hv
            · exact .inr ⟨b, List.mem_cons_of_mem _ hb, he⟩
        · rcases List.mem_cons.1 h with rfl | h
          · exact .inr ⟨_, List.mem_cons_self, rfl⟩
          · exact .inr ⟨a, List.mem_cons_of_mem _ h, rfl⟩

theorem Within.add {α : Type} [Scalar α] {t : Terms α} {v : Var} {c : α} (h : t.Within n)
    (hv : v.index < n) : (t.add v c).Within n := by
  intro a ha
  obtain he | ⟨b, hb, he⟩ := mem_insert_index ha
  · rwa [he]
  · rw [he]; exact h b hb

end Terms

namespace LinExpr

def value (e : LinExpr ℚ) (x : ℕ → ℚ) : ℚ := e.constant + e.terms.value x

def coeffAt (e : LinExpr ℚ) (j : ℕ) : ℚ := e.terms.value (Pi.single j 1)

def Within {α : Type} (e : LinExpr α) (n : ℕ) : Prop := e.terms.Within n

variable {e : LinExpr ℚ} {n : ℕ}

@[simp]
theorem value_const (c : ℚ) (x : ℕ → ℚ) : (const c).value x = c := by
  simp [value, const, Terms.value, Terms.empty]

@[simp]
theorem value_ofVar (v : Var) (x : ℕ → ℚ) : (ofVar v).value x = x v.index := by
  simp [value, ofVar, Terms.value, Terms.single]

@[simp]
theorem value_ofTerms (l : List (Var × ℚ)) (c : ℚ) (x : ℕ → ℚ) :
    (ofTerms l c).value x = c + (l.map fun a => a.2 * x a.1.index).sum := by
  rw [value, ofTerms, Terms.value_addAll, Terms.value, Terms.empty, List.map_nil, List.sum_nil,
    zero_add]

@[simp]
theorem value_addVar (e : LinExpr ℚ) (v : Var) (x : ℕ → ℚ) :
    (e.addVar v).value x = e.value x + x v.index := by
  simp only [value, addVar, Terms.value_add]; ring

@[simp]
theorem value_subVar (e : LinExpr ℚ) (v : Var) (x : ℕ → ℚ) :
    (e.subVar v).value x = e.value x - x v.index := by
  simp only [value, subVar, Terms.value_add]; ring

@[simp]
theorem value_addConst (e : LinExpr ℚ) (c : ℚ) (x : ℕ → ℚ) :
    (e.addConst c).value x = e.value x + c := by
  simp only [value, addConst]; ring

@[simp]
theorem value_subConst (e : LinExpr ℚ) (c : ℚ) (x : ℕ → ℚ) :
    (e.subConst c).value x = e.value x - c := by
  simp only [value, subConst]; ring

@[simp]
theorem value_scale (e : LinExpr ℚ) (k : ℚ) (x : ℕ → ℚ) :
    (e.scale k).value x = e.value x * k := by
  simp only [value, scale, Terms.value_scale]; ring

@[simp]
theorem value_add (e f : LinExpr ℚ) (x : ℕ → ℚ) : (e + f).value x = e.value x + f.value x := by
  change e.constant + f.constant + (e.terms.addAll f.terms.toList).value x = _
  rw [Terms.value_addAll]
  simp only [value, Terms.value]; ring

@[simp]
theorem value_neg (e : LinExpr ℚ) (x : ℕ → ℚ) : (-e).value x = -e.value x := by
  change (e.scale (-1)).value x = _
  rw [value_scale]; ring

@[simp]
theorem value_sub (e f : LinExpr ℚ) (x : ℕ → ℚ) : (e - f).value x = e.value x - f.value x := by
  change (e + -f).value x = _
  rw [value_add, value_neg, sub_eq_add_neg]

@[simp]
theorem value_simplify (e : LinExpr ℚ) (x : ℕ → ℚ) : e.simplify.value x = e.value x := by
  simp only [value, simplify, Terms.value_nonzero]

theorem value_congr {x y : ℕ → ℚ} (he : e.Within n) (h : ∀ i < n, x i = y i) :
    e.value x = e.value y := by
  simp only [value, Terms.value_congr he h]

@[simp]
theorem coeffAt_addVar (e : LinExpr ℚ) (v : Var) (j : ℕ) :
    (e.addVar v).coeffAt j = e.coeffAt j + if v.index = j then 1 else 0 := by
  simp [coeffAt, addVar, Terms.value_add, Pi.single_apply]

@[simp]
theorem coeffAt_subVar (e : LinExpr ℚ) (v : Var) (j : ℕ) :
    (e.subVar v).coeffAt j = e.coeffAt j - if v.index = j then 1 else 0 := by
  simp only [coeffAt, subVar, Terms.value_add, Pi.single_apply]; ring

@[simp]
theorem coeffAt_neg (e : LinExpr ℚ) (j : ℕ) : (-e).coeffAt j = -e.coeffAt j := by
  change (e.scale (-1)).coeffAt j = _
  simp only [coeffAt, scale, Terms.value_scale]; ring

theorem coeffAt_of_le (he : e.Within n) {j : ℕ} (h : n ≤ j) : e.coeffAt j = 0 := by
  rw [coeffAt, Terms.value_congr he (y := 0)]
  · simp [Terms.value]
  · intro i hi
    exact Pi.single_eq_of_ne (by omega) 1

theorem value_eq_sum (he : e.Within n) (x : ℕ → ℚ) :
    e.value x = e.constant + ∑ j ∈ Finset.range n, e.coeffAt j * x j := by
  simp only [value, coeffAt, Terms.value_eq_sum he x]

theorem dense_eq (e : LinExpr ℚ) (n : ℕ) : e.dense n = (List.range n).map e.coeffAt := by
  refine List.map_congr_left fun j _ => ?_
  have h (ts : List (Var × ℚ)) (s : ℚ) :
      ts.foldl (fun s t => if t.1.index = j then s + t.2 else s) s =
        s + (ts.map fun a => a.2 * (Pi.single j 1 : ℕ → ℚ) a.1.index).sum := by
    induction ts generalizing s with
    | nil => simp
    | cons a ts ih =>
        rw [List.foldl_cons, ih]
        by_cases ha : a.1.index = j
        · simp [ha, add_assoc]
        · simp [ha]
  exact (h e.terms.toList 0).trans (zero_add _)

theorem eval_eq {l : List ℚ} (he : e.Within l.length) :
    e.eval l = .ok (e.value (valuation l)) := by
  have he : ∀ a ∈ e.terms.toList, a.1.index < l.length := he
  unfold eval value Terms.value
  generalize e.terms.toList = ts at he ⊢
  generalize e.constant = s
  induction ts generalizing s with
  | nil => simp [pure, Except.pure]
  | cons a ts ih =>
      have ha := he a (by simp)
      have hs := ih (fun b hb => he b (List.mem_cons_of_mem _ hb)) (s + a.2 * valuation l a.1.index)
      have hv : l[a.1.index] = valuation l a.1.index := by
        simp [valuation, List.getD_eq_getElem?_getD, ha]
      rw [List.foldlM_cons, List.getElem?_eq_getElem ha, hv]
      change List.foldlM _ _ ts = _
      rw [hs, List.map_cons, List.sum_cons, add_assoc]

theorem Within.mono {α : Type} {e : LinExpr α} {m n : ℕ} (h : e.Within m) (hmn : m ≤ n) :
    e.Within n := Terms.Within.mono h hmn

end LinExpr

end LinProg
