import LinProg.Scalar

namespace LinProg

/-- A row of a tableau: one coefficient per variable column, and the right hand side in the column
after them. -/
@[ext]
structure Row (α : Type) where
  coeffs : List α
  rhs : α
  deriving Repr

variable {α : Type} [Scalar α]

def addScaled (k : α) : List α → List α → List α
  | x :: xs, y :: ys => (x + k * y) :: addScaled k xs ys
  | xs, _ => xs

@[simp]
theorem length_addScaled (k : α) (xs ys : List α) : (addScaled k xs ys).length = xs.length := by
  induction xs generalizing ys with
  | nil => simp [addScaled]
  | cons x xs ih => cases ys <;> simp [addScaled, ih]

namespace Row

def width (r : Row α) : Nat := r.coeffs.length

def cell (r : Row α) (j : Nat) : α := r.coeffs.getD j r.rhs

def cells (r : Row α) : List α := r.coeffs ++ [r.rhs]

def ofCells (width : Nat) (l : List α) : Row α :=
  ⟨(List.range width).map fun j => l.getD j 0, l.getD width 0⟩

def fit (r : Row α) (width : Nat) : Row α :=
  ⟨(List.range width).map fun j => r.coeffs.getD j 0, r.rhs⟩

def divide (r : Row α) (d : α) : Row α := ⟨r.coeffs.map (· / d), r.rhs / d⟩

def set (r : Row α) (j : Nat) (x : α) : Row α := { r with coeffs := r.coeffs.set j x }

def addScaled (r : Row α) (k : α) (p : Row α) : Row α :=
  ⟨LinProg.addScaled k r.coeffs p.coeffs, r.rhs + k * p.rhs⟩

def clear (r : Row α) (p : Row α) (j : Nat) : Row α :=
  if r.cell j == 0 then r else (r.addScaled (-r.cell j) p).set j 0

@[simp] theorem width_ofCells (n : Nat) (l : List α) : (ofCells n l).width = n := by
  simp [ofCells, width]

@[simp] theorem width_fit (r : Row α) (n : Nat) : (r.fit n).width = n := by simp [fit, width]

@[simp] theorem width_divide (r : Row α) (d : α) : (r.divide d).width = r.width := by
  simp [divide, width]

omit [Scalar α] in
@[simp] theorem width_set (r : Row α) (j : Nat) (x : α) : (r.set j x).width = r.width := by
  simp [set, width]

@[simp] theorem width_addScaled (r : Row α) (k : α) (p : Row α) :
    (r.addScaled k p).width = r.width := by
  simp [addScaled, width]

@[simp] theorem width_clear (r p : Row α) (j : Nat) : (r.clear p j).width = r.width := by
  unfold clear; split <;> simp

omit [Scalar α] in
theorem getElem?_coeffs (r : Row α) {j : Nat} (h : j < r.width) :
    r.coeffs[j]? = some (r.cell j) := by
  have h : j < r.coeffs.length := h
  simp [cell, List.getD_eq_getElem?_getD, h]

omit [Scalar α] in
theorem cell_of_le (r : Row α) {j : Nat} (h : r.width ≤ j) : r.cell j = r.rhs := by
  simp [cell, List.getD_eq_getElem?_getD, List.getElem?_eq_none h]

theorem cell_divide (r : Row α) (d : α) (j : Nat) : (r.divide d).cell j = r.cell j / d := by
  simp [cell, divide, List.getD_eq_getElem?_getD]

theorem cell_addScaled (r p : Row α) (k : α) (h : r.width = p.width) (j : Nat) :
    (r.addScaled k p).cell j = r.cell j + k * p.cell j := by
  obtain ⟨xs, x⟩ := r
  obtain ⟨ys, y⟩ := p
  simp only [width] at h
  simp only [cell, addScaled]
  induction xs generalizing ys j with
  | nil => cases ys <;> simp_all [LinProg.addScaled]
  | cons a xs ih =>
    cases ys with
    | nil => simp at h
    | cons b ys =>
      cases j with
      | zero => simp [LinProg.addScaled]
      | succ j => simpa [LinProg.addScaled] using ih j ys (by simpa using h)

end Row

end LinProg
