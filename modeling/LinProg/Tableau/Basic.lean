import LinProg.Tableau.Row

namespace LinProg

@[ext]
structure BasicRow (α : Type) where
  basic : Option Nat
  row : Row α
  deriving Repr

/-- A simplex tableau. The objective row holds the negated coefficients of the objective and, on
the right, its value; rows are counted with the objective as row 0. -/
@[ext]
structure Tableau (α : Type) where
  labels : List String
  objective : Row α
  rows : List (BasicRow α)
  /-- Entries of at most this magnitude count as 0. -/
  tol : α
  aligned : ∀ b ∈ rows, b.row.width = objective.width

namespace Tableau

variable {α : Type} [Scalar α]

def width (t : Tableau α) : Nat := t.objective.width

def basis (t : Tableau α) : List (Option Nat) := t.rows.map (·.basic)

def value (t : Tableau α) : α := t.objective.rhs

def column (t : Tableau α) (j : Nat) : List α :=
  t.objective.cell j :: t.rows.map fun b => b.row.cell j

def assignment (t : Tableau α) : List α :=
  t.rows.foldl (fun x b =>
    match b.basic with
    | some c => x.set c b.row.rhs
    | none => x) (List.replicate t.width 0)

/-- The first entry within `tol` of 1, if every other entry is within `tol` of 0; `i` is the
position of the head and `one` the entry found so far. -/
def unitFrom (tol : α) (i : Nat) (one : Option Nat) : List α → Option Nat
  | [] => one
  | x :: xs =>
    if Scalar.abs (x - 1) ≤ tol ∧ one = none then unitFrom tol (i + 1) (some i) xs
    else if tol < Scalar.abs x then none
    else unitFrom tol (i + 1) one xs

def unitRow? (t : Tableau α) (j : Nat) : Option Nat :=
  (unitFrom t.tol 0 none (t.column j)).filter (0 < ·)

/-- Makes in each row the last of its unit columns basic, so that a column that was added for the
row comes before one that was there. -/
def detectBasis (t : Tableau α) : Tableau α :=
  let units := ((List.range t.width).map t.unitRow?).zipIdx.reverse
  { t with
    rows := t.rows.mapIdx fun r b =>
      { b with basic := (units.find? fun u => u.1 == some (r + 1)).map (·.2) }
    aligned := by
      intro b hb
      obtain ⟨i, h, rfl⟩ := List.mem_mapIdx.1 hb
      exact t.aligned t.rows[i] (List.getElem_mem h) }

def ofRows (labels : List String) (objective : Row α) (rows : List (Row α)) (tol : α) :
    Tableau α :=
  detectBasis
    { labels, objective, tol
      rows := rows.map fun r => ⟨none, r.fit objective.width⟩
      aligned := by simp }

def rowOfCells (t : Tableau α) : List α → Row α
  -- a single entry fills the whole row
  | [x] => ⟨List.replicate t.width x, x⟩
  | l => .ofCells t.width l

def setObjective (t : Tableau α) (o : Row α) : Tableau α :=
  let reduce (o : Row α) (b : BasicRow α) : Row α :=
    match b.basic with
    | some c => o.clear b.row c
    | none => o
  { t with
    objective := t.rows.foldl reduce (o.fit t.width)
    aligned := by
      have h (l : List (BasicRow α)) (o : Row α) : (l.foldl reduce o).width = o.width := by
        induction l generalizing o with
        | nil => rfl
        | cons b l ih =>
          rw [List.foldl_cons, ih]
          simp only [reduce]
          split <;> simp
      intro b hb
      rw [h, Row.width_fit]
      exact t.aligned b hb }

def removeColumns (t : Tableau α) (cols : List Nat) (labels : List String) : Tableau α :=
  let keep := (List.range (t.width + 1)).filter fun j => !cols.contains j
  let select (r : Row α) : Row α := .ofCells (keep.length - 1) (keep.map r.cell)
  { t with
    labels
    objective := select t.objective
    rows := t.rows.map fun b => ⟨b.basic.bind fun c => keep.idxOf? c, select b.row⟩
    aligned := by simp [select] }

def removeRow (t : Tableau α) (r : Nat) : Tableau α :=
  { t with
    rows := t.rows.eraseIdx r
    aligned := fun b hb => t.aligned b (List.mem_of_mem_eraseIdx hb) }

end Tableau

end LinProg
