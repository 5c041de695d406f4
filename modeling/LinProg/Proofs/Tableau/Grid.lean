import Mathlib.Data.List.Basic
import LinProg.Tableau.Ascent

namespace LinProg

/-- A tableau as a plain matrix, with the objective in row 0 and the right hand sides in the last
column, and the basis beside it. -/
structure Grid (α : Type) where
  ncols : ℕ
  cells : List (List α)
  basis : List (Option ℕ)
  tol : α

variable {α : Type}

def put? {β : Type} (l : List β) (i : ℕ) (x : β) : Option (List β) :=
  if i < l.length then some (l.set i x) else none

variable [Scalar α]

def addScaled? (k : α) (xs ys : List α) : Option (List α) :=
  if xs.length = ys.length then some (addScaled k xs ys) else none

def clear? (p : List α) (j : ℕ) (row : List α) : Option (List α) := do
  let k ← row[j]?
  if k == 0 then return row
  else put? (← addScaled? (-k) row p) j 0

/-! Every function here looks up each index it uses, and is `none` where one points past the end. -/

namespace Grid

def cell? (g : Grid α) (i j : ℕ) : Option α := do (← g.cells[i]?)[j]?

def column? (g : Grid α) (j : ℕ) : Option (List α) := g.cells.mapM (·[j]?)

def coefficients? (g : Grid α) : Option (List α) := do
  let row ← g.cells[0]?
  if row.isEmpty then none else row.dropLast

def isOptimal? (g : Grid α) : Option Bool := do
  return (← g.coefficients?).all fun c => decide (-g.tol ≤ c)

def improve? (g : Grid α) (best : ℕ) (c : α × ℕ) : Option ℕ := do
  return if c.1 < (← g.cell? 0 best) then c.2 else best

def entering? (g : Grid α) : Option ℕ := do (← g.coefficients?).zipIdx.foldlM g.improve? 0

def isUnbounded? (g : Grid α) (j : ℕ) : Option Bool := do
  return ((← g.column? j).drop 1).all fun a => decide (a ≤ g.tol)

def limit? (g : Grid α) (j : ℕ) (best : Option (ℕ × α)) (row : List α × ℕ) :
    Option (Option (ℕ × α)) := do
  let a ← row.1[j]?
  if a ≤ g.tol then return best
  else
    let ratio := (← row.1[g.ncols - 1]?) / a
    match best with
    | some (_, q) => return if q ≤ ratio then best else some (row.2, ratio)
    | none => return some (row.2, ratio)

def leaving? (g : Grid α) (j : ℕ) : Option (Option ℕ) := do
  return (← (g.cells.zipIdx.drop 1).foldlM (g.limit? j) none).map (·.1)

def move? (g : Grid α) : Option Move := do
  if ← g.isOptimal? then return .optimal
  else
    let j ← g.entering?
    if ← g.isUnbounded? j then return .unbounded
    else return match ← g.leaving? j with
      | some i => .pivot i j
      | none => .unbounded

def eliminate? (i j : ℕ) (p : List α) (row : List α × ℕ) : Option (List α) := do
  if row.2 = i then return p else put? (← clear? p j row.1) j 0

def pivot? (g : Grid α) (i j : ℕ) : Option (Except Fault (Grid α)) := do
  if i = 0 ∨ g.cells.length ≤ i ∨ g.ncols - 1 ≤ j then return .error (.invalidPivot i j)
  else
    let row ← g.cells[i]?
    let d ← row[j]?
    if Scalar.abs d ≤ g.tol then return .error (.invalidPivot i j)
    else
      let p ← put? (row.map (· / d)) j 1
      let cells ← g.cells.zipIdx.mapM (eliminate? i j p)
      return .ok { g with cells, basis := ← put? g.basis (i - 1) (some j) }

def place? (g : Grid α) (x : List α) (col : Option ℕ × ℕ) : Option (List α) := do
  match col.1 with
  | some c => put? x c (← g.cell? (col.2 + 1) (g.ncols - 1))
  | none => return x

def assignment? (g : Grid α) : Option (List α) :=
  g.basis.zipIdx.foldlM g.place? (List.replicate (g.ncols - 1) 0)

/-- Column `j` becomes basic if it is a unit vector and its row has no basic column yet. -/
def detect? (g : Grid α) (basis : List (Option ℕ)) (j : ℕ) : Option (List (Option ℕ)) := do
  match (Tableau.unitFrom g.tol 0 none (← g.column? j)).filter (0 < ·) with
  | some r =>
    match ← basis[r - 1]? with
    | some _ => return basis
    | none => put? basis (r - 1) (some j)
  | none => return basis

def detectBasis? (g : Grid α) : Option (Grid α) := do
  let basis := List.replicate (g.cells.length - 1) none
  return { g with basis := ← (List.range (g.ncols - 1)).reverse.foldlM g.detect? basis }

def ofRows? (objective : List α) (rows : List (List α)) (tol : α) : Option (Grid α) :=
  if ∀ row ∈ rows, row.length = objective.length then
    detectBasis? ⟨objective.length, objective :: rows, [], tol⟩
  else none

def reduce? (g : Grid α) (o : List α) (col : Option ℕ × ℕ) : Option (List α) := do
  match col.1 with
  | some c => clear? (← g.cells[col.2 + 1]?) c o
  | none => return o

def setObjective? (g : Grid α) (o : List α) : Option (Grid α) :=
  if o.length = g.ncols then do
    return { g with cells := ← put? g.cells 0 (← g.basis.zipIdx.foldlM g.reduce? o) }
  else none

def kept (g : Grid α) (cols : List ℕ) : List ℕ :=
  (List.range g.ncols).filter fun j => !cols.contains j

def removeColumns? (g : Grid α) (cols : List ℕ) : Option (Grid α) := do
  let keep := g.kept cols
  let cells ← g.cells.mapM fun row => keep.mapM (row[·]?)
  return ⟨keep.length, cells, g.basis.map fun col => col.bind fun c => keep.idxOf? c, g.tol⟩

def removeRow? (g : Grid α) (r : ℕ) : Option (Grid α) :=
  if r + 1 < g.cells.length ∧ r < g.basis.length then
    some { g with cells := g.cells.eraseIdx (r + 1), basis := g.basis.eraseIdx r }
  else none

end Grid

end LinProg
