import LinProg.Decimal.Notation
import LinProg.Program.Basic
import LinProg.Text.Table

namespace LinProg

open Text Decimal

def Relation.symbol : Relation → String
  | le => "≤"
  | ge => "≥"
  | eq => "="

def Direction.word : Direction → String
  | max => "Max"
  | min => "Min"

def withSign (plus minus : String) (x : Float) : String :=
  if x < 0 then minus ++ plain x.abs else plus ++ plain x

def LinExpr.text (e : LinExpr Float) : String :=
  match e.terms.toList with
  | [] => plain e.constant
  | (v, c) :: ts =>
    let more (t : Var × Float) : String := withSign " + " " - " t.2 ++ "×" ++ t.1.name
    let tail := if e.constant < 0 ∨ 0 < e.constant then withSign " + " " - " e.constant else ""
    withSign "" "-" c ++ "×" ++ v.name ++ String.join (ts.map more) ++ tail

def Constraint.text (c : Constraint Float) : String :=
  s!"{c.expr.text} {c.relation.symbol} {plain c.bound}"

def Objective.text (o : Objective Float) : String :=
  s!"{o.direction.word} {label} = {o.expr.text}"

/-- The terms of `e` in the columns of their variables, out of `n`. -/
def LinExpr.termCells (e : LinExpr Float) (n : Nat) : List String :=
  let ts := e.terms.toList.filter fun t => decide (t.1.index < n)
  let cell (k : Nat) (t : Var × Float) : Nat × String :=
    let amount := if k = 0 then withSign "" "-" t.2 else withSign "+ " "- " t.2
    (t.1.index, amount ++ "*" ++ t.1.name)
  (ts.mapIdx cell).foldl (fun cells c => cells.set c.1 c.2) (List.replicate n "")

def Program.text (p : Program Float) : String :=
  let n := p.vars.length
  let columns := [⟨"", .left⟩, ⟨" ", .center⟩] ++ List.replicate n ⟨" ", .right⟩ ++
    [⟨" ", .center⟩, ⟨" ", .left⟩]
  let blanks := List.replicate (n + 2) ""
  let objective := match p.objective with
    | some o =>
      let c := o.expr.constant
      o.direction.word :: ":" :: o.expr.termCells n ++ ["", if c != 0 then withPlus c else ""]
    | none => "No objective" :: ":" :: blanks
  let constraint (c : Constraint Float) : List String :=
    s!"c{c.index}" :: ":" :: c.expr.termCells n ++ [c.relation.symbol, plain c.bound]
  let lines := objective :: ("Subject to" :: ":" :: blanks) :: p.constraints.map constraint
  p.name ++ "\n" ++ table columns lines

end LinProg
