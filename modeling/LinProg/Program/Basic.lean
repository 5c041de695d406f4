import LinProg.Program.Constraint
import LinProg.Program.Objective

namespace LinProg

/-- A linear program over nonnegative variables. Variables and constraints are only ever appended,
and a variable knows its position and the identity of its program. -/
@[ext]
structure Program (α : Type) where
  name : String
  id : Nat
  vars : List Var
  constraints : List (Constraint α)
  objective : Option (Objective α)

namespace Program

variable {α : Type} [Scalar α]

def new (name : String) (id : Nat) : Program α := ⟨name, id, [], [], none⟩

def names (p : Program α) : List String := p.vars.map (·.name)

def var? (p : Program α) (name : String) : Option Var := p.vars.find? fun v => v.name == name

def addVariable (p : Program α) (name : String) : Except Fault (Var × Program α) :=
  if (p.var? name).isSome then .error (.duplicateVariable name)
  else
    let v : Var := ⟨name, p.vars.length, p.id⟩
    .ok (v, { p with vars := p.vars ++ [v] })

def addVariables (p : Program α) (names : List String) : Except Fault (Program α) :=
  names.foldlM (fun p name => (p.addVariable name).map (·.2)) p

def owns (p : Program α) (v : Var) : Bool := v.owner == p.id && decide (v.index < p.vars.length)

def checkOwned (p : Program α) (e : LinExpr α) : Except Fault Unit :=
  match e.vars.find? fun v => !p.owns v with
  | some v => .error (.foreignVariable v.name)
  | none => .ok ()

def addConstraint (p : Program α) (c : Constraint α) : Except Fault (Program α) := do
  p.checkOwned c.expr
  return { p with constraints := p.constraints ++ [{ c with index := p.constraints.length }] }

def setObjective (p : Program α) (o : Objective α) : Except Fault (Program α) := do
  p.checkOwned o.expr
  return { p with objective := some o }

def simplify (p : Program α) : Program α :=
  { p with
    constraints := p.constraints.map Constraint.simplify
    objective := p.objective.map Objective.simplify }

def eval (p : Program α) (e : LinExpr α) (x : List α) : Except Fault α :=
  if x.length < p.vars.length then .error (.tooFewValues p.vars.length x.length) else e.eval x

instance : BEq (Program α) :=
  ⟨fun p q => p.name == q.name && p.id == q.id && p.vars == q.vars && p.names == q.names &&
    p.constraints == q.constraints && p.objective == q.objective⟩

end Program

end LinProg
