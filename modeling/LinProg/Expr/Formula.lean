import LinProg.Expr.Linear

namespace LinProg

inductive Operand (α : Type) where
  | scalar (c : α)
  | var (v : Var)
  | expr (e : LinExpr α)

namespace Operand

variable {α : Type} [Scalar α]

def toExpr : Operand α → LinExpr α
  | scalar c => .const c
  | var v => .ofVar v
  | expr e => e

/-- A scalar goes to the constant and a variable becomes one more term, whichever side they stand
on. Two scalars are no expression. -/
def add? : Operand α → Operand α → Option (LinExpr α)
  | scalar _, scalar _ => none
  | scalar c, a => some (a.toExpr.addConst c)
  | a, scalar c => some (a.toExpr.addConst c)
  | var v, expr e => some (e.addVar v)
  | a, var v => some (a.toExpr.addVar v)
  | expr e, expr f => some (e + f)

def sub? : Operand α → Operand α → Option (LinExpr α)
  | scalar _, scalar _ => none
  | scalar c, a => some ((-a.toExpr).addConst c)
  | a, scalar c => some (a.toExpr.subConst c)
  | var v, expr e => some ((-e).addVar v)
  | a, var v => some (a.toExpr.subVar v)
  | expr e, expr f => some (e - f)

def mul? : Operand α → Operand α → Option (LinExpr α)
  | scalar _, scalar _ => none
  | scalar c, a => some (a.toExpr.scale c)
  | a, scalar c => some (a.toExpr.scale c)
  | _, _ => none

def neg? : Operand α → Option (LinExpr α)
  | scalar _ => none
  | a => some (-a.toExpr)

end Operand

inductive Assignment (α : Type) where
  | addVar (v : Var)
  | subVar (v : Var)
  | scale (c : α)

/-- A linear expression as it is spelled. It makes no difference whether an operator takes an
expression itself or a reference to it. -/
inductive Formula (α : Type) where
  | operand (a : Operand α)
  | ofTerms (l : List (Var × α)) (c : α)
  | add (a b : Formula α)
  | sub (a b : Formula α)
  | mul (a b : Formula α)
  | neg (a : Formula α)
  | toExpr (a : Formula α)
  | simplified (a : Formula α)
  | assign (a : Formula α) (s : Assignment α)

variable {α : Type} [Scalar α]

def Assignment.apply? : Assignment α → Operand α → Option (LinExpr α)
  | addVar v, .expr e => some (e.addVar v)
  | subVar v, .expr e => some (e.subVar v)
  | scale c, .expr e => some (e.scale c)
  | _, _ => none

def Formula.eval? : Formula α → Option (Operand α)
  | operand a => some a
  | ofTerms l c => some (.expr (.ofTerms l c))
  | add a b => do return .expr (← (← a.eval?).add? (← b.eval?))
  | sub a b => do return .expr (← (← a.eval?).sub? (← b.eval?))
  | mul a b => do return .expr (← (← a.eval?).mul? (← b.eval?))
  | neg a => do return .expr (← (← a.eval?).neg?)
  | toExpr a => do return .expr (← a.eval?).toExpr
  | simplified a => do return .expr (← a.eval?).toExpr.simplify
  | assign a s => do return .expr (← s.apply? (← a.eval?))

end LinProg
