import LinProg.Fault
import LinProg.Expr.Terms

namespace LinProg

/-- A linear combination of variables plus a constant. A term that cancels stays, with
coefficient 0, until `simplify`. -/
@[ext]
structure LinExpr (α : Type) where
  terms : Terms α
  constant : α

namespace LinExpr

variable {α : Type} [Scalar α]

def const (c : α) : LinExpr α := ⟨.empty, c⟩

def ofVar (v : Var) : LinExpr α := ⟨.single v 1, 0⟩

def ofTerms (l : List (Var × α)) (c : α) : LinExpr α := ⟨Terms.empty.addAll l, c⟩

def addVar (e : LinExpr α) (v : Var) : LinExpr α := { e with terms := e.terms.add v 1 }

def subVar (e : LinExpr α) (v : Var) : LinExpr α := { e with terms := e.terms.add v (-1) }

def addConst (e : LinExpr α) (c : α) : LinExpr α := { e with constant := e.constant + c }

def subConst (e : LinExpr α) (c : α) : LinExpr α := { e with constant := e.constant - c }

def scale (e : LinExpr α) (k : α) : LinExpr α := ⟨e.terms.scale k, e.constant * k⟩

instance : Add (LinExpr α) := ⟨fun a b => ⟨a.terms.addAll b.terms.toList, a.constant + b.constant⟩⟩

instance : Neg (LinExpr α) := ⟨fun a => a.scale (-1)⟩

instance : Sub (LinExpr α) := ⟨fun a b => a + -b⟩

instance : BEq (LinExpr α) := ⟨fun a b => a.terms == b.terms && a.constant == b.constant⟩

def simplify (e : LinExpr α) : LinExpr α := { e with terms := e.terms.nonzero }

def coefficient (e : LinExpr α) (v : Var) : α := (e.terms.get? v).getD 0

def contains (e : LinExpr α) (v : Var) : Bool := (e.terms.get? v).isSome

def vars (e : LinExpr α) : List Var := e.terms.vars

/-- The value at an assignment indexed by position, which has to reach every variable. -/
def eval (e : LinExpr α) (x : List α) : Except Fault α :=
  e.terms.toList.foldlM (fun s t =>
    match x[t.1.index]? with
    | some y => .ok (s + t.2 * y)
    | none => .error (.tooFewValues (t.1.index + 1) x.length)) e.constant

def dense (e : LinExpr α) (n : Nat) : List α :=
  (List.range n).map fun j =>
    e.terms.toList.foldl (fun s t => if t.1.index = j then s + t.2 else s) 0

end LinExpr

end LinProg
