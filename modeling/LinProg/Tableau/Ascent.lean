import LinProg.Tableau.Choice
import LinProg.Tableau.Pivot

namespace LinProg

inductive Move where
  | optimal
  | unbounded
  | pivot (row col : Nat)
  deriving DecidableEq, Repr

structure PivotStep (α : Type) where
  row : Nat
  col : Nat
  value : α

inductive Halt where
  | optimal
  | unbounded
  | exhausted
  | refused (fault : Fault)
  deriving DecidableEq, Repr

structure Ascent (α : Type) where
  steps : List (PivotStep α)
  last : Tableau α
  halt : Halt

namespace Tableau

variable {α : Type} [Scalar α]

/-- Dantzig's rule: the least coefficient enters, the least ratio leaves. -/
def move (t : Tableau α) : Move :=
  if t.isOptimal then .optimal
  else if t.isUnbounded t.entering then .unbounded
  else match t.leaving t.entering with
    | some i => .pivot i t.entering
    | none => .unbounded

/-- Pivots until nothing is left to do or the budget of pivots is spent; `done` holds the steps so
far, the latest first. -/
def ascendFrom (done : List (PivotStep α)) (budget : Nat) (t : Tableau α) : Ascent α :=
  match t.move, budget with
  | .optimal, _ => ⟨done.reverse, t, .optimal⟩
  | .unbounded, _ => ⟨done.reverse, t, .unbounded⟩
  | .pivot _ _, 0 => ⟨done.reverse, t, .exhausted⟩
  | .pivot i j, n + 1 =>
    match t.pivot i j with
    | .ok u => ascendFrom (⟨i, j, u.value⟩ :: done) n u
    | .error f => ⟨done.reverse, t, .refused f⟩

def ascend (t : Tableau α) (budget : Nat) : Ascent α := t.ascendFrom [] budget

end Tableau

end LinProg
