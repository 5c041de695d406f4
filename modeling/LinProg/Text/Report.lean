import LinProg.Solve.Event
import LinProg.Text.Program
import LinProg.Text.Tableau

namespace LinProg

open Text Decimal

inductive Color where
  | red
  | green
  | yellow
  deriving DecidableEq, Repr

def Color.code : Color → Nat
  | red => 31
  | green => 32
  | yellow => 33

def Color.paint (c : Color) (s : String) : String := s!"\x1b[{c.code}m{s}\x1b[0m"

def Status.word : Status → String
  | optimal => "optimal"
  | unbounded => "unbounded"
  | infeasible => "infeasible"

def Status.color : Status → Color
  | optimal => .green
  | unbounded => .yellow
  | infeasible => .red

/-- The optimum as a number: infinite where it is out of reach, and none at all where no point is
feasible. -/
def Optimum.toFloat : Optimum Float → Float
  | attained x => x
  | plusInfinity => 1 / 0
  | minusInfinity => -1 / 0
  | undefined => 0 / 0

def Solution.text (s : Solution Float) (colored : Bool) : String :=
  let status := if colored then s.status.color.paint s.status.word else s.status.word
  if s.status = .optimal then
    let values := (s.names.zip s.values).map fun v => s!"  {v.1} = {plain v.2}\n"
    s!"{status} (objective {plain s.optimum.toFloat})\n" ++ String.join values
  else status ++ "\n"

inductive Level where
  | debug
  | trace
  deriving DecidableEq, Repr

def Level.word : Level → String
  | debug => "debug"
  | trace => "trace"

namespace Event

def level : Event Float → Level
  | pivot .. => .trace
  | optimal .. => .trace
  | _ => .debug

def text : Event Float → String
  | objectiveReplaced p o => s!"model {p}: replacing objective `{o.text}`"
  | canonical p slacks surpluses flipped =>
    s!"model {p}: {slacks} slack, {surpluses} surplus variables, objective flipped: {flipped}"
  | phaseOne p n => s!"model {p}: presolve with {n} artificial variables"
  | pivot k s => s!"pivot {k}: row {s.row}, col {s.col}, objective {plain s.value}"
  | optimal t => "optimal tableau:\n" ++ t.text
  | rowRemoved r => s!"removing redundant constraint row {r}"
  | infeasible p k => s!"model {p}: infeasible after {k} pivots"
  | solved p status k x =>
    s!"model {p}: {status.word} after {k} pivots, objective {plain x.toFloat}"

end Event

end LinProg
