import LinProg.Program.Basic

namespace LinProg

def candidateName (base : String) : Nat → String
  | 0 => base
  | k + 1 => s!"{base}_{k + 1}"

variable {α : Type} [Scalar α]

/-- The first candidate that no variable has. The program has fewer names than there are
candidates to look at. -/
def Program.freshName (p : Program α) (base : String) : String :=
  let free k := (p.var? (candidateName base k)).isNone
  candidateName base (((List.range (p.vars.length + 1)).find? free).getD 0)

end LinProg
