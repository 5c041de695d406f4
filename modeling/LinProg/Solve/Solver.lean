import LinProg.Program.Canonical
import LinProg.Solve.PhaseOne

namespace LinProg

/-- The two-phase simplex method: entries up to `tolerance` count as 0, and at most `limit` pivots
are spent on the search in both phases together. -/
structure Simplex (α : Type) where
  tolerance : α
  limit : Nat

def Simplex.standard : Simplex Float := ⟨1e-9, 10000⟩

namespace Simplex

variable {α : Type} [Scalar α]

def optimize (s : Simplex α) (used : Nat) (t : Tableau α) : Logged (Event α) (Ascent α) := do
  let a := t.ascend (s.limit - used)
  .notes (a.steps.mapIdx fun k step => .pivot (used + k + 1) step)
  match a.halt with
  | .optimal =>
    .note (.optimal a.last)
    return a
  | .unbounded => return a
  | .exhausted => .fail (.pivotLimit s.limit)
  | .refused e => .fail e

def conclude (s : Simplex α) (p : Program α) (flipped : Bool) (used : Nat)
    (initial t : Tableau α) : Logged (Event α) (Solution α) := do
  let a ← s.optimize used t
  let pivots := used + a.steps.length
  let (status, optimum) := match a.halt, flipped with
    | .unbounded, true => (Status.unbounded, .minusInfinity)
    | .unbounded, false => (.unbounded, .plusInfinity)
    | _, true => (.optimal, .attained (-a.last.value))
    | _, false => (.optimal, .attained a.last.value)
  .note (.solved p.name status pivots optimum)
  return ⟨status, p.id, p.names, optimum, a.last.assignment, initial, a.last⟩

def solve (s : Simplex α) (p : Program α) : Logged (Event α) (Solution α) := do
  let c ← p.canonical?
  .note (.canonical p.name c.slacks.length c.surpluses.length c.flipped)
  if c.needsPhaseOne then
    let (q, artificials) ← c.withArtificials
    let cols := artificials.map (·.1.index)
    .note (.phaseOne p.name cols.length)
    let initial := q.phaseOneTableau artificials s.tolerance
    let a ← s.optimize 0 initial
    if a.halt = .unbounded then
      .fail .unboundedPhaseOne
    else if a.last.hasPositive cols then
      .note (.infeasible p.name a.steps.length)
      return ⟨.infeasible, p.id, p.names, .undefined, a.last.assignment, initial, a.last⟩
    else
      let t ← a.last.restore c.program cols
      s.conclude p c.flipped a.steps.length initial t
  else
    let t := c.program.tableau s.tolerance
    s.conclude p c.flipped 0 t t

end Simplex

end LinProg
