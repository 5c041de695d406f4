import LinProg.Text.Width

namespace LinProg.Text

inductive Align where
  | left
  | center
  | right
  deriving DecidableEq, Repr

structure Column where
  gap : String
  align : Align

def spaces (n : Nat) : String := String.ofList (List.replicate n ' ')

/-- The blanks before and after a cell that is `free` columns narrower than its column. An odd
blank of a centered cell comes after it. -/
def Align.split (a : Align) (free : Nat) : Nat × Nat :=
  match a with
  | left => (0, free)
  | center => (free / 2, free - free / 2)
  | right => (free, 0)

def line : List (Column × Nat) → List String → String
  | (c, w) :: cs, s :: ss =>
    let (before, after) := c.align.split (w - width s)
    let after := if cs.isEmpty then 0 else after
    c.gap ++ spaces before ++ s ++ spaces after ++ line cs ss
  | _, _ => "\n"

def table (columns : List Column) (rows : List (List String)) : String :=
  let widest (j : Nat) : Nat := (rows.map fun r => width (r.getD j "")).foldl max 0
  let columns := columns.mapIdx fun j c => (c, widest j)
  String.join (rows.map (line columns))

end LinProg.Text
