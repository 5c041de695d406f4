import LinProg.Text.Combining
import LinProg.Text.Wide

namespace LinProg.Text

def covers (ranges : List (Nat × Nat)) (n : Nat) : Bool :=
  ranges.any fun r => decide (r.1 ≤ n ∧ n ≤ r.2)

/-- The columns of a terminal that a code point takes if nothing stands after it. -/
def columns (n : Nat) : Nat :=
  if n = 0x17D8 then 3
  else if covers combining n then 0
  else if covers wide n then 2
  else 1

def zeroWidthJoiner : Nat := 0x200D

def textSelector : Nat := 0xFE0E

def emojiSelector : Nat := 0xFE0F

end LinProg.Text
