namespace LinProg

inductive Number where
  | double (x : Float)
  | single (x : Float32)
  | integer (n : Int)
  | complex (re im : Float)

/-- The nearest floating point number. A complex number off the real axis is none. -/
def Number.toFloat : Number → Float
  | double x => x
  | single x => x.toFloat
  | integer n =>
    let x := Float.ofScientific n.natAbs false 0
    if n < 0 then -x else x
  | complex re im => if im == 0 then re else 0 / 0

end LinProg
