namespace LinProg

/-- The arithmetic a linear program is solved in. Only operations: no law is assumed, so that
floating point numbers qualify as well as exact ones. -/
class Scalar (α : Type) extends
    Zero α, One α, Add α, Sub α, Mul α, Div α, Neg α, LT α, LE α, BEq α where
  abs : α → α
  decidableLT : DecidableLT α
  decidableLE : DecidableLE α

attribute [reducible, instance] Scalar.decidableLT Scalar.decidableLE

instance : Scalar Float where
  zero := 0
  one := 1
  abs := Float.abs
  decidableLT := inferInstance
  decidableLE := inferInstance

instance : Scalar Rat where
  zero := 0
  one := 1
  abs x := if x < 0 then -x else x
  decidableLT := inferInstance
  decidableLE := inferInstance

end LinProg
