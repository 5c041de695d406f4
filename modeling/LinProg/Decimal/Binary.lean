namespace LinProg.Decimal

/-- The number `m * 2 ^ q` with the floating point numbers around it: the next one is `2 ^ q` above,
the previous one as far below, or half as far if `narrow`. -/
structure Binary where
  m : Nat
  q : Int
  narrow : Bool
  deriving DecidableEq, Repr

def Binary.ofBits (b : UInt64) : Binary :=
  let e := (b >>> 52 &&& 0x7FF).toNat
  let f := (b &&& 0xFFFFFFFFFFFFF).toNat
  if e = 0 then ⟨f, -1074, false⟩
  else ⟨0x10000000000000 + f, (e : Int) - 1075, f = 0 ∧ 1 < e⟩

namespace Binary

/-- `m * 2 ^ q / 10 ^ e` is `m * unit / denominator`. -/
def unit (x : Binary) (e : Int) : Nat := Nat.pow 2 x.q.toNat * Nat.pow 10 (-e).toNat

def denominator (x : Binary) (e : Int) : Nat := Nat.pow 2 (-x.q).toNat * Nat.pow 10 e.toNat

end Binary

end LinProg.Decimal
