import LinProg.Decimal.Fixed
import LinProg.Decimal.Shortest

namespace LinProg.Decimal

/-- `n / 10 ^ places`, with a point before the last `places` digits and a digit before the point. -/
def pointed (n places : Nat) : String :=
  if places = 0 then toString n
  else
    let ds := (toString n).toList
    let ds := List.replicate (places + 1 - ds.length) '0' ++ ds
    let k := ds.length - places
    String.ofList (ds.take k ++ '.' :: ds.drop k)

def positional (d : Nat) (e : Int) : String := pointed (d * Nat.pow 10 e.toNat) (-e).toNat

def isNegative (x : Float) : Bool := x.toBits >>> 63 == 1

def signed (plus : String) (magnitude : Binary → String) (x : Float) : String :=
  if x.isNaN then "NaN"
  else
    let sign := if isNegative x then "-" else plus
    sign ++ if x.isInf then "inf" else magnitude (.ofBits x.toBits)

/-- The shortest decimal that reads back as `x`. -/
def plain (x : Float) : String := signed "" (fun b => positional b.shortest.1 b.shortest.2) x

def withPlus (x : Float) : String := signed "+" (fun b => positional b.shortest.1 b.shortest.2) x

def toPlaces (places : Nat) (x : Float) : String :=
  signed "" (fun b => pointed (b.fixed places) places) x

end LinProg.Decimal
