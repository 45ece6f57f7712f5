import ResolvedSql.Decimal.Shortest
namespace ResolvedSql

/-- A layout: how a tie between two shortest decimals is settled, and the powers of ten of the
leading digit that are written positionally (`none` for all of them). -/
structure Decimal.Layout where
  tie : Decimal.Tie
  positional : Option (Int × Int)
  deriving DecidableEq, Repr

namespace Decimal

def zeros (n : Nat) : List Char := List.replicate n '0'

def magnitude (d : Decimal) : Int := ((digits d.coefficient).length : Int) - 1 + d.exponent

def plain (d : Decimal) : List Char :=
  let ds := digits d.coefficient
  let x := d.magnitude
  if x < 0 then '0' :: '.' :: (zeros (-x - 1).toNat ++ ds)
  else if (ds.length : Int) ≤ x + 1 then ds ++ zeros (x + 1 - ds.length).toNat ++ ['.', '0']
  else ds.take (x + 1).toNat ++ '.' :: ds.drop (x + 1).toNat

/-- One digit before the point, no point for a single digit, and a signed power of ten. -/
def scientific (d : Decimal) : List Char :=
  let x := d.magnitude
  let mantissa := match digits d.coefficient with
    | [] => []
    | [c] => [c]
    | c :: r => c :: '.' :: r
  mantissa ++ 'e' :: (if x < 0 then '-' else '+') :: digits x.natAbs

def Layout.write (l : Layout) (negative : Bool) (m : Nat) (e : Int) : List Char :=
  let d := shortest l.tie m e
  let body := match l.positional with
    | none => d.plain
    | some (first, last) =>
      if first ≤ d.magnitude ∧ d.magnitude ≤ last then d.plain else d.scientific
  if negative then '-' :: body else body

end Decimal
end ResolvedSql
