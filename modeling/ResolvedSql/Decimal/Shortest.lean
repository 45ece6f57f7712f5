/-!
The fewest decimal digits that read back as a double. A decimal reads back as `m * 2 ^ e` when it
lies between the midpoints to the neighbouring doubles, the midpoints included for an even `m`.
For 1, 2, ... 17 digits the two multiples of the digit's unit around the double are tried in exact
arithmetic; the first length with a hit wins, and of two hits the nearer one.
-/
set_option autoImplicit false

namespace ResolvedSql

def twoTo (n : Nat) : Nat := Nat.pow 2 n

def tenTo (n : Nat) : Nat := Nat.pow 10 n

/-- A finite double is `mantissa * 2 ^ exponent`, with its sign kept apart so that zero has two. -/
inductive Binary64 where
  | nan
  | infinite (negative : Bool)
  | finite (negative : Bool) (mantissa : Nat) (exponent : Int)
  deriving DecidableEq, Repr

def Binary64.ofBits (bits : UInt64) : Binary64 :=
  let b := bits.toNat
  let negative := decide (twoTo 63 ≤ b)
  let biased : Nat := b / twoTo 52 % twoTo 11
  let fraction : Nat := b % twoTo 52
  if biased = 2047 then
    if fraction = 0 then .infinite negative else .nan
  else if biased = 0 then .finite negative fraction (-1074)
  else .finite negative (twoTo 52 + fraction) ((biased : Int) - 1075)

def Binary64.isFinite : Binary64 → Bool
  | .finite _ _ _ => true
  | _ => false

structure Decimal where
  coefficient : Nat
  exponent : Int
  deriving DecidableEq, Repr

/-- What becomes of a double that lies exactly between two shortest decimals. -/
inductive Decimal.Tie where
  | up
  | toEven
  deriving DecidableEq, Repr

namespace Decimal

def digits (n : Nat) : List Char := Nat.toDigits 10 n

/-- Every finite double, scaled by this power of ten, is at least one. -/
def scale : Nat := 400

/-- The `k` with `10 ^ (k - 1) ≤ m * 2 ^ e < 10 ^ k`, for `m` positive. -/
def order (m : Nat) (e : Int) : Int :=
  let scaled := m * twoTo e.toNat * tenTo scale / twoTo (-e).toNat
  ((digits scaled).length : Int) - scale

def withDigits (tie : Tie) (m : Nat) (e : Int) (n : Nat) : Option Decimal :=
  let unit := order m e - n
  -- Doubles are counted in quarters of the last place, decimals in units, over one denominator.
  let quarters (x : Nat) : Nat := x * twoTo (e - 2).toNat * tenTo (-unit).toNat
  let units (c : Nat) : Nat := c * tenTo unit.toNat * twoTo (2 - e).toNat
  let narrow := m = twoTo 52 && decide (-1074 < e)
  let low := quarters (4 * m - (if narrow then 1 else 2))
  let high := quarters (4 * m + 2)
  let value := quarters (4 * m)
  let below := value / units 1
  let hit (c : Nat) : Bool :=
    if m % 2 = 0 then low ≤ units c && units c ≤ high else low < units c && units c < high
  let toBelow := value - units below
  let toAbove := units (below + 1) - value
  match hit below, hit (below + 1) with
  | false, false => none
  | true, false => some ⟨below, unit⟩
  | false, true => some ⟨below + 1, unit⟩
  | true, true =>
    if toBelow < toAbove then some ⟨below, unit⟩
    else if toAbove < toBelow then some ⟨below + 1, unit⟩
    else match tie with
      | .up => some ⟨below + 1, unit⟩
      | .toEven => some ⟨if below % 2 = 0 then below else below + 1, unit⟩

/-- Moves trailing zeros of the coefficient into the exponent, at most `k` of them. -/
def trim : Nat → Decimal → Decimal
  | 0, d => d
  | k + 1, d =>
    if d.coefficient ≠ 0 ∧ d.coefficient % 10 = 0 then trim k ⟨d.coefficient / 10, d.exponent + 1⟩
    else d

/-- The shortest decimal that reads back as `m * 2 ^ e`. -/
def shortest (tie : Tie) (m : Nat) (e : Int) : Decimal :=
  if m = 0 then ⟨0, 0⟩
  else
    match (List.range' 1 17).findSome? (withDigits tie m e) with
    | some d => trim 20 d
    | none => ⟨m * twoTo e.toNat, 0⟩

end Decimal
end ResolvedSql
