import ResolvedSql.Json.Basic
import ResolvedSql.Text.Characters
/-!
Numbers in JSON text. An integer that fits a word is exact. Every other number is a double computed
from a significand of at most 64 bits: digits that no longer fit are dropped, and the significand is
multiplied or divided once by a power of ten, so the result is not always the nearest double.
-/
set_option autoImplicit false

namespace ResolvedSql

structure Numeral where
  negative : Bool
  whole : List Char
  fraction : Option (List Char)
  exponent : Option (Bool × List Char)
  deriving DecidableEq, Repr

namespace Numeral

open Text

structure Significand where
  value : Nat
  exponent : Int
  deriving DecidableEq, Repr

/-- Digits before the point: those from the first that does not fit only raise the exponent. -/
def Significand.whole : Significand → List Char → Significand
  | s, [] => s
  | s, c :: r =>
    if s.value * 10 + digitValue c < twoTo 64 then
      Significand.whole ⟨s.value * 10 + digitValue c, s.exponent⟩ r
    else ⟨s.value, s.exponent + (r.length + 1 : Nat)⟩

/-- Digits after the point: those from the first that does not fit are dropped. -/
def Significand.fraction : Significand → List Char → Significand
  | s, [] => s
  | s, c :: r =>
    if s.value * 10 + digitValue c < twoTo 64 then
      Significand.fraction ⟨s.value * 10 + digitValue c, s.exponent - 1⟩ r
    else s

def significand (n : Numeral) : Significand :=
  (Significand.whole ⟨0, 0⟩ n.whole).fraction (n.fraction.getD [])

def powerOfTen (e : Nat) : Float := OfScientific.ofScientific 1 false e

/-- The product `f * 10 ^ e`, in steps of `10 ^ 308` at most; three of them reach zero from any
significand. -/
def scaled : Nat → Float → Int → Option Float
  | 0, _, _ => some 0
  | steps + 1, f, e =>
    if e.natAbs ≤ 308 then
      if 0 ≤ e then
        let g := f * powerOfTen e.natAbs
        if g.isInf then none else some g
      else some (f / powerOfTen e.natAbs)
    else if f == 0 then some f
    else if 0 ≤ e then none
    else scaled steps (f / powerOfTen 308) (e + 308)

def signed (negative : Bool) (f : Float) : Float := if negative then -f else f

def real? (n : Numeral) : Option Float :=
  let s := n.significand
  let magnitude : Option Float :=
    match n.exponent with
    | none => scaled 4 s.value.toUInt64.toFloat s.exponent
    | some (below, ds) =>
      if twoTo 31 ≤ natValue ds then
        if s.value = 0 || below then some 0 else none
      else
        let e : Int := natValue ds
        scaled 4 s.value.toUInt64.toFloat (if below then s.exponent - e else s.exponent + e)
  magnitude.map (signed n.negative)

def number? (n : Numeral) : Option Number :=
  match n.fraction, n.exponent with
  | none, none =>
    let v := natValue n.whole
    if n.negative then
      if 0 < v ∧ v ≤ twoTo 63 then some (.integer (-(v : Int))) else n.real?.map .real
    else if v < twoTo 64 then some (.integer v) else n.real?.map .real
  | _, _ => n.real?.map .real

def digits? (cs : List Char) : Option (List Char × List Char) :=
  match cs.takeWhile Char.isDigit with
  | [] => none
  | ds => some (ds, cs.dropWhile Char.isDigit)

def exponent? : List Char → Option ((Bool × List Char) × List Char)
  | '+' :: r => (digits? r).map fun (ds, r) => ((false, ds), r)
  | '-' :: r => (digits? r).map fun (ds, r) => ((true, ds), r)
  | r => (digits? r).map fun (ds, r) => ((false, ds), r)

def read? (cs : List Char) : Option (Numeral × List Char) := do
  let (negative, cs) := match cs with
    | '-' :: r => (true, r)
    | _ => (false, cs)
  let (whole, cs) ← match cs with
    | '0' :: r => some (['0'], r)
    | _ => digits? cs
  let (fraction, cs) ← match cs with
    | '.' :: r => (digits? r).map fun (ds, r) => (some ds, r)
    | _ => some (none, cs)
  let (exponent, cs) ← match cs with
    | 'e' :: r | 'E' :: r => (exponent? r).map fun (x, r) => (some x, r)
    | _ => some (none, cs)
  return (⟨negative, whole, fraction, exponent⟩, cs)

end Numeral
end ResolvedSql
