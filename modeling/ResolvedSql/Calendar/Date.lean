import ResolvedSql.Decimal.Shortest
import ResolvedSql.Text.Characters
/-!
Calendar dates. The years run from -262143 to 262142. A date is read leniently (blanks before each
part, one or two digits) and written in one way.
-/
set_option autoImplicit false

namespace ResolvedSql

def isLeapYear (y : Int) : Bool := y % 4 = 0 && (y % 100 ≠ 0 || y % 400 = 0)

def daysInMonth (y : Int) (m : Nat) : Nat :=
  match m with
  | 2 => if isLeapYear y then 29 else 28
  | 4 | 6 | 9 | 11 => 30
  | _ => 31

def isDate (year : Int) (month day : Nat) : Bool :=
  decide (-262143 ≤ year) && decide (year ≤ 262142) && decide (1 ≤ month) && decide (month ≤ 12) &&
    decide (1 ≤ day) && decide (day ≤ daysInMonth year month)

structure Date where
  year : Int
  month : Nat
  day : Nat
  isDate : isDate year month day = true
  deriving DecidableEq, Repr

def padded (width n : Nat) : List Char :=
  let ds := Decimal.digits n
  List.replicate (width - ds.length) '0' ++ ds

namespace Date

def ofParts? (year : Int) (month day : Nat) : Option Date :=
  if h : ResolvedSql.isDate year month day = true then some ⟨year, month, day, h⟩ else none

def next? (d : Date) : Option Date :=
  if d.day < daysInMonth d.year d.month then ofParts? d.year d.month (d.day + 1)
  else if d.month < 12 then ofParts? d.year (d.month + 1) 1
  else ofParts? (d.year + 1) 1 1

def previous? (d : Date) : Option Date :=
  if 1 < d.day then ofParts? d.year d.month (d.day - 1)
  else if 1 < d.month then ofParts? d.year (d.month - 1) (daysInMonth d.year (d.month - 1))
  else ofParts? (d.year - 1) 12 31

/-- Four digits or more; years before 0 and after 9999 carry a sign. -/
def yearChars (y : Int) : List Char :=
  if y < 0 then '-' :: padded 4 y.natAbs
  else if 9999 < y then '+' :: padded 4 y.natAbs
  else padded 4 y.natAbs

def chars (d : Date) : List Char :=
  yearChars d.year ++ '-' :: (padded 2 d.month ++ '-' :: padded 2 d.day)

def text (d : Date) : String := String.ofList d.chars

end Date

namespace Calendar

def readNumber (width : Nat) (cs : List Char) : Option (Nat × List Char) :=
  match (cs.take width).takeWhile Char.isDigit with
  | [] => none
  | ds => some (Text.natValue ds, cs.drop ds.length)

def readPair (cs : List Char) : Option (Nat × List Char) := readNumber 2 (Text.skipBlank cs)

/-- A year of one to four digits, or of any number of digits after a sign. -/
def readYear (cs : List Char) : Option (Int × List Char) :=
  match Text.skipBlank cs with
  | '-' :: r => (readNumber r.length r).map fun (n, rest) => (-(n : Int), rest)
  | '+' :: r => (readNumber r.length r).map fun (n, rest) => ((n : Int), rest)
  | r => (readNumber 4 r).map fun (n, rest) => ((n : Int), rest)

def readMark (c : Char) (cs : List Char) : Option (List Char) :=
  match Text.skipBlank cs with
  | d :: r => if d = c then some r else none
  | [] => none

def readDate (cs : List Char) : Option (Date × List Char) := do
  let (year, cs) ← readYear cs
  let (month, cs) ← readPair (← readMark '-' cs)
  let (day, cs) ← readPair (← readMark '-' cs)
  return (← Date.ofParts? year month day, cs)

end Calendar

def Date.ofText? (s : String) : Option Date := do
  let (d, rest) ← Calendar.readDate s.toList
  if (Text.skipBlank rest).isEmpty then some d else none

end ResolvedSql
