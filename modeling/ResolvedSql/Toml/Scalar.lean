import ResolvedSql.Calendar.Date
import ResolvedSql.Decimal.Shortest
import ResolvedSql.Text.Characters
set_option autoImplicit false

namespace ResolvedSql.Toml

open Text

def digitRun? (isDigit : Char → Bool) (cs : List Char) : Option (List Char × List Char) :=
  let run := cs.takeWhile fun c => isDigit c || c == '_'
  let groups := run.splitOn '_'
  if groups.all fun g => !g.isEmpty then
    some (groups.flatten, cs.dropWhile fun c => isDigit c || c == '_')
  else none

def sign? : List Char → Bool × List Char
  | '+' :: r => (false, r)
  | '-' :: r => (true, r)
  | cs => (false, cs)

def decimal? (cs : List Char) : Option (Bool × List Char × List Char) := do
  let (negative, cs) := sign? cs
  match cs with
  | '0' :: r => return (negative, ['0'], r)
  | cs => do
    let (ds, rest) ← digitRun? Char.isDigit cs
    return (negative, ds, rest)

def fits64 (negative : Bool) (n : Nat) : Bool :=
  if negative then decide (n ≤ twoTo 63) else decide (n < twoTo 63)

def isHex (c : Char) : Bool := (Text.hexValue? c).isSome

def isOctal (c : Char) : Bool := decide (48 ≤ c.toNat) && decide (c.toNat ≤ 55)

def isBinary (c : Char) : Bool := c = '0' || c = '1'

def based? (base : Nat) (isDigit : Char → Bool) (cs : List Char) : Option (List Char) := do
  let (ds, rest) ← digitRun? isDigit cs
  let n := ds.foldl (fun n c => base * n + (Text.hexValue? c).getD 0) 0
  if fits64 false n then some rest else none

def integer? : List Char → Option (List Char)
  | '0' :: 'x' :: r => based? 16 isHex r
  | '0' :: 'o' :: r => based? 8 isOctal r
  | '0' :: 'b' :: r => based? 2 isBinary r
  | cs => do
    let (negative, ds, rest) ← decimal? cs
    if fits64 negative (natValue ds) then some rest else none

def exponent? : List Char → Option (Int × List Char)
  | c :: r =>
    if c = 'e' ∨ c = 'E' then do
      let (negative, r) := sign? r
      let (ds, rest) ← digitRun? Char.isDigit r
      return (if negative then -natValue ds else natValue ds, rest)
    else some (0, c :: r)
  | [] => some (0, [])

/-- Whether `n * 10 ^ e` is nearer to the power of two past every double than to a double. -/
def overflows (n : Nat) (e : Int) : Bool :=
  let size : Int := (Nat.toDigits 10 n).length + e
  if n = 0 || size < 300 then false
  else if 400 < size then true
  else
    let bound := twoTo 1024 - twoTo 970
    if 0 ≤ e then decide (bound ≤ n * tenTo e.toNat) else decide (bound * tenTo (-e).toNat ≤ n)

/-- A decimal with a fraction, an exponent or both. Above every double it is refused. -/
def float? (cs : List Char) : Option (List Char) := do
  let (negative, whole, r) ← decimal? cs
  let (fraction, r) ← match r with
    | '.' :: r => do
      let (ds, r) ← digitRun? Char.isDigit r
      some (ds, r)
    | r => some ([], r)
  let (e, rest) ← exponent? r
  if fraction.isEmpty ∧ rest.length = r.length then none
  else if !negative && overflows (natValue (whole ++ fraction)) (e - fraction.length) then none
  else some rest

def field? (width lo hi : Nat) (cs : List Char) : Option (Nat × List Char) :=
  let ds := cs.take width
  let n := natValue ds
  if ds.length = width ∧ ds.all Char.isDigit ∧ lo ≤ n ∧ n ≤ hi then some (n, cs.drop width)
  else none

def char? (c : Char) : List Char → Option (List Char)
  | d :: r => if c = d then some r else none
  | [] => none

def date? (cs : List Char) : Option (List Char) := do
  let (year, cs) ← field? 4 0 9999 cs
  let (month, cs) ← field? 2 1 12 (← char? '-' cs)
  let (_, cs) ← field? 2 1 (daysInMonth year month) (← char? '-' cs)
  return cs

def time? (cs : List Char) : Option (List Char) := do
  let (_, cs) ← field? 2 0 23 cs
  let (_, cs) ← field? 2 0 59 (← char? ':' cs)
  let (_, cs) ← field? 2 0 60 (← char? ':' cs)
  match cs with
  | '.' :: d :: r => return if d.isDigit then r.dropWhile Char.isDigit else cs
  | cs => return cs

def offset? : List Char → Option (List Char)
  | 'Z' :: r | 'z' :: r => some r
  | '+' :: r | '-' :: r => do
    let (_, r) ← field? 2 0 23 r
    let (_, r) ← field? 2 0 59 (← char? ':' r)
    return r
  | cs => some cs

def dateTime? (cs : List Char) : Option (List Char) :=
  match date? cs with
  | none => time? cs
  | some rest =>
    match rest with
    | c :: r =>
      if c = 'T' ∨ c = 't' ∨ c = ' ' then
        match time? r with
        | some r => offset? r
        | none => some rest
      else some rest
    | [] => some rest

def word? (w : String) (cs : List Char) : Option (List Char) :=
  if w.toList.isPrefixOf cs then some (cs.drop w.length) else none

def scalar? (cs : List Char) : Option (List Char) :=
  let unsigned := (sign? cs).2
  dateTime? cs <|> float? cs <|> word? "inf" unsigned <|> word? "nan" unsigned <|> integer? cs <|>
    word? "true" cs <|> word? "false" cs

end ResolvedSql.Toml
