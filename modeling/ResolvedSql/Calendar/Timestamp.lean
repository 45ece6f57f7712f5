import ResolvedSql.Calendar.Date
/-!
Instants in universal time, to the nanosecond. A leap second is the second after the last of its
minute: its nanoseconds run from 10^9 on.
-/
set_option autoImplicit false

namespace ResolvedSql

structure Timestamp where
  date : Date
  second : Nat
  nanosecond : Nat
  second_lt : second < 86400
  nanosecond_lt : nanosecond < 2000000000
  deriving DecidableEq, Repr

namespace Timestamp

def ofParts? (date : Date) (second nanosecond : Nat) : Option Timestamp :=
  if h : second < 86400 ∧ nanosecond < 2000000000 then some ⟨date, second, nanosecond, h.1, h.2⟩
  else none

/-- The instant that clocks `offset` seconds ahead of universal time show as `second` on `date`. -/
def ofLocal? (date : Date) (second nanosecond : Nat) (offset : Int) : Option Timestamp :=
  let shifted : Int := second - offset
  if shifted < 0 then date.previous?.bind fun d => ofParts? d (shifted + 86400).toNat nanosecond
  else if 86400 ≤ shifted then
    date.next?.bind fun d => ofParts? d (shifted - 86400).toNat nanosecond
  else ofParts? date shifted.toNat nanosecond

/-- No digits, or three, six or nine after a point: the fewest that are exact. -/
def fractionChars (n : Nat) : List Char :=
  if n = 0 then []
  else if n % 1000000 = 0 then '.' :: padded 3 (n / 1000000)
  else if n % 1000 = 0 then '.' :: padded 6 (n / 1000)
  else '.' :: padded 9 n

def chars (t : Timestamp) : List Char :=
  let leap := t.nanosecond / 1000000000
  t.date.chars ++ 'T' :: (padded 2 (t.second / 3600) ++ ':' :: (padded 2 (t.second / 60 % 60) ++
    ':' :: (padded 2 (t.second % 60 + leap) ++ fractionChars (t.nanosecond % 1000000000))))

def text (t : Timestamp) : String := String.ofList (t.chars ++ "+00:00".toList)

def zuluText (t : Timestamp) : String := String.ofList (t.chars ++ ['Z'])

end Timestamp

namespace Calendar

/-- Digits after a point, as nanoseconds; those after the ninth are dropped. -/
def readFraction : List Char → Option (Nat × List Char)
  | '.' :: r =>
    match r.takeWhile Char.isDigit with
    | [] => none
    | ds =>
      let kept := ds.take 9
      some (Text.natValue kept * tenTo (9 - kept.length), r.dropWhile Char.isDigit)
  | r => some (0, r)

def readTime (cs : List Char) : Option (Nat × Nat × List Char) := do
  let (hour, cs) ← readPair cs
  let (minute, cs) ← readPair (← readMark ':' cs)
  let (second, cs) ← readPair (← readMark ':' cs)
  let (nanosecond, cs) ← readFraction cs
  if hour < 24 ∧ minute < 60 ∧ second ≤ 60 then
    let start := hour * 3600 + minute * 60
    if second = 60 then return (start + 59, nanosecond + 1000000000, cs)
    else return (start + second, nanosecond, cs)
  else none

def readTwoDigits : List Char → Option (Nat × List Char)
  | a :: b :: r => if a.isDigit && b.isDigit then some (Text.natValue [a, b], r) else none
  | _ => none

def readOffset (cs : List Char) : Option (Int × List Char) := do
  let (ahead, cs) ← match cs with
    | '+' :: r => some (true, r)
    | '-' :: r | '−' :: r => some (false, r)
    | _ => none
  let (hours, cs) ← readTwoDigits cs
  let (minutes, cs) ← readTwoDigits (cs.dropWhile fun c => c = ':' || Text.isBlank c)
  let seconds : Int := hours * 3600 + minutes * 60
  if minutes < 60 ∧ seconds < 86400 then return (if ahead then seconds else -seconds, cs) else none

def isUniversal (cs : List Char) : Bool := (cs.take 3).map Char.toUpper = ['U', 'T', 'C']

def readZone (cs : List Char) : Option (Int × List Char) :=
  if isUniversal cs then some (0, cs.drop 3)
  else match cs with
    | 'Z' :: r | 'z' :: r => some (0, r)
    | _ => readOffset cs

end Calendar

def Timestamp.ofText? (s : String) : Option Timestamp := do
  let (date, cs) ← Calendar.readDate s.toList
  let cs ← match cs with
    | 'T' :: r | 't' :: r | ' ' :: r => some r
    | _ => none
  let (second, nanosecond, cs) ← Calendar.readTime cs
  let (offset, cs) ← Calendar.readZone (Text.skipBlank cs)
  if (Text.skipBlank cs).isEmpty then Timestamp.ofLocal? date second nanosecond offset else none

end ResolvedSql
