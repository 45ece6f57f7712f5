import ResolvedSql.Json.Numeral
import ResolvedSql.Text.Characters
/-!
Reading JSON text. The reader checks the grammar and keeps what it finds; a part that has no value
becomes `unreadable` and is refused only by those who look at it. Nesting is not limited here.
-/
set_option autoImplicit false

namespace ResolvedSql.Json

def isSpace (c : Char) : Bool := c = ' ' || c = '\t' || c = '\n' || c = '\r'

def skipSpace (cs : List Char) : List Char := cs.dropWhile isSpace

/-- What a string is written with: characters, and the 16 bit units of its numeric escapes. -/
inductive Piece where
  | plain (c : Char)
  | unit (n : Nat)
  deriving DecidableEq, Repr

def plainEscape? : Char → Option Char
  | '"' => some '"'
  | '\\' => some '\\'
  | '/' => some '/'
  | 'b' => some '\x08'
  | 'f' => some '\x0c'
  | 'n' => some '\n'
  | 'r' => some '\r'
  | 't' => some '\t'
  | _ => none

def readPieces : List Char → Option (List Piece × List Char)
  | [] => none
  | '"' :: r => some ([], r)
  | '\\' :: 'u' :: a :: b :: c :: d :: r => do
    let n ← Text.hexNat? [a, b, c, d]
    let (ps, rest) ← readPieces r
    return (.unit n :: ps, rest)
  | '\\' :: e :: r => do
    let c ← plainEscape? e
    let (ps, rest) ← readPieces r
    return (.plain c :: ps, rest)
  | c :: r =>
    if c.toNat < 0x20 ∨ c = '\\' then none
    else do
      let (ps, rest) ← readPieces r
      return (.plain c :: ps, rest)

def isHigh (n : Nat) : Bool := 0xD800 ≤ n && n < 0xDC00

def isLow (n : Nat) : Bool := 0xDC00 ≤ n && n < 0xE000

/-- Joins surrogate pairs; none if one half stands alone. -/
def joinPieces : List Piece → Option (List Char)
  | [] => some []
  | .plain c :: r => (joinPieces r).map (c :: ·)
  | .unit h :: .unit l :: r =>
    if isHigh h && isLow l then
      (joinPieces r).map (Char.ofNat (0x10000 + (h - 0xD800) * 0x400 + (l - 0xDC00)) :: ·)
    else if isHigh h || isLow h then none
    else (joinPieces (.unit l :: r)).map (Char.ofNat h :: ·)
  | .unit n :: r => if isHigh n || isLow n then none else (joinPieces r).map (Char.ofNat n :: ·)

def readString (cs : List Char) : Option (Option String × List Char) := do
  let (ps, rest) ← readPieces cs
  return ((joinPieces ps).map String.ofList, rest)

def objectOf (members : List (Option String × Json)) : Json :=
  match members.mapM fun (k, j) => k.map (·, j) with
  | some ms => .object ms
  | none => .unreadable

mutual
def readValue : Nat → List Char → Option (Json × List Char)
  | 0, _ => none
  | fuel + 1, cs =>
    match cs with
    | 'n' :: 'u' :: 'l' :: 'l' :: r => some (.null, r)
    | 't' :: 'r' :: 'u' :: 'e' :: r => some (.bool true, r)
    | 'f' :: 'a' :: 'l' :: 's' :: 'e' :: r => some (.bool false, r)
    | '"' :: r => do
      let (s, rest) ← readString r
      return (match s with | some s => .string s | none => .unreadable, rest)
    | '[' :: r =>
      match skipSpace r with
      | ']' :: r => some (.array [], r)
      | r => (readItems fuel r).map fun (js, rest) => (.array js, rest)
    | '\x7b' :: r =>
      match skipSpace r with
      | '\x7d' :: r => some (.object [], r)
      | r => (readMembers fuel r).map fun (ms, rest) => (objectOf ms, rest)
    | cs => do
      let (n, rest) ← Numeral.read? cs
      return (match n.number? with | some n => .number n | none => .unreadable, rest)
def readItems : Nat → List Char → Option (List Json × List Char)
  | 0, _ => none
  | fuel + 1, cs => do
    let (j, rest) ← readValue fuel cs
    match skipSpace rest with
    | ',' :: r => (readItems fuel (skipSpace r)).map fun (js, rest) => (j :: js, rest)
    | ']' :: r => return ([j], r)
    | _ => none
def readMembers : Nat → List Char → Option (List (Option String × Json) × List Char)
  | 0, _ => none
  | fuel + 1, cs =>
    match cs with
    | '"' :: r => do
      let (k, rest) ← readString r
      match skipSpace rest with
      | ':' :: r => do
        let (j, rest) ← readValue fuel (skipSpace r)
        match skipSpace rest with
        | ',' :: r => (readMembers fuel (skipSpace r)).map fun (ms, rest) => ((k, j) :: ms, rest)
        | '\x7d' :: r => return ([(k, j)], r)
        | _ => none
      | _ => none
    | _ => none
end

/-- The tree of a text that holds one value and blanks around it. Every step but the first reads a
character or follows one that did, so twice the length of the text is fuel enough. -/
def ofText? (s : String) : Option Json := do
  let cs := s.toList
  let (j, rest) ← readValue (2 * cs.length + 2) (skipSpace cs)
  if (skipSpace rest).isEmpty then some j else none

end ResolvedSql.Json
