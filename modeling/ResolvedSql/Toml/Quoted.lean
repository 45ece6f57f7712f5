import ResolvedSql.Text.Characters
set_option autoImplicit false

namespace ResolvedSql.Toml

def isBlank (c : Char) : Bool := c = ' ' || c = '\t'

def isText (c : Char) : Bool := c = '\t' || (decide (0x20 ≤ c.toNat) && c.toNat != 0x7F)

def isBasic (c : Char) : Bool := isText c && c != '"' && c != '\\'

def isLiteral (c : Char) : Bool := isText c && c != '\''

def newline? : List Char → Option (List Char)
  | '\n' :: r => some r
  | '\r' :: '\n' :: r => some r
  | _ => none

def numberEscape? (width : Nat) (cs : List Char) : Option (Char × List Char) := do
  let digits := cs.take width
  let n ← Text.hexNat? digits
  if digits.length = width ∧ n.isValidChar then some (Char.ofNat n, cs.drop width) else none

def escape? : List Char → Option (Char × List Char)
  | 'b' :: r => some ('\x08', r)
  | 't' :: r => some ('\t', r)
  | 'n' :: r => some ('\n', r)
  | 'f' :: r => some ('\x0c', r)
  | 'r' :: r => some ('\r', r)
  | '"' :: r => some ('"', r)
  | '\\' :: r => some ('\\', r)
  | 'u' :: r => numberEscape? 4 r
  | 'U' :: r => numberEscape? 8 r
  | _ => none

/-- Each step reads a character, so the length of the text is fuel enough; so below. -/
def basicFuel : Nat → List Char → Option (List Char × List Char)
  | 0, _ => none
  | _ + 1, '"' :: r => some ([], r)
  | fuel + 1, '\\' :: r => do
    let (c, r) ← escape? r
    let (s, rest) ← basicFuel fuel r
    return (c :: s, rest)
  | fuel + 1, c :: r =>
    if isBasic c then (basicFuel fuel r).map fun (s, rest) => (c :: s, rest) else none
  | _ + 1, [] => none

def basic? (cs : List Char) : Option (String × List Char) :=
  (basicFuel cs.length cs).map fun (s, rest) => (String.ofList s, rest)

def literal? (cs : List Char) : Option (String × List Char) :=
  match cs.dropWhile isLiteral with
  | '\'' :: r => some (String.ofList (cs.takeWhile isLiteral), r)
  | _ => none

def skipLineEnds : Nat → List Char → List Char
  | 0, cs => cs
  | fuel + 1, cs =>
    match newline? cs with
    | some r => skipLineEnds fuel r
    | none =>
      match cs with
      | c :: r => if isBlank c then skipLineEnds fuel r else cs
      | [] => []

def continued? (cs : List Char) : Option (List Char) :=
  (newline? (cs.dropWhile isBlank)).map fun r => skipLineEnds r.length r

/-- What three quotes close, with up to two more quotes before them. -/
def closing? (q : Char) (cs : List Char) : Option (List Char × List Char) :=
  let run := (cs.takeWhile (· == q)).length
  if run < 3 then none
  else if run ≤ 5 then some (List.replicate (run - 3) q, cs.drop run)
  else some ([q, q], cs.drop 5)

def multilineFuel (q : Char) : Nat → List Char → Option (List Char × List Char)
  | 0, _ => none
  | fuel + 1, cs =>
    match closing? q cs with
    | some found => some found
    | none =>
      match newline? cs with
      | some r => (multilineFuel q fuel r).map fun (s, rest) => ('\n' :: s, rest)
      | none =>
        match cs with
        | [] => none
        | c :: r =>
          if c = '\\' ∧ q = '"' then
            match continued? r with
            | some r => multilineFuel q fuel r
            | none => do
              let (e, r) ← escape? r
              let (s, rest) ← multilineFuel q fuel r
              return (e :: s, rest)
          else if isText c then (multilineFuel q fuel r).map fun (s, rest) => (c :: s, rest)
          else none

/-- A line end right after the opening quotes is not part of the string. -/
def multiline? (q : Char) (cs : List Char) : Option (String × List Char) :=
  let body := (newline? cs).getD cs
  (multilineFuel q (body.length + 1) body).map fun (s, rest) => (String.ofList s, rest)

def string? : List Char → Option (String × List Char)
  | '"' :: '"' :: '"' :: r => multiline? '"' r
  | '"' :: r => basic? r
  | '\'' :: '\'' :: '\'' :: r => multiline? '\'' r
  | '\'' :: r => literal? r
  | _ => none

end ResolvedSql.Toml
