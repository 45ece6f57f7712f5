import ResolvedSql.Toml.Quoted
import ResolvedSql.Toml.Scalar
import ResolvedSql.Toml.Table
set_option autoImplicit false

namespace ResolvedSql.Toml

def skipBlanks (cs : List Char) : List Char := cs.dropWhile isBlank

def isBareKey (c : Char) : Bool := c.isAlphanum || c = '_' || c = '-'

def simpleKey? : List Char → Option (String × List Char)
  | '"' :: r => basic? r
  | '\'' :: r => literal? r
  | cs =>
    match cs.takeWhile isBareKey with
    | [] => none
    | key => some (String.ofList key, cs.dropWhile isBareKey)

/-- How many parts a key may have, and how deep values may be nested, plus one. -/
def nestingLimit : Nat := 80

def keyWithin : Nat → List Char → Option (List String × String × List Char)
  | 0, _ => none
  | parts + 1, cs => do
    let (part, r) ← simpleKey? (skipBlanks cs)
    match skipBlanks r with
    | '.' :: r => do
      let (path, key, rest) ← keyWithin parts r
      return (part :: path, key, rest)
    | rest => return ([], part, rest)

def key? (cs : List Char) : Option (List String × String × List Char) :=
  keyWithin (nestingLimit - 1) cs

def skipComment : List Char → List Char
  | '#' :: r => r.dropWhile isText
  | cs => cs

def lineEnd? (cs : List Char) : Option (List Char) :=
  match skipComment (skipBlanks cs) with
  | [] => some []
  | cs => newline? cs

def skipLines : Nat → List Char → Option (List Char)
  | 0, cs => some cs
  | fuel + 1, cs =>
    match skipBlanks cs with
    | '#' :: r => do skipLines fuel (← newline? (skipComment ('#' :: r)))
    | '\n' :: r => skipLines fuel r
    | '\r' :: r => do skipLines fuel (← newline? ('\r' :: r))
    | cs => some cs

section Compound

variable (value : List Char → Option (Item × List Char))

/-- The values of an array, up to its closing bracket. A comma may follow the last. -/
def arrayFuel : Nat → List Char → Option (List Char)
  | 0, _ => none
  | fuel + 1, cs => do
    match ← skipLines cs.length cs with
    | ']' :: r => some r
    | cs => do
      let (_, r) ← value cs
      match ← skipLines r.length r with
      | ',' :: r => arrayFuel fuel r
      | ']' :: r => some r
      | _ => none

def pair? (cs : List Char) : Option ((List String × String × Item) × List Char) := do
  let (path, key, r) ← key? cs
  match r with
  | '=' :: r => do
    let (item, r) ← value (skipBlanks r)
    return ((path, key, item), skipBlanks r)
  | _ => none

def inlineFuel : Nat → Table → List Char → Option (List Char)
  | 0, _, _ => none
  | fuel + 1, t, cs => do
    let ((path, key, item), r) ← pair? value cs
    let t ← t.assign path key item
    match r with
    | ',' :: r => inlineFuel fuel t r
    | '\x7d' :: r => some r
    | _ => none

end Compound

def valueWithin : Nat → List Char → Option (Item × List Char)
  | 0, _ => none
  | depth + 1, cs =>
    match cs with
    | '"' :: _ | '\'' :: _ => (string? cs).map fun (s, rest) => (.text s, rest)
    | '[' :: r =>
      if depth = 0 then none
      else (arrayFuel (valueWithin depth) (r.length + 1) r).map (.value, ·)
    | '\x7b' :: r =>
      if depth = 0 then none
      else
        match skipBlanks r with
        | '\x7d' :: r => some (.value, r)
        | r => (inlineFuel (valueWithin depth) (r.length + 1) .explicit r).map (.value, ·)
    | cs => (scalar? cs).map (.value, ·)

def value? : List Char → Option (Item × List Char) := valueWithin nestingLimit

/-- Reads line after line; `header` is the path of the table that entries go to. -/
def linesFuel : Nat → List String → Table → List Char → Option Table
  | 0, _, _, _ => none
  | fuel + 1, header, root, cs =>
    match skipBlanks cs with
    | [] => some root
    | '[' :: '[' :: r => do
      let (path, key, r) ← key? r
      let r ← char? ']' (← char? ']' r)
      linesFuel fuel (path ++ [key]) (← root.openNext path key) (← lineEnd? r)
    | '[' :: r => do
      let (path, key, r) ← key? r
      let r ← char? ']' r
      linesFuel fuel (path ++ [key]) (← root.openTable path key) (← lineEnd? r)
    | c :: r =>
      if c = '#' ∨ c = '\n' ∨ c = '\r' then do
        linesFuel fuel header root (← lineEnd? (c :: r))
      else do
        let ((path, key, item), r) ← pair? value? (c :: r)
        let root ← root.modifyAt false (·.assign path key item) header
        linesFuel fuel header root (← lineEnd? r)

def ofText? (s : String) : Option Table :=
  let cs := match s.toList with
    | '\uFEFF' :: r => r
    | cs => cs
  linesFuel (cs.length + 1) [] .explicit cs

end ResolvedSql.Toml
