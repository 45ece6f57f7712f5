import ResolvedSql.Text.Characters
import ResolvedSql.Text.Quoted
set_option autoImplicit false

namespace ResolvedSql.Toml

def longestRunFrom (c : Char) (run : Nat) : List Char → Nat
  | [] => run
  | d :: r => if d = c then longestRunFrom c (run + 1) r else Nat.max run (longestRunFrom c 0 r)

def longestRun (c : Char) (cs : List Char) : Nat := longestRunFrom c 0 cs

def needsCode (c : Char) : Bool :=
  c != '\t' && c != '\n' && (decide (c.toNat < 0x20) || c.toNat == 0x7F)

def numberEscape (c : Char) : List Char :=
  ['\\', 'u', '0', '0', Text.upperHexDigit (c.toNat / 16), Text.upperHexDigit (c.toNat % 16)]

def escapeBasic (multiline : Bool) (c : Char) : List Char :=
  if c = '\x08' then ['\\', 'b']
  else if c = '\t' then ['\\', 't']
  else if c = '\n' then if multiline then ['\n'] else ['\\', 'n']
  else if c = '\x0c' then ['\\', 'f']
  else if c = '\r' then ['\\', 'r']
  else if c = '\\' then ['\\', '\\']
  else if c.toNat < 0x20 ∨ c.toNat = 0x7F then numberEscape c
  else [c]

/-- The characters of a basic string, of which at most `quotes` quotes stand together unescaped;
`seen` of them were just written. -/
def basicChars (multiline : Bool) (quotes : Nat) : Nat → List Char → List Char
  | _, [] => []
  | seen, c :: r =>
    if c = '"' then
      if seen < quotes then '"' :: basicChars multiline quotes (seen + 1) r
      else '\\' :: '"' :: basicChars multiline quotes 0 r
    else escapeBasic multiline c ++ basicChars multiline quotes 0 r

inductive StringForm where
  | basic
  | literal
  | multilineBasic
  | multilineLiteral
  deriving DecidableEq, Repr

/-- The first form that needs no escapes; else a basic string, over several lines if it has any. -/
def StringForm.of (cs : List Char) : StringForm :=
  let coded := cs.any needsCode
  let escaped := cs.contains '\\'
  let lines := cs.contains '\n'
  if !coded && !escaped && longestRun '"' cs == 0 && !lines then .basic
  else if !coded && longestRun '\'' cs == 0 && !lines then .literal
  else if !coded && !escaped && longestRun '"' cs ≤ 2 then .multilineBasic
  else if !coded && longestRun '\'' cs ≤ 2 then .multilineLiteral
  else if lines then .multilineBasic
  else .basic

def stringText (s : String) : String :=
  let cs := s.toList
  let first := if cs.contains '\n' then ['\n'] else []
  let body := match StringForm.of cs with
    | .basic => ['"'] ++ basicChars false 0 0 cs ++ ['"']
    | .literal => ['\''] ++ cs ++ ['\'']
    | .multilineBasic => ['"', '"', '"'] ++ first ++ basicChars true 2 0 cs ++ ['"', '"', '"']
    | .multilineLiteral => ['\'', '\'', '\''] ++ first ++ cs ++ ['\'', '\'', '\'']
  String.ofList body

end ResolvedSql.Toml
