import ResolvedSql.Json.Basic
import ResolvedSql.Decimal.Layout
import ResolvedSql.Text.Characters
set_option autoImplicit false

namespace ResolvedSql

def intChars (n : Int) : List Char :=
  if n < 0 then '-' :: Decimal.digits n.natAbs else Decimal.digits n.natAbs

/-- Leading digits of power -5 to 15 are written positionally, and a tie goes to the even digit. -/
def Number.layout : Decimal.Layout := ⟨.toEven, some (-5, 15)⟩

def Number.chars : Number → List Char
  | .integer n => intChars n
  | .real d =>
    match Binary64.ofBits d.toBits with
    | .finite negative m e => Number.layout.write negative m e
    | _ => "null".toList

namespace Json

def escape (c : Char) : List Char :=
  if c = '"' then ['\\', '"']
  else if c = '\\' then ['\\', '\\']
  else if c = '\x08' then ['\\', 'b']
  else if c = '\x0c' then ['\\', 'f']
  else if c = '\n' then ['\\', 'n']
  else if c = '\r' then ['\\', 'r']
  else if c = '\t' then ['\\', 't']
  else if c.toNat < 0x20 then
    ['\\', 'u', '0', '0', Text.hexDigit (c.toNat / 16), Text.hexDigit (c.toNat % 16)]
  else [c]

def stringChars (s : String) : List Char := '"' :: (s.toList.flatMap escape ++ ['"'])

mutual
def chars : Json → List Char
  | .null => "null".toList
  | .bool true => "true".toList
  | .bool false => "false".toList
  | .number n => n.chars
  | .string s => stringChars s
  | .array items => '[' :: (itemChars items ++ [']'])
  | .object members => '\x7b' :: (memberChars members ++ ['\x7d'])
  | .unreadable => "null".toList
def itemChars : List Json → List Char
  | [] => []
  | [j] => j.chars
  | j :: k :: r => j.chars ++ ',' :: itemChars (k :: r)
def memberChars : Members → List Char
  | [] => []
  | [(k, j)] => stringChars k ++ ':' :: j.chars
  | (k, j) :: m :: r => stringChars k ++ ':' :: (j.chars ++ ',' :: memberChars (m :: r))
end

def text (j : Json) : String := String.ofList j.chars

end Json
end ResolvedSql
