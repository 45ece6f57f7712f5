import ResolvedSql.Error
import ResolvedSql.Json.Printer
import ResolvedSql.SqlType
import ResolvedSql.Value
set_option autoImplicit false

namespace ResolvedSql

abbrev Encoder := Value → SqlType → Except Error String

namespace Literal

def quote (s : String) : String := Text.quoted '\'' s

/-- Doubles are written without exponent, with a point so that they stay floating, and a tie
between two shortest texts goes up. -/
def doubleLayout : Decimal.Layout := ⟨.up, none⟩

def double (d : Float) : String :=
  match Binary64.ofBits d.toBits with
  | .nan => quote "NaN"
  | .infinite false => quote "Infinity"
  | .infinite true => quote "-Infinity"
  | .finite negative m e => String.ofList (doubleLayout.write negative m e)

def bytes (bs : List UInt8) : String :=
  let digits (b : UInt8) := [Text.upperHexDigit (b.toNat / 16), Text.upperHexDigit (b.toNat % 16)]
  "X" ++ quote (String.ofList (bs.flatMap digits))

def afterSign : List Char → List Char
  | '+' :: r => r
  | '-' :: r => r
  | cs => cs

def isExponent : List Char → Bool
  | [] => true
  | c :: r =>
    let digits := afterSign r
    (c = 'e' || c = 'E') && !digits.isEmpty && digits.all Char.isDigit

def isFraction (whole : Nat) : List Char → Bool
  | '.' :: r =>
    let digits := r.takeWhile Char.isDigit
    decide (0 < whole + digits.length) && isExponent (r.dropWhile Char.isDigit)
  | cs => decide (0 < whole) && isExponent cs

/-- Numerals of any size and precision, and the names of the values that are no numbers. -/
def isNumeric (cs : List Char) : Bool :=
  let unsigned := afterSign cs
  [ "inf", "infinity", "nan"].contains (String.ofList (unsigned.map Char.toLower)) ||
    isFraction (unsigned.takeWhile Char.isDigit).length (unsigned.dropWhile Char.isDigit)

/-- The literal of a value. The declared type matters only for what an error says. -/
def encode : Encoder
  | .null, _ => .ok "NULL"
  | .bool b, _ => .ok (if b then "TRUE" else "FALSE")
  | .int n, _ => .ok (String.ofList (intChars n.toInt))
  | .double d, _ => .ok (double d)
  | .numeric s, type =>
    if isNumeric s.toList then .ok (quote s)
    else .error (.encode ("invalid " ++ type.display ++ " literal '" ++ s ++ "'"))
  | .string s, _ => .ok (quote s)
  | .bytes bs, _ => .ok (bytes bs)
  | .date d, _ => .ok (quote d.text)
  | .timestamp t, _ => .ok (quote t.text)
  | .json d, _ => .ok (quote d.json.text)
  | .array items, _ => .ok (quote (Value.nested (.array items)).text)
  | .struct fields, _ => .ok (quote (Value.nested (.struct fields)).text)

end Literal
end ResolvedSql
