import ResolvedSql.Json.Decoder
import ResolvedSql.Text.Quoted
set_option autoImplicit false

namespace ResolvedSql

inductive ScalarType where
  | int32 | int64 | uint32 | uint64 | bool | float | double | string | bytes | date | timestamp
  | time | datetime | interval | geography | numeric | bigNumeric | json | enum | proto
  deriving DecidableEq, Repr

namespace ScalarType

def all : List ScalarType :=
  [.int32, .int64, .uint32, .uint64, .bool, .float, .double, .string, .bytes, .date, .timestamp,
    .time, .datetime, .interval, .geography, .numeric, .bigNumeric, .json, .enum, .proto]

def family : ScalarType → String
  | .int32 => "int32"
  | .int64 => "int64"
  | .uint32 => "uint32"
  | .uint64 => "uint64"
  | .bool => "bool"
  | .float => "float"
  | .double => "double"
  | .string => "string"
  | .bytes => "bytes"
  | .date => "date"
  | .timestamp => "timestamp"
  | .time => "time"
  | .datetime => "datetime"
  | .interval => "interval"
  | .geography => "geography"
  | .numeric => "numeric"
  | .bigNumeric => "bignumeric"
  | .json => "json"
  | .enum => "enum"
  | .proto => "proto"

def tag : ScalarType → String
  | .bigNumeric => "big_numeric"
  | t => t.family

def ofTag? (s : String) : Option ScalarType := all.find? fun t => t.tag = s

theorem ofTag?_tag (t : ScalarType) : ofTag? t.tag = some t := by cases t <;> decide

end ScalarType

mutual
inductive SqlType where
  | scalar (type : ScalarType)
  | array (element : SqlType)
  | struct (fields : List StructField)
structure StructField where
  name : String
  type : SqlType
end

namespace SqlType

/-- All arrays are one family, and all structs, so a function has one entry point for each. -/
def family : SqlType → String
  | .scalar t => t.family
  | .array _ => "array"
  | .struct _ => "struct"

mutual
def display : SqlType → String
  | .scalar t => Text.asciiUpper t.family
  | .array element => "ARRAY<" ++ element.display ++ ">"
  | .struct fields => "STRUCT<" ++ Text.separated ", " (displayFields fields) ++ ">"
def displayFields : List StructField → List String
  | [] => []
  | ⟨name, type⟩ :: r =>
    (if name = "" then type.display else name ++ " " ++ type.display) :: displayFields r
end

mutual
def toJson : SqlType → Json
  | .scalar t => .tagOnly "type" t.tag
  | .array element => .tagged "type" "array" "of" element.toJson
  | .struct fields => .tagged "type" "struct" "of" (.array (fieldsToJson fields))
def fieldsToJson : List StructField → List Json
  | [] => []
  | ⟨name, type⟩ :: r => .object [("name", .string name), ("type", type.toJson)] :: fieldsToJson r
end

def tags : List String := ScalarType.all.map ScalarType.tag ++ ["array", "struct"]

def decodeField (type : Decoder SqlType) : Decoder StructField := fun p j => do
  let f ← Fields.ofRecord? ["name", "type"] p j
  return ⟨← f.optional "name" "" Decoder.string, ← f.required "type" type⟩

def decodeWithin : Nat → Decoder SqlType
  | 0, _, _ => none
  | depth + 1, p, j => do
    let t ← Tagged.ofJson? "type" "of" tags p j
    match t.tag with
    | "array" => (t.content? (decodeWithin depth)).map .array
    | "struct" => (t.content? (Decoder.list (decodeField (decodeWithin depth)))).map .struct
    | tag => (ScalarType.ofTag? tag).bind fun s => t.empty (.scalar s)

/-- A nested type lies inside a further bracket, so the bracket limit bounds the nesting. -/
def decode : Decoder SqlType := decodeWithin (Place.depthLimit + 1)

end SqlType
end ResolvedSql
