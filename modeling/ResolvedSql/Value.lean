import ResolvedSql.Calendar.Timestamp
import ResolvedSql.Json.Decoder
set_option autoImplicit false

namespace ResolvedSql

mutual
/-- Numbers of arbitrary precision are kept as the text they came with. -/
inductive Value where
  | null
  | bool (b : Bool)
  | int (n : Int64)
  | double (d : Float)
  | numeric (text : String)
  | string (s : String)
  | bytes (bs : List UInt8)
  | date (d : Date)
  | timestamp (t : Timestamp)
  | json (d : Document)
  | array (items : List Value)
  | struct (fields : List ValueField)
structure ValueField where
  name : String
  value : Value
end

namespace Value

def specialText : Binary64 → String
  | .nan => "NaN"
  | .infinite false => "inf"
  | .infinite true => "-inf"
  | .finite _ _ _ => ""

mutual
/-- A value inside an array or struct. Structs are positional, so that a field is found by its
index; their field names are not written. -/
def nested : Value → Json
  | .null => .null
  | .bool b => .bool b
  | .int n => .int n.toInt
  | .double d =>
    match Binary64.ofBits d.toBits with
    | .finite _ _ _ => .number (.real d)
    | special => .string (specialText special)
  | .numeric s => .string s
  | .string s => .string s
  | .bytes bs => .list (fun b => .int b.toNat) bs
  | .date d => .string d.text
  | .timestamp t => .string t.text
  | .json d => d.json
  | .array items => .array (nestedItems items)
  | .struct fields => .array (nestedFields fields)
def nestedItems : List Value → List Json
  | [] => []
  | v :: r => v.nested :: nestedItems r
def nestedFields : List ValueField → List Json
  | [] => []
  | ⟨_, v⟩ :: r => v.nested :: nestedFields r
end

def tagged (tag : String) (content : Json) : Json := .tagged "type" tag "value" content

mutual
def toJson : Value → Json
  | .null => .tagOnly "type" "null"
  | .bool b => tagged "bool" (.bool b)
  | .int n => tagged "int" (.int n.toInt)
  | .double d => tagged "double" (.number (.real d))
  | .numeric s => tagged "numeric" (.string s)
  | .string s => tagged "string" (.string s)
  | .bytes bs => tagged "bytes" (.list (fun b => .int b.toNat) bs)
  | .date d => tagged "date" (.string d.text)
  | .timestamp t => tagged "timestamp" (.string t.zuluText)
  | .json d => tagged "json" d.json
  | .array items => tagged "array" (.array (itemsToJson items))
  | .struct fields => tagged "struct" (.array (fieldsToJson fields))
def itemsToJson : List Value → List Json
  | [] => []
  | v :: r => v.toJson :: itemsToJson r
def fieldsToJson : List ValueField → List Json
  | [] => []
  | ⟨name, v⟩ :: r => .object [("name", .string name), ("value", v.toJson)] :: fieldsToJson r
end

def tags : List String :=
  ["null", "bool", "int", "double", "numeric", "string", "bytes", "date", "timestamp", "json",
    "array", "struct"]

def decodeField (value : Decoder Value) : Decoder ValueField := fun p j => do
  let f ← Fields.ofRecord? ["name", "value"] p j
  return ⟨← f.optional "name" "" Decoder.string, ← f.required "value" value⟩

def decodeWithin : Nat → Decoder Value
  | 0, _, _ => none
  | depth + 1, p, j => do
    let t ← Tagged.ofJson? "type" "value" tags p j
    match t.tag with
    | "null" => t.empty .null
    | "bool" => (t.content? Decoder.bool).map .bool
    | "int" => (t.content? Decoder.int64).map .int
    | "double" => (t.content? Decoder.double).map .double
    | "numeric" => (t.content? Decoder.string).map .numeric
    | "string" => (t.content? Decoder.string).map .string
    | "bytes" => (t.content? (Decoder.list Decoder.uint8)).map .bytes
    | "date" => ((t.content? Decoder.string).bind Date.ofText?).map .date
    | "timestamp" => ((t.content? Decoder.string).bind Timestamp.ofText?).map .timestamp
    | "json" => (t.content? Decoder.document).map .json
    | "array" => (t.content? (Decoder.list (decodeWithin depth))).map .array
    | "struct" => (t.content? (Decoder.list (decodeField (decodeWithin depth)))).map .struct
    | _ => none

def decode : Decoder Value := decodeWithin (Place.depthLimit + 1)

end Value
end ResolvedSql
