import ResolvedSql.Json.Document
/-!
Decoding JSON trees into typed values. A record is an object, or an array of its fields in order;
fields it does not know are never looked at. A choice is a tag and a content, as two members in
either order or as an array of two, which differ in how the tag may be written. Every bracket that
is looked into counts against a limit.
-/
set_option autoImplicit false

namespace ResolvedSql

/-- Where a tree stands in the text it comes from: how many brackets may still open, and whether
it is decoded from memory because it was met before the tag that says what it is. -/
structure Place where
  room : Nat
  replayed : Bool
  deriving DecidableEq, Repr

def Place.depthLimit : Nat := 127

def Place.top : Place := ⟨Place.depthLimit, false⟩

def Place.inside? (p : Place) : Option Place :=
  match p.room with
  | 0 => none
  | room + 1 => some { p with room := room }

abbrev Decoder (α : Type) := Place → Json → Option α

namespace Decoder

def string : Decoder String
  | _, .string s => some s
  | _, _ => none

def bool : Decoder Bool
  | _, .bool b => some b
  | _, _ => none

def integer (lo hi : Int) : Decoder Int
  | _, .number (.integer n) => if lo ≤ n ∧ n < hi then some n else none
  | _, _ => none

def int32 : Decoder Int32 := fun p j => (integer (-0x80000000) 0x80000000 p j).map Int32.ofInt

def int64 : Decoder Int64 := fun p j =>
  (integer (-0x8000000000000000) 0x8000000000000000 p j).map Int64.ofInt

def uint8 : Decoder UInt8 := fun p j => (integer 0 0x100 p j).map fun n => UInt8.ofNat n.toNat

def uint32 : Decoder UInt32 := fun p j =>
  (integer 0 0x100000000 p j).map fun n => UInt32.ofNat n.toNat

def uint64 : Decoder UInt64 := fun p j =>
  (integer 0 0x10000000000000000 p j).map fun n => UInt64.ofNat n.toNat

def double : Decoder Float
  | _, .number (.integer n) =>
    if n < 0 then some (Int64.ofInt n).toFloat else some (UInt64.ofNat n.toNat).toFloat
  | _, .number (.real d) => some d
  | _, _ => none

def option {α : Type} (item : Decoder α) : Decoder (Option α)
  | _, .null => some none
  | p, j => (item p j).map some

def list {α : Type} (item : Decoder α) : Decoder (List α)
  | p, .array items => do
    let p ← p.inside?
    items.mapM (item p)
  | _, _ => none

def document : Decoder Document := fun p j => if j.fits p.room then Document.ofJson? j else none

/-- The name of an alternative without content: a string, or an object whose only key it is, with
the value null. In a tree decoded from memory the empty object stands for null there. -/
def name : Decoder String
  | _, .string s => some s
  | p, .object [(k, v)] => do
    let p ← p.inside?
    match v with
    | .null => some k
    | .object [] => if p.replayed then some k else none
    | _ => none
  | _, _ => none

/-- The first element of a choice written as an array: one of `names`, as a string. In a tree
decoded from memory its position among them stands for it too. -/
def leading (names : List String) : Decoder String
  | _, .string s => some s
  | p, .number (.integer n) => if p.replayed ∧ 0 ≤ n then names[n.toNat]? else none
  | _, _ => none

def alternative {α : Type} (ofName? : String → Option α) : Decoder α := fun p j =>
  (name p j).bind ofName?

end Decoder

structure Fields where
  place : Place
  members : Json.Members

namespace Fields

def known? (names : List String) (members : Json.Members) : Option Json.Members :=
  let known := members.filter fun m => names.contains m.1
  if (known.map (·.1)).Nodup then some known else none

def ofRecord? (names : List String) : Decoder Fields
  | p, .object members => do
    let p ← p.inside?
    let known ← known? names members
    return ⟨p, known⟩
  | p, .array items => do
    let p ← p.inside?
    if items.length ≤ names.length then some ⟨p, names.zip items⟩ else none
  | _, _ => none

def find? (f : Fields) (field : String) : Option Json := f.members.lookup field

def required {α : Type} (f : Fields) (field : String) (item : Decoder α) : Option α :=
  (f.find? field).bind (item f.place)

def optional {α : Type} (f : Fields) (field : String) (missing : α) (item : Decoder α) : Option α :=
  match f.find? field with
  | none => some missing
  | some j => item f.place j

end Fields

structure Tagged where
  tag : String
  content : Option (Place × Json)

namespace Tagged

/-- A choice among `tags`, written under the keys `tagKey` and `contentKey`. A content met before
its tag is read whole before it is decoded, so all of it must be readable. -/
def ofJson? (tagKey contentKey : String) (tags : List String) : Decoder Tagged
  | p, .object members => do
    let p ← p.inside?
    let known ← Fields.known? [tagKey, contentKey] members
    match known with
    | [(k, t)] => if k = tagKey then return ⟨← Decoder.name p t, none⟩ else none
    | [(k, a), (_, b)] =>
      if k = tagKey then return ⟨← Decoder.name p a, some (p, b)⟩
      else if a.fits p.room then return ⟨← Decoder.name p b, some ({ p with replayed := true }, a)⟩
      else none
    | _ => none
  | p, .array [t, c] => do
    let p ← p.inside?
    return ⟨← Decoder.leading tags p t, some (p, c)⟩
  | _, _ => none

def empty {α : Type} (t : Tagged) (a : α) : Option α :=
  match t.content with
  | none => some a
  | some (_, .null) => some a
  | some _ => none

def content? {α : Type} (t : Tagged) (item : Decoder α) : Option α :=
  t.content.bind fun (p, j) => item p j

end Tagged

def Decoder.ofTree {α : Type} (item : Decoder α) (j : Json) : Option α := item Place.top j

end ResolvedSql
