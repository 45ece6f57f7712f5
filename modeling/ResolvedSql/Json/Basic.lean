import ResolvedSql.Decimal.Shortest
import ResolvedSql.Text.Order
/-!
JSON trees, and the documents among them. A tree keeps what a text says: members in order,
repeated keys included. A document is the value a tree stands for: members sorted by key, each key
once (the last member given under it), numbers within their range.
-/
set_option autoImplicit false

namespace ResolvedSql

/-- Integers stay exact; every other number is a double. -/
inductive Number where
  | integer (n : Int)
  | real (d : Float)
  deriving Repr, Inhabited

def Number.inRange : Number → Bool
  | .integer n => decide (-0x8000000000000000 ≤ n) && decide (n < 0x10000000000000000)
  | .real d => (Binary64.ofBits d.toBits).isFinite

/-- Trees. The leaf `unreadable` stands for what a text may hold where nobody reads it: a number
beyond every double, a string with half a surrogate pair, or an object with such a string as key. -/
inductive Json where
  | null
  | bool (b : Bool)
  | number (n : Number)
  | string (s : String)
  | array (items : List Json)
  | object (members : List (String × Json))
  | unreadable
  deriving Repr, Inhabited

namespace Json

abbrev Members := List (String × Json)

def int (n : Int) : Json := .number (.integer n)

def option {α : Type} (item : α → Json) : Option α → Json
  | none => .null
  | some a => item a

def list {α : Type} (item : α → Json) (xs : List α) : Json := .array (xs.map item)

def tagged (tagKey tag contentKey : String) (content : Json) : Json :=
  .object [(tagKey, .string tag), (contentKey, content)]

def tagOnly (tagKey tag : String) : Json := .object [(tagKey, .string tag)]

mutual
def fits : Json → Nat → Bool
  | .unreadable, _ => false
  | .array _, 0 => false
  | .array items, room + 1 => allFit items room
  | .object _, 0 => false
  | .object members, room + 1 => membersFit members room
  | .null, _ => true
  | .bool _, _ => true
  | .number _, _ => true
  | .string _, _ => true
def allFit : List Json → Nat → Bool
  | [], _ => true
  | j :: r, room => j.fits room && allFit r room
def membersFit : Members → Nat → Bool
  | [], _ => true
  | (_, j) :: r, room => j.fits room && membersFit r room
end

def ascending : Members → Bool
  | [] => true
  | [_] => true
  | (k, _) :: (k', v') :: r => Text.precedes k k' && ascending ((k', v') :: r)

mutual
def isDocument : Json → Bool
  | .null | .bool _ | .string _ => true
  | .number n => n.inRange
  | .array items => allDocuments items
  | .object members => ascending members && membersDocuments members
  | .unreadable => false
def allDocuments : List Json → Bool
  | [] => true
  | j :: r => j.isDocument && allDocuments r
def membersDocuments : Members → Bool
  | [] => true
  | (_, j) :: r => j.isDocument && membersDocuments r
end

/-- Puts a member at its place among members sorted by key, instead of one with the same key. -/
def insertMember (k : String) (v : Json) : Members → Members
  | [] => [(k, v)]
  | (k', v') :: r =>
    if Text.precedes k k' then (k, v) :: (k', v') :: r
    else if k = k' then (k, v) :: r
    else (k', v') :: insertMember k v r

mutual
def document? : Json → Option Json
  | .null => some .null
  | .bool b => some (.bool b)
  | .string s => some (.string s)
  | .number n => if n.inRange then some (.number n) else none
  | .array items => (documents? items).map .array
  | .object members => (memberDocuments? members []).map .object
  | .unreadable => none
def documents? : List Json → Option (List Json)
  | [] => some []
  | j :: r => do
    let d ← document? j
    let ds ← documents? r
    return d :: ds
/-- Inserts the members from left to right, so that the last one given under a key stays. -/
def memberDocuments? : Members → Members → Option Members
  | [], sorted => some sorted
  | (k, j) :: r, sorted => do
    let d ← document? j
    memberDocuments? r (insertMember k d sorted)
end

end Json

structure Document where
  json : Json
  isDocument : json.isDocument = true

end ResolvedSql
