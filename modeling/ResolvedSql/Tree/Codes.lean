import ResolvedSql.Error
set_option autoImplicit false

namespace ResolvedSql

inductive SetOperation where
  | unionAll
  | unionDistinct
  | intersectAll
  | intersectDistinct
  | exceptAll
  | exceptDistinct
  deriving DecidableEq, Repr

namespace SetOperation

def ofCode (code : Int32) : Except Error SetOperation :=
  match code.toInt with
  | 0 => .ok .unionAll
  | 1 => .ok .unionDistinct
  | 2 => .ok .intersectAll
  | 3 => .ok .intersectDistinct
  | 4 => .ok .exceptAll
  | 5 => .ok .exceptDistinct
  | _ => .error (.unknownSetOperation code)

def code : SetOperation → Int32
  | .unionAll => 0
  | .unionDistinct => 1
  | .intersectAll => 2
  | .intersectDistinct => 3
  | .exceptAll => 4
  | .exceptDistinct => 5

def keywords : SetOperation → String
  | .unionAll => "UNION ALL"
  | .unionDistinct => "UNION DISTINCT"
  | .intersectAll => "INTERSECT ALL"
  | .intersectDistinct => "INTERSECT DISTINCT"
  | .exceptAll => "EXCEPT ALL"
  | .exceptDistinct => "EXCEPT DISTINCT"

theorem ofCode_code (op : SetOperation) : ofCode op.code = .ok op := by cases op <;> rfl

theorem eq_code_of_ofCode {code : Int32} {op : SetOperation} (h : ofCode code = .ok op) :
    code = op.code := by
  unfold ofCode at h
  split at h
  case h_7 => cases h
  all_goals
    cases h
    exact Int32.toInt_inj.1 ‹_›

end SetOperation

inductive FrameUnit where
  | rows
  | range
  deriving DecidableEq, Repr

namespace FrameUnit

def ofCode (code : Int32) : Except Error FrameUnit :=
  match code.toInt with
  | 0 => .ok .rows
  | 1 => .ok .range
  | _ => .error (.unknownFrameUnit code)

def code : FrameUnit → Int32
  | .rows => 0
  | .range => 1

theorem ofCode_code (u : FrameUnit) : ofCode u.code = .ok u := by cases u <;> rfl

theorem eq_code_of_ofCode {code : Int32} {u : FrameUnit} (h : ofCode code = .ok u) :
    code = u.code := by
  unfold ofCode at h
  split at h
  case h_3 => cases h
  all_goals
    cases h
    exact Int32.toInt_inj.1 ‹_›

end FrameUnit

inductive BoundaryKind where
  | unboundedPreceding
  | offsetPreceding
  | currentRow
  | offsetFollowing
  | unboundedFollowing
  deriving DecidableEq, Repr

namespace BoundaryKind

def ofCode (code : Int32) : Except Error BoundaryKind :=
  match code.toInt with
  | 0 => .ok .unboundedPreceding
  | 1 => .ok .offsetPreceding
  | 2 => .ok .currentRow
  | 3 => .ok .offsetFollowing
  | 4 => .ok .unboundedFollowing
  | _ => .error (.unknownBoundary code)

def code : BoundaryKind → Int32
  | .unboundedPreceding => 0
  | .offsetPreceding => 1
  | .currentRow => 2
  | .offsetFollowing => 3
  | .unboundedFollowing => 4

def hasOffset : BoundaryKind → Bool
  | .offsetPreceding | .offsetFollowing => true
  | _ => false

theorem ofCode_code (k : BoundaryKind) : ofCode k.code = .ok k := by cases k <;> rfl

theorem eq_code_of_ofCode {code : Int32} {k : BoundaryKind} (h : ofCode code = .ok k) :
    code = k.code := by
  unfold ofCode at h
  split at h
  case h_6 => cases h
  all_goals
    cases h
    exact Int32.toInt_inj.1 ‹_›

end BoundaryKind

inductive SubqueryKind where
  | scalar
  | array
  | exists
  | inList
  | likeAny
  | likeAll
  deriving DecidableEq, Repr

namespace SubqueryKind

def all : List SubqueryKind := [.scalar, .array, .exists, .inList, .likeAny, .likeAll]

def name : SubqueryKind → String
  | .scalar => "scalar"
  | .array => "array"
  | .exists => "exists"
  | .inList => "in"
  | .likeAny => "like_any"
  | .likeAll => "like_all"

def ofName? (s : String) : Option SubqueryKind := all.find? fun k => k.name = s

theorem ofName?_name (k : SubqueryKind) : ofName? k.name = some k := by cases k <;> decide

end SubqueryKind
end ResolvedSql
