/-!
Tables of TOML while they are read. A table comes into being in three ways: under a header of its
own, because a header names a table below it, or because a dotted key passes through it. Which of
them it was decides how it may be extended.
-/
set_option autoImplicit false

namespace ResolvedSql.Toml

mutual
/-- What a key holds. Of values other than strings only their place is kept. -/
inductive Item where
  | text (s : String)
  | value
  | table (t : Table)
  | tables (ts : List Table)
structure Table where
  /-- Named so far only as part of a longer name. -/
  implicit : Bool
  dotted : Bool
  entries : List (String × Item)
end

namespace Table

def explicit : Table := ⟨false, false, []⟩

def find? (t : Table) (key : String) : Option Item := t.entries.lookup key

def setEntry (key : String) (item : Item) : List (String × Item) → List (String × Item)
  | [] => [(key, item)]
  | (k, i) :: r => if k = key then (key, item) :: r else (k, i) :: setEntry key item r

def set (t : Table) (key : String) (item : Item) : Table :=
  { t with entries := setEntry key item t.entries }

/-- Changes the table at the end of a path and makes those on the way that are missing. A dotted key
passes only through tables without a header; of several tables under one name the last is meant. -/
def modifyAt (dotted : Bool) (f : Table → Option Table) : List String → Table → Option Table
  | [], t => f t
  | key :: path, t =>
    match t.find? key with
    | none => (modifyAt dotted f path ⟨true, dotted, []⟩).map fun child => t.set key (.table child)
    | some (.table child) =>
      if dotted && !child.implicit then none
      else (modifyAt dotted f path child).map fun child => t.set key (.table child)
    | some (.tables ts) => do
      let last ← ts.getLast?
      let last ← modifyAt dotted f path last
      return t.set key (.tables (ts.dropLast ++ [last]))
    | some _ => none

/-- Adds an entry under a dotted key. A table made by dotted keys is extended by them only, and no
entry is given twice. -/
def assign (path : List String) (key : String) (item : Item) (t : Table) : Option Table :=
  t.modifyAt true (fun target =>
    if target.dotted = path.isEmpty ∨ (target.find? key).isSome then none
    else some (target.set key item)) path

/-- Opens the table of a header. It may exist already only if longer headers named it. -/
def openTable (path : List String) (key : String) (t : Table) : Option Table :=
  t.modifyAt false (fun parent =>
    match parent.find? key with
    | none => some (parent.set key (.table explicit))
    | some (.table child) =>
      if child.implicit && !child.dotted then
        some (parent.set key (.table { child with implicit := false }))
      else none
    | some _ => none) path

def openNext (path : List String) (key : String) (t : Table) : Option Table :=
  t.modifyAt false (fun parent =>
    match parent.find? key with
    | none => some (parent.set key (.tables [explicit]))
    | some (.tables ts) => some (parent.set key (.tables (ts ++ [explicit])))
    | some _ => none) path

end Table
end ResolvedSql.Toml
