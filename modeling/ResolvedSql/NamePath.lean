import ResolvedSql.Text.Quoted
/-!
Name paths. The target has no names of several parts, so a path through the catalog becomes one
name, its segments joined by underscores.
-/
set_option autoImplicit false

namespace ResolvedSql

abbrev NamePath := List String

namespace NamePath

/-- Qualifies `resolved` with the segments of `declared` before the first that equals its head. -/
def merge (declared resolved : NamePath) : NamePath :=
  match resolved with
  | [] => declared
  | head :: _ => declared.takeWhile (fun segment => segment ≠ head) ++ resolved

def flatten (path : NamePath) : String := Text.separated "_" path

end NamePath

def quoteName (name : String) : String := Text.quoted '`' name

/-- The paths of a statement's references and how many of them were taken. -/
@[ext] structure Cursor where
  declared : NamePath
  paths : List NamePath
  index : Nat
  index_le : index ≤ paths.length
  deriving DecidableEq, Repr

namespace Cursor

def start (declared : NamePath) (paths : List NamePath) : Cursor :=
  ⟨declared, paths, 0, Nat.zero_le _⟩

def consumed (c : Cursor) : Nat := c.index

def remaining (c : Cursor) : Nat := c.paths.length - c.index

def next? (c : Cursor) : Option (String × Cursor) :=
  if h : c.index < c.paths.length then
    some ((c.declared.merge c.paths[c.index]).flatten,
      { c with index := c.index + 1, index_le := h })
  else none

theorem next?_of_lt {c : Cursor} (h : c.index < c.paths.length) :
    c.next? = some ((c.declared.merge c.paths[c.index]).flatten,
      { c with index := c.index + 1, index_le := h }) := dif_pos h

theorem next?_of_le {c : Cursor} (h : c.paths.length ≤ c.index) : c.next? = none :=
  dif_neg (Nat.not_lt.2 h)

end Cursor
end ResolvedSql
