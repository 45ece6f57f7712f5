import ResolvedSql.Error
import ResolvedSql.Json.Decoder
set_option autoImplicit false

namespace ResolvedSql

structure Config where
  functionPrefix : String := "bqlite"
  rowIdColumn : String := "rowid"
  deriving DecidableEq, Repr

namespace Config

def isIdentifierChar (c : Char) : Bool := c.isAlphanum || c = '_'

def isIdentifier (s : String) : Bool := !s.toList.isEmpty && s.toList.all isIdentifierChar

def validate (c : Config) : Except Error Unit :=
  if !isIdentifier c.functionPrefix then .error (.config (.functionPrefix c.functionPrefix))
  else if c.rowIdColumn = "" then .error (.config .emptyRowIdColumn)
  else .ok ()

theorem isIdentifier_of_validate {c : Config} (h : c.validate = .ok ()) :
    isIdentifier c.functionPrefix = true := by
  unfold validate at h
  split at h
  · simp at h
  · rename_i hlead
    simpa using hlead

def toJson (c : Config) : Json :=
  .object [("function_prefix", .string c.functionPrefix), ("row_id_column", .string c.rowIdColumn)]

def decode : Decoder Config := fun p j => do
  let f ← Fields.ofRecord? ["function_prefix", "row_id_column"] p j
  let base : Config := {}
  return ⟨← f.optional "function_prefix" base.functionPrefix Decoder.string,
    ← f.optional "row_id_column" base.rowIdColumn Decoder.string⟩

end Config
end ResolvedSql
