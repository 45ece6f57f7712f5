import ResolvedSql.Config.Basic
import ResolvedSql.Toml.Printer
import ResolvedSql.Toml.Reader
set_option autoImplicit false

namespace ResolvedSql.Config

def stringEntry? (t : Toml.Table) (key missing : String) : Option String :=
  match t.find? key with
  | none => some missing
  | some (.text s) => some s
  | some _ => none

def ofTable? (t : Toml.Table) : Option Config := do
  let base : Config := {}
  return ⟨← stringEntry? t "function_prefix" base.functionPrefix,
    ← stringEntry? t "row_id_column" base.rowIdColumn⟩

def ofToml (text : String) : Except Error Config := do
  match (Toml.ofText? text).bind ofTable? with
  | none => throw (.config .malformed)
  | some c =>
    c.validate
    return c

def toToml (c : Config) : String :=
  "function_prefix = " ++ Toml.stringText c.functionPrefix ++ "\n" ++
    "row_id_column = " ++ Toml.stringText c.rowIdColumn ++ "\n"

end ResolvedSql.Config
