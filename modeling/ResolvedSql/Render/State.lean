import ResolvedSql.Config.Basic
import ResolvedSql.Event
import ResolvedSql.Function.Body
import ResolvedSql.Function.Catalog
import ResolvedSql.Literal
import ResolvedSql.NamePath
import ResolvedSql.Tree.Basic
/-!
The state of one rendering. What was changed before an error stays changed, except that the two
kinds of scope put back what they replaced, whether the work inside succeeds or fails.
-/
set_option autoImplicit false

namespace ResolvedSql

structure Settings where
  config : Config := {}
  registry : Registry := ∅
  encoder : Encoder := Literal.encode

/-- Columns met while the calls of one analytic scan are rendered. -/
structure AnalyticScope where
  table : Option String := none
  /-- Partition, order and argument columns, as they were met. -/
  columns : List String := []
  partition : List String := []
  /-- Order columns of the current group; `true` is ascending. -/
  order : List (String × Bool) := []
  deriving DecidableEq, Repr

namespace AnalyticScope

def reset (s : AnalyticScope) : AnalyticScope := { s with partition := [], order := [] }

def addColumn (s : AnalyticScope) (sql : String) : AnalyticScope :=
  { s with columns := s.columns ++ [sql] }

end AnalyticScope

structure State where
  cursor : Cursor
  /-- Rendered computed columns that wait for their projection, by column name. -/
  pending : Keyed String := ∅
  analytic : Option AnalyticScope := none
  log : List Event := []

abbrev Render := ReaderT Settings (EStateM Error State)

namespace Render

variable {α : Type}

def run (action : Render α) (settings : Settings) (state : State) : EStateM.Result Error State α :=
  action settings state

/-- The result as a value, in a rendering that goes on. -/
def attempt (action : Render α) : Render (Except Error α) := fun settings state =>
  match action settings state with
  | .ok a s => .ok (.ok a) s
  | .error e s => .ok (.error e) s

def demand (r : Except Error α) : Render α :=
  match r with
  | .ok a => pure a
  | .error e => throw e

def report (event : Event) : Render Unit := modify fun s => { s with log := s.log ++ [event] }

def functionPrefix : Render String := return (← read).config.functionPrefix

def nextName : Render String := do
  let s ← get
  match s.cursor.next? with
  | none => throw (.namePathsExhausted s.cursor.index s.cursor.paths.length)
  | some (name, cursor) =>
    set { s with cursor := cursor }
    report (.nameResolved s.cursor.index name)
    return name

/-- How a function is called: by name, or by putting its body in place. -/
inductive Callee where
  | named (name : String)
  | inlined (name : String) (body : FunctionBody)
  deriving DecidableEq, Repr

/-- Builtins take no name path; any other function takes one. -/
def resolveCallee (function : String) (catalog : Catalog) (type : SqlType) : Render Callee := do
  match catalog.builtin? function with
  | some bare => return .named (catalog.mangle (← functionPrefix) bare type)
  | none =>
    let name ← nextName
    match (← read).registry.find? name with
    | some body => return .inlined name body
    | none => return .named name

def inlineBody (name : String) (body : FunctionBody) (args : List String) : Render String := do
  let sql ← demand (body.inline name args)
  report (.bodyInlined name)
  return sql

def addPending (column : Column) (sql : String) : Render Unit :=
  modify fun s => { s with pending := s.pending.insert column.name sql }

/-- Runs `action` with no pending columns and hands out those it leaves. -/
def columnScope (action : Render α) : Render (α × Keyed String) := do
  let outer := (← get).pending
  modify fun s => { s with pending := ∅ }
  let result ← attempt action
  let inner := (← get).pending
  modify fun s => { s with pending := outer }
  return (← demand result, inner)

def analyticScope (action : Render α) : Render (α × AnalyticScope) := do
  let outer := (← get).analytic
  modify fun s => { s with analytic := some {} }
  let result ← attempt action
  let inner := (← get).analytic.getD {}
  modify fun s => { s with analytic := outer }
  return (← demand result, inner)

def currentScope : Render AnalyticScope := do
  match (← get).analytic with
  | some scope => return scope
  | none => throw .noAnalyticScope

def modifyScope (f : AnalyticScope → AnalyticScope) : Render Unit := do
  let scope ← currentScope
  modify fun s => { s with analytic := some (f scope) }

end Render
end ResolvedSql
