import ResolvedSql.Render.Node
import ResolvedSql.Tree.Wire
set_option autoImplicit false

namespace ResolvedSql

structure Outcome (α : Type) where
  result : Except Error α
  log : List Event

namespace Statement

def initialState (s : Statement) : State :=
  { cursor := .start s.declaredPath s.namePaths
    log := [.statement s.root.kind s.namePaths.length] }

/-- What is left over after a success: name paths, then computed columns. -/
def leftovers (s : State) : List Event :=
  (if 0 < s.cursor.remaining then [.pathsLeft s.cursor.consumed s.cursor.remaining] else []) ++
    if s.pending.isEmpty then [] else [.columnsLeft s.pending.size]

/-- The SQL of a statement. Its name paths must list one path for each reference, in the order in
which the references are rendered; paths left over do no harm. -/
def toSql (s : Statement) (settings : Settings) : Outcome String :=
  match s.root.render.run settings s.initialState with
  | .ok sql final => ⟨.ok sql, final.log ++ leftovers final⟩
  | .error e final => ⟨.error e, final.log⟩

/-- Gives up at once if it was cancelled before it began. -/
def toSqlUnless (cancelled : Bool) (s : Statement) (settings : Settings) : Outcome String :=
  if cancelled then ⟨.error .cancelled, []⟩ else s.toSql settings

/-- Compiles the statement of a function into a body that marks its arguments where they appear. -/
def functionBody (s : Statement) (settings : Settings) : Except Error FunctionBody :=
  (s.toSql settings).result.map FunctionBody.mk

end Statement

def sqlOfText (text : String) : Except Error String := do
  let s ← Statement.ofText text
  (s.toSql {}).result

end ResolvedSql
