set_option autoImplicit false

namespace ResolvedSql

inductive Level where
  | trace
  | debug
  | warn
  deriving DecidableEq, Repr

inductive Event where
  | statement (kind : String) (references : Nat)
  | nameResolved (index : Nat) (name : String)
  | bodyInlined (function : String)
  | windowCall (function table : String)
  | pathsLeft (consumed remaining : Nat)
  | columnsLeft (pending : Nat)
  deriving DecidableEq, Repr

namespace Event

def level : Event → Level
  | .nameResolved _ _ | .windowCall _ _ => .trace
  | .statement _ _ | .bodyInlined _ | .columnsLeft _ => .debug
  | .pathsLeft _ _ => .warn

def message : Event → String
  | .statement _ _ => "transpiling statement"
  | .nameResolved _ _ => "resolved name path"
  | .bodyInlined _ => "inlined function body"
  | .windowCall _ _ => "correlated window call"
  | .pathsLeft _ _ =>
    "name paths left unconsumed; analyzer reference order may not match traversal"
  | .columnsLeft _ => "computed columns never projected"

def fields : Event → List (String × String)
  | .statement kind references => [("kind", kind), ("references", toString references)]
  | .nameResolved index name => [("index", toString index), ("name", name)]
  | .bodyInlined function => [("function", function)]
  | .windowCall function table => [("function", function), ("table", table)]
  | .pathsLeft consumed remaining =>
    [("consumed", toString consumed), ("remaining", toString remaining)]
  | .columnsLeft pending => [("pending", toString pending)]

end Event
end ResolvedSql
