import ResolvedSql.Proofs.Sites
import ResolvedSql.Proofs.Run
/-!
What a tree means, without a state. Each reference gets its name from its position, and each
argument reference its text, so the order of rendering decides only which of several errors is met
first. Beside its text a part yields effects: the sites it resolved, the columns it computed and
the columns it noted for the analytic scan around.
-/
set_option autoImplicit false

namespace ResolvedSql

open Text Render

/-- The name of each reference, or why it has none, and the text of each argument reference. -/
structure Naming where
  reference : Site → Except Error String
  argument : Position → String := fun _ => "?"

structure Effects where
  resolved : List (Site × String) := []
  computed : List (String × String) := []
  met : List String := []

namespace Effects

instance : Append Effects :=
  ⟨fun e f => ⟨e.resolved ++ f.resolved, e.computed ++ f.computed, e.met ++ f.met⟩⟩

@[simp] theorem resolved_append (e f : Effects) : (e ++ f).resolved = e.resolved ++ f.resolved :=
  rfl

@[simp] theorem computed_append (e f : Effects) : (e ++ f).computed = e.computed ++ f.computed :=
  rfl

@[simp] theorem met_append (e f : Effects) : (e ++ f).met = e.met ++ f.met := rfl

theorem append_empty (e : Effects) : e ++ {} = e := by
  show (⟨_ ++ [], _ ++ [], _ ++ []⟩ : Effects) = e
  simp

theorem append_assoc (e f g : Effects) : e ++ f ++ g = e ++ (f ++ g) := by
  show (⟨_, _, _⟩ : Effects) = ⟨_, _, _⟩
  simp

end Effects

structure Meaning (α : Type) where
  result : Except Error α
  effects : Effects := {}

namespace Meaning

variable {α : Type}

/-- Nothing after an error has an effect. -/
instance : Monad Meaning where
  pure a := ⟨.ok a, {}⟩
  bind x f :=
    match x.result with
    | .ok a => ⟨(f a).result, x.effects ++ (f a).effects⟩
    | .error e => ⟨.error e, x.effects⟩

def demand (r : Except Error α) : Meaning α := ⟨r, {}⟩

def fail (e : Error) : Meaning α := demand (.error e)

def resolve (ρ : Naming) (site : Site) : Meaning String :=
  match ρ.reference site with
  | .ok name => ⟨.ok name, { resolved := [(site, name)] }⟩
  | .error e => fail e

def meet (columns : List String) : Meaning Unit := ⟨.ok (), { met := columns }⟩

def compute (column : Column) (expr : Meaning String) : Meaning String := do
  let sql ← expr
  let entry := (column.name, sql ++ " AS " ++ quoteName column.name)
  ⟨.ok sql, { computed := [entry] }⟩

def ownColumns (x : Meaning α) : Meaning (α × Keyed String) :=
  ⟨x.result.map (·, Keyed.empty.insertAll x.effects.computed), { x.effects with computed := [] }⟩

def ownScope (x : Meaning α) : Meaning (α × List String) :=
  ⟨x.result.map (·, x.effects.met), { x.effects with met := [] }⟩

def list (p : Position) : Nat → List (Position → Meaning α) → Meaning (List α)
  | _, [] => pure []
  | j, x :: xs => do
    let a ← x (j :: p)
    return a :: (← list p (j + 1) xs)

end Meaning

def AnalyticScope.bare (s : AnalyticScope) : AnalyticScope := { s with columns := [] }

/-- Groups of calls, each with what its calls mean in a scope. A group takes over the table of the
one before it unless its columns name another. -/
def Meaning.groups (p : Position) : Nat → AnalyticScope →
    List (CallGroup × (AnalyticScope → Position → Meaning (List String))) → Meaning Unit
  | _, _, [] => pure ()
  | j, scope, (g, calls) :: r => do
    let opened := openGroup g scope
    Meaning.meet opened.columns
    let _ ← calls opened.bare (j :: p)
    Meaning.groups p (j + 1) opened.bare r

section
variable (settings : Settings)

def calleeMeaning (ρ : Naming) (p : Position) (function : String) (catalog : Catalog)
    (type : SqlType) : Meaning Callee :=
  match catalog.builtin? function with
  | some bare => pure (.named (catalog.mangle settings.config.functionPrefix bare type))
  | none => do return settings.userCallee (← Meaning.resolve ρ ⟨.function, p⟩)

def rowMeaning (width index count : Nat) (values : Meaning (List String)) : Meaning String :=
  if count ≠ width then .fail (.contract (.rowWidth index count width))
  else do return rowText (← values)

def Boundary.meaning (edge : String) (code : Int32) (offset : Meaning String) :
    Meaning (List String) := do
  let kind ← Meaning.demand (BoundaryKind.ofCode code)
  let option := optionCall settings.config.functionPrefix ("window_boundary_" ++ edge)
  if kind.hasOffset then
    let sql ← offset
    if sql = "" then .fail (.contract (.noOffset kind.code))
    else return [option [codeText kind.code, sql]]
  else return [option [codeText kind.code, "0"]]

def Frame.meaning (unit : Int32) (first last : Meaning (List String)) :
    Meaning (List String) := do
  let unit ← Meaning.demand (FrameUnit.ofCode unit)
  let starts ← first
  let ends ← last
  return optionCall settings.config.functionPrefix "window_frame_unit" [codeText unit.code] ::
    (starts ++ ends)

/-- The meaning of a tree at a position, inside the given analytic scope if there is one. -/
def Node.meaning (ρ : Naming) (scope : Option AnalyticScope) (p : Position) :
    Node → Meaning String
  | .literal value type => .demand (settings.encoder value type)
  | .parameter name position _ => return parameterText name position
  | .columnRef column => return quoteName column.name
  | .argumentRef _ _ => return ρ.argument p
  | .call function arguments type => do
    let args ← Meaning.list (0 :: p) 0 (arguments.map fun e q => e.meaning ρ scope q)
    match ← calleeMeaning settings ρ p function .scalar type with
    | .inlined name body => .demand (body.inline name args)
    | .named name => return callText name args
  | .aggregateCall function arguments type distinct orderBy limit => do
    let args ← Meaning.list (0 :: p) 0 (arguments.map fun e q => e.meaning ρ scope q)
    match ← calleeMeaning settings ρ p function .aggregate type with
    | .inlined name body => .demand (body.inline name args)
    | .named name =>
      let lead := settings.config.functionPrefix
      let limits ← (match limit with
        | none => pure []
        | some e => do return [optionCall lead "limit" [← e.meaning ρ scope (1 :: p)]])
      return callText name (args ++ aggregateArguments lead distinct orderBy ++ limits)
  | .analyticCall function arguments type distinct frame =>
    match scope with
    | none => .fail .noAnalyticScope
    | some around => do
      let args ← Meaning.list (0 :: p) 0 (arguments.map fun e q => do
        let sql ← e.meaning ρ (some around) q
        Meaning.meet (if isConstant e then [] else [sql])
        return sql)
      match arguments.foldl (fun table e => argumentTable e table) around.table with
      | none => .fail .noAnalyticScope
      | some table =>
        match ← calleeMeaning settings ρ p function .window type with
        | .inlined name body => .demand (body.inline name args)
        | .named name =>
          let lead := settings.config.functionPrefix
          let frames ← (match frame with
            | none => pure []
            | some ⟨unit, first, last⟩ =>
              Frame.meaning settings unit
                (match first with
                | none => pure []
                | some ⟨code, offset⟩ => Boundary.meaning settings "start" code (match offset with
                  | none => pure ""
                  | some e => e.meaning ρ (some around) (1 :: p)))
                (match last with
                | none => pure []
                | some ⟨code, offset⟩ => Boundary.meaning settings "end" code (match offset with
                  | none => pure ""
                  | some e => e.meaning ρ (some around) (2 :: p))))
          let rowId := optionCall lead "window_rowid" [quoteName settings.config.rowIdColumn]
          return windowCallText name
            (args ++ windowArguments lead distinct around ++ frames ++ [rowId]) table
  | .structField operand index type => do
    let sql ← operand.meaning ρ scope (0 :: p)
    return settings.config.functionPrefix ++ "_get_struct_field_" ++ type.family ++ "(" ++ sql ++
      ", " ++ toString index.toNat ++ ")"
  | .subquery kind query _ => return subqueryText kind (← query.meaning ρ scope (0 :: p))
  | .columnDefault => return "NULL"
  | .singleRow => return ""
  | .tableScan _ _ => return "FROM " ++ quoteName (← Meaning.resolve ρ ⟨.table, p⟩)
  | .arrayScan (some _) _ _ => .fail (.unsupported .joinedArrayScan)
  | .arrayScan none array element => do
    let sql ← array.meaning ρ scope (1 :: p)
    return arrayText settings.config.functionPrefix element.name sql
  | .filterScan input condition => do
    let sql ← input.meaning ρ scope (0 :: p)
    let filter ← condition.meaning ρ scope (1 :: p)
    return sql ++ " " ++ filterKeyword input ++ " " ++ filter
  | .projectScan columns computed input => do
    let (_, own) ← (Meaning.list (0 :: p) 0 (computed.map fun c q =>
      Meaning.compute c.column (c.expr.meaning ρ scope q))).ownColumns
    let (sql, below) ← (input.meaning ρ scope (1 :: p)).ownColumns
    return selectText (selectItems own below columns) sql
  | .aggregateScan _ input keys aggregates => do
    let _ ← Meaning.list (2 :: p) 0 (aggregates.map fun c q =>
      Meaning.compute c.column (c.expr.meaning ρ scope q))
    let groups ← Meaning.list (1 :: p) 0 (keys.map fun c q =>
      Meaning.compute c.column (c.expr.meaning ρ scope q))
    return groupText (← input.meaning ρ scope (0 :: p)) groups
  | .setOperation code branches => do
    let op ← Meaning.demand (SetOperation.ofCode code)
    let sqls ← Meaning.list (0 :: p) 0 (branches.map fun b q => b.scan.meaning ρ scope q)
    return separated (" " ++ op.keywords ++ " ") sqls
  | .orderByScan input items => return orderByText (← input.meaning ρ scope (0 :: p)) items
  | .limitScan input limit offset => do
    let sql ← input.meaning ρ scope (0 :: p)
    let count ← limit.meaning ρ scope (1 :: p)
    match offset with
    | none => return sql ++ " LIMIT " ++ count
    | some e => return sql ++ " LIMIT " ++ count ++ " OFFSET " ++ (← e.meaning ρ scope (2 :: p))
  | .withScan entries query recursive =>
    if recursive then .fail (.unsupported .recursiveWith)
    else do
      let sqls ← Meaning.list (0 :: p) 0 (entries.map fun e q => do
        return e.name ++ " AS ( " ++ (← e.query.meaning ρ scope q) ++ " )")
      return "WITH " ++ separated ", " sqls ++ " " ++ (← query.meaning ρ scope (1 :: p))
  | .withRef name => return "FROM " ++ name
  | .analyticScan _ input groups => do
    let sql ← input.meaning ρ scope (0 :: p)
    let (_, met) ← (Meaning.groups (1 :: p) 0 {} (groups.map fun g => (g, fun inner q =>
      Meaning.list q 0 (g.calls.map fun c q =>
        Meaning.compute c.column (c.expr.meaning ρ (some inner) q))))).ownScope
    return analyticText settings.config.rowIdColumn sql met
  | .queryStmt _ query => query.meaning ρ scope (0 :: p)
  | .insertStmt _ columns rows query => do
    let table ← Meaning.resolve ρ ⟨.table, p⟩
    match query with
    | some e =>
      if !rows.isEmpty then .fail (.contract .rowsAndQuery)
      else return insertText table columns (← e.meaning ρ scope (1 :: p))
    | none =>
      if rows.isEmpty then .fail (.contract .noRowsNorQuery)
      else
        -- a row is numbered by the last number of its position
        let sqls ← Meaning.list (0 :: p) 0 (rows.map fun row q =>
          rowMeaning columns.length (q.headD 0) row.length
            (Meaning.list q 0 (row.map fun e q => e.meaning ρ scope q)))
        return insertText table columns ("VALUES " ++ commas sqls)
  | .deleteStmt _ condition => do
    let table ← Meaning.resolve ρ ⟨.table, p⟩
    let sql ← (match condition with
      | none => pure ""
      | some e => e.meaning ρ scope (0 :: p))
    return whereText ("DELETE FROM " ++ quoteName table) sql
  | .updateStmt _ assignments condition => do
    let table ← Meaning.resolve ρ ⟨.table, p⟩
    if assignments.isEmpty then .fail (.contract .noAssignments)
    else
      let sqls ← Meaning.list (0 :: p) 0 (assignments.map fun a q => do
        return quoteName a.target.name ++ "=" ++ (← a.value.meaning ρ scope q))
      let sql ← (match condition with
        | none => pure ""
        | some e => e.meaning ρ scope (1 :: p))
      return whereText ("UPDATE " ++ quoteName table ++ " SET " ++ commas sqls) sql
  | .unsupported kind => .fail (.unsupported (.kind kind))
termination_by n => sizeOf n
decreasing_by
  all_goals
    apply Node.sizeOf_lt_of_mem_children
    simp only [Node.children]
    grind [List.mem_flatten, Frame.offsets]

theorem Node.meaning_queryStmt (ρ : Naming) (scope : Option AnalyticScope) (p : Position)
    (columns : List Column) (query : Node) :
    (Node.queryStmt columns query).meaning settings ρ scope p =
      query.meaning settings ρ scope (0 :: p) := by
  rw [Node.meaning]

end
end ResolvedSql
