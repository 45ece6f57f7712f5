import ResolvedSql.Render.Clause
/-!
Rendering of trees. The order in which the parts of a node are rendered is the order in which its
references take their name paths: arguments before the function they are passed to, computed
columns of a scan before its input, except that an analytic scan renders its input first.
-/
set_option autoImplicit false

namespace ResolvedSql

open Text Render

mutual
def Node.render : Node → Render String
  | .literal value type => do demand ((← read).encoder value type)
  | .parameter name position _ => return parameterText name position
  | .columnRef column => return quoteName column.name
  | .argumentRef _ _ => return "?"
  | .call function arguments type => do
    let args ← Node.renderAll arguments
    match ← resolveCallee function .scalar type with
    | .inlined name body => inlineBody name body args
    | .named name => return callText name args
  | .aggregateCall function arguments type distinct orderBy limit => do
    let args ← Node.renderAll arguments
    match ← resolveCallee function .aggregate type with
    | .inlined name body => inlineBody name body args
    | .named name =>
      let lead ← functionPrefix
      let options := aggregateArguments lead distinct orderBy
      let limits ← Node.renderLimit limit
      return callText name (args ++ options ++ limits)
  | .analyticCall function arguments type distinct frame => do
    let (args, table) ← Node.renderArguments arguments (← currentScope).table
    match table with
    | none => throw .noAnalyticScope
    | some table =>
      match ← resolveCallee function .window type with
      | .inlined name body => inlineBody name body args
      | .named name =>
        let lead ← functionPrefix
        let options := windowArguments lead distinct (← currentScope)
        let frames ← Frame.renderOption frame
        let rowId := optionCall lead "window_rowid" [quoteName (← read).config.rowIdColumn]
        report (.windowCall name table)
        return windowCallText name (args ++ options ++ frames ++ [rowId]) table
  | .structField operand index type => do
    let sql ← operand.render
    return (← functionPrefix) ++ "_get_struct_field_" ++ type.family ++ "(" ++ sql ++ ", " ++
      toString index.toNat ++ ")"
  | .subquery kind query _ => return subqueryText kind (← query.render)
  -- the target has no column defaults; an omitted value is null
  | .columnDefault => return "NULL"
  | .singleRow => return ""
  | .tableScan _ _ => return "FROM " ++ quoteName (← nextName)
  | .arrayScan (some _) _ _ => throw (.unsupported .joinedArrayScan)
  | .arrayScan none array element => do
    let sql ← array.render
    return arrayText (← functionPrefix) element.name sql
  | .filterScan input condition => do
    let sql ← input.render
    let filter ← condition.render
    return sql ++ " " ++ filterKeyword input ++ " " ++ filter
  | .projectScan columns computed input => do
    let (_, own) ← columnScope (ComputedColumn.renderAll computed)
    let (sql, below) ← columnScope input.render
    return selectText (selectItems own below columns) sql
  | .aggregateScan _ input keys aggregates => do
    let _ ← ComputedColumn.renderAll aggregates
    let groups ← ComputedColumn.renderAll keys
    return groupText (← input.render) groups
  | .setOperation code branches => do
    let op ← demand (SetOperation.ofCode code)
    let sqls ← SetBranch.renderAll branches
    return separated (" " ++ op.keywords ++ " ") sqls
  | .orderByScan input items => return orderByText (← input.render) items
  | .limitScan input limit offset => do
    let sql ← input.render
    let count ← limit.render
    match offset with
    | none => return sql ++ " LIMIT " ++ count
    | some offset => return sql ++ " LIMIT " ++ count ++ " OFFSET " ++ (← offset.render)
  | .withScan entries query recursive => do
    if recursive then throw (.unsupported .recursiveWith)
    let sqls ← NamedQuery.renderAll entries
    return "WITH " ++ separated ", " sqls ++ " " ++ (← query.render)
  | .withRef name => return "FROM " ++ name
  | .analyticScan _ input groups => do
    let sql ← input.render
    let (_, scope) ← analyticScope (CallGroup.renderAll groups)
    return analyticText (← read).config.rowIdColumn sql scope.columns
  | .queryStmt _ query => query.render
  | .insertStmt _ columns rows query => do
    let table ← nextName
    match query with
    | some query =>
      if !rows.isEmpty then throw (.contract .rowsAndQuery)
      return insertText table columns (← query.render)
    | none =>
      if rows.isEmpty then throw (.contract .noRowsNorQuery)
      let sqls ← Node.renderRows columns.length 0 rows
      return insertText table columns ("VALUES " ++ commas sqls)
  | .deleteStmt _ condition => do
    let table ← nextName
    return whereText ("DELETE FROM " ++ quoteName table) (← Node.renderOption condition)
  | .updateStmt _ assignments condition => do
    let table ← nextName
    if assignments.isEmpty then throw (.contract .noAssignments)
    let sqls ← Assignment.renderAll assignments
    return whereText ("UPDATE " ++ quoteName table ++ " SET " ++ commas sqls)
      (← Node.renderOption condition)
  | .unsupported kind => throw (.unsupported (.kind kind))
def Node.renderAll : List Node → Render (List String)
  | [] => return []
  | n :: r => do
    let sql ← n.render
    return sql :: (← Node.renderAll r)
def Node.renderOption : Option Node → Render String
  | none => return ""
  | some n => n.render
def Node.renderLimit : Option Node → Render (List String)
  | none => return []
  | some n => do
    let sql ← n.render
    return [optionCall (← functionPrefix) "limit" [sql]]
/-- The arguments of a window call, noted as columns of the scope, and the table named last. -/
def Node.renderArguments : List Node → Option String → Render (List String × Option String)
  | [], table => return ([], table)
  | n :: r, table => do
    let sql ← n.render
    if !isConstant n then modifyScope (·.addColumn sql)
    let (sqls, table) ← Node.renderArguments r (argumentTable n table)
    return (sql :: sqls, table)
def Node.renderRows (width index : Nat) : List (List Node) → Render (List String)
  | [] => return []
  | row :: r => do
    if row.length ≠ width then throw (.contract (.rowWidth index row.length width))
    let sqls ← Node.renderAll row
    return rowText sqls :: (← Node.renderRows width (index + 1) r)
/-- The bare expression; the projection around finds it under the name of the column. -/
def ComputedColumn.render : ComputedColumn → Render String
  | ⟨column, expr⟩ => do
    let sql ← expr.render
    addPending column (sql ++ " AS " ++ quoteName column.name)
    return sql
def ComputedColumn.renderAll : List ComputedColumn → Render (List String)
  | [] => return []
  | c :: r => do
    let sql ← c.render
    return sql :: (← ComputedColumn.renderAll r)
/-- One end of a frame, as an argument. An end without offset has the offset zero. -/
def Boundary.render (edge : String) : Boundary → Render String
  | ⟨code, offset⟩ => do
    let kind ← demand (BoundaryKind.ofCode code)
    let lead ← functionPrefix
    let name := "window_boundary_" ++ edge
    if kind.hasOffset then
      let sql ← Node.renderOption offset
      if sql = "" then throw (.contract (.noOffset kind.code))
      return optionCall lead name [codeText kind.code, sql]
    else return optionCall lead name [codeText kind.code, "0"]
def Boundary.renderOption (edge : String) : Option Boundary → Render (List String)
  | none => return []
  | some b => return [← b.render edge]
def Frame.render : Frame → Render (List String)
  | ⟨unit, first, last⟩ => do
    let unit ← demand (FrameUnit.ofCode unit)
    let lead ← functionPrefix
    let starts ← Boundary.renderOption "start" first
    let ends ← Boundary.renderOption "end" last
    return optionCall lead "window_frame_unit" [codeText unit.code] :: (starts ++ ends)
def Frame.renderOption : Option Frame → Render (List String)
  | none => return []
  | some f => f.render
def CallGroup.render : CallGroup → Render String
  | ⟨partition, order, calls⟩ => do
    modifyScope (openGroup ⟨partition, order, []⟩)
    return commas (← ComputedColumn.renderAll calls)
def CallGroup.renderAll : List CallGroup → Render (List String)
  | [] => return []
  | g :: r => do
    let sql ← g.render
    return sql :: (← CallGroup.renderAll r)
def SetBranch.render : SetBranch → Render String
  | ⟨scan, _⟩ => scan.render
def SetBranch.renderAll : List SetBranch → Render (List String)
  | [] => return []
  | b :: r => do
    let sql ← b.render
    return sql :: (← SetBranch.renderAll r)
def NamedQuery.render : NamedQuery → Render String
  | ⟨name, query⟩ => return name ++ " AS ( " ++ (← query.render) ++ " )"
def NamedQuery.renderAll : List NamedQuery → Render (List String)
  | [] => return []
  | q :: r => do
    let sql ← q.render
    return sql :: (← NamedQuery.renderAll r)
def Assignment.render : Assignment → Render String
  | ⟨target, value⟩ => return quoteName target.name ++ "=" ++ (← value.render)
def Assignment.renderAll : List Assignment → Render (List String)
  | [] => return []
  | a :: r => do
    let sql ← a.render
    return sql :: (← Assignment.renderAll r)
end

end ResolvedSql
