import ResolvedSql.NamePath
import ResolvedSql.SqlType
import ResolvedSql.Tree.Codes
import ResolvedSql.Value
set_option autoImplicit false

namespace ResolvedSql

/-- A column and the table, or alias, that owns it. -/
structure Column where
  name : String
  tableName : String
  type : SqlType

structure OrderItem where
  column : Column
  descending : Bool

mutual
inductive Node where
  -- expressions
  | literal (value : Value) (type : SqlType)
  | parameter (name : String) (position : Option UInt32) (type : SqlType)
  | columnRef (column : Column)
  | argumentRef (name : String) (type : SqlType)
  | call (function : String) (arguments : List Node) (type : SqlType)
  | aggregateCall (function : String) (arguments : List Node) (type : SqlType) (distinct : Bool)
      (orderBy : List OrderItem) (limit : Option Node)
  | analyticCall (function : String) (arguments : List Node) (type : SqlType) (distinct : Bool)
      (frame : Option Frame)
  | structField (operand : Node) (index : UInt64) (type : SqlType)
  | subquery (kind : SubqueryKind) (query : Node) (type : SqlType)
  | columnDefault
  -- scans
  | singleRow
  | tableScan (table : String) (columns : List Column)
  | arrayScan (input : Option Node) (array : Node) (element : Column)
  | filterScan (input condition : Node)
  | projectScan (columns : List Column) (computed : List ComputedColumn) (input : Node)
  | aggregateScan (columns : List Column) (input : Node) (keys aggregates : List ComputedColumn)
  | setOperation (code : Int32) (branches : List SetBranch)
  | orderByScan (input : Node) (items : List OrderItem)
  | limitScan (input limit : Node) (offset : Option Node)
  | withScan (entries : List NamedQuery) (query : Node) (recursive : Bool)
  | withRef (name : String)
  | analyticScan (columns : List Column) (input : Node) (groups : List CallGroup)
  -- statements
  | queryStmt (columns : List Column) (query : Node)
  | insertStmt (table : String) (columns : List Column) (rows : List (List Node))
      (query : Option Node)
  | deleteStmt (table : String) (condition : Option Node)
  | updateStmt (table : String) (assignments : List Assignment) (condition : Option Node)
  | unsupported (kind : UnsupportedKind)
structure ComputedColumn where
  column : Column
  expr : Node
structure Boundary where
  code : Int32
  offset : Option Node
structure Frame where
  unit : Int32
  first : Option Boundary
  last : Option Boundary
/-- Window calls over the same partition and order. -/
structure CallGroup where
  partition : Option (List Column)
  order : Option (List OrderItem)
  calls : List ComputedColumn
structure SetBranch where
  scan : Node
  columns : List Column
structure NamedQuery where
  name : String
  query : Node
structure Assignment where
  target : Column
  value : Node
end

structure Statement where
  declaredPath : NamePath
  namePaths : List NamePath
  root : Node

def Node.kind : Node → String
  | .literal _ _ => "literal"
  | .parameter _ _ _ => "parameter"
  | .columnRef _ => "column_ref"
  | .argumentRef _ _ => "argument_ref"
  | .call _ _ _ => "function_call"
  | .aggregateCall _ _ _ _ _ _ => "aggregate_function_call"
  | .analyticCall _ _ _ _ _ => "analytic_function_call"
  | .structField _ _ _ => "get_struct_field"
  | .subquery _ _ _ => "subquery_expr"
  | .columnDefault => "dml_default"
  | .singleRow => "single_row_scan"
  | .tableScan _ _ => "table_scan"
  | .arrayScan _ _ _ => "array_scan"
  | .filterScan _ _ => "filter_scan"
  | .projectScan _ _ _ => "project_scan"
  | .aggregateScan _ _ _ _ => "aggregate_scan"
  | .setOperation _ _ => "set_operation_scan"
  | .orderByScan _ _ => "order_by_scan"
  | .limitScan _ _ _ => "limit_offset_scan"
  | .withScan _ _ _ => "with_scan"
  | .withRef _ => "with_ref_scan"
  | .analyticScan _ _ _ => "analytic_scan"
  | .queryStmt _ _ => "query_stmt"
  | .insertStmt _ _ _ _ => "insert_stmt"
  | .deleteStmt _ _ => "delete_stmt"
  | .updateStmt _ _ _ => "update_stmt"
  | .unsupported k => k.name

end ResolvedSql
