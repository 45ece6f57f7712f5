import ResolvedSql.Json.Reader
import ResolvedSql.Tree.Basic
set_option autoImplicit false

namespace ResolvedSql

namespace Column

def toJson (c : Column) : Json :=
  .object [("name", .string c.name), ("table_name", .string c.tableName), ("type", c.type.toJson)]

def decode : Decoder Column := fun p j => do
  let f ← Fields.ofRecord? ["name", "table_name", "type"] p j
  return ⟨← f.required "name" Decoder.string, ← f.optional "table_name" "" Decoder.string,
    ← f.required "type" SqlType.decode⟩

def refToJson (c : Column) : Json := .object [("column", c.toJson)]

def decodeRef : Decoder Column := fun p j => do
  let f ← Fields.ofRecord? ["column"] p j
  f.required "column" decode

end Column

namespace OrderItem

def toJson (i : OrderItem) : Json :=
  .object [("column_ref", i.column.refToJson), ("is_descending", .bool i.descending)]

def decode : Decoder OrderItem := fun p j => do
  let f ← Fields.ofRecord? ["column_ref", "is_descending"] p j
  return ⟨← f.required "column_ref" Column.decodeRef,
    ← f.optional "is_descending" false Decoder.bool⟩

end OrderItem

def functionToJson (name : String) : Json := .object [("name", .string name)]

def decodeFunction : Decoder String := fun p j => do
  let f ← Fields.ofRecord? ["name"] p j
  f.required "name" Decoder.string

def partitionToJson (columns : List Column) : Json :=
  .object [("partition_by_list", .list Column.refToJson columns)]

def decodePartition : Decoder (List Column) := fun p j => do
  let f ← Fields.ofRecord? ["partition_by_list"] p j
  f.required "partition_by_list" (Decoder.list Column.decodeRef)

def orderingToJson (items : List OrderItem) : Json :=
  .object [("order_by_item_list", .list OrderItem.toJson items)]

def decodeOrdering : Decoder (List OrderItem) := fun p j => do
  let f ← Fields.ofRecord? ["order_by_item_list"] p j
  f.required "order_by_item_list" (Decoder.list OrderItem.decode)

def wrapValue (j : Json) : Json := .object [("value", j)]

def wrapRow (values : List Json) : Json := .object [("value_list", .array values)]

def nodeToJson (kind : String) (fields : Json.Members) : Json :=
  .tagged "kind" kind "node" (.object fields)

mutual
def Node.toJson : Node → Json
  | .literal value type => nodeToJson "literal" [("value", value.toJson), ("type", type.toJson)]
  | .parameter name position type =>
    nodeToJson "parameter" [("name", .string name),
      ("position", .option (fun n : UInt32 => .int n.toNat) position), ("type", type.toJson)]
  | .columnRef column => nodeToJson "column_ref" [("column", column.toJson)]
  | .argumentRef name type =>
    nodeToJson "argument_ref" [("name", .string name), ("type", type.toJson)]
  | .call function arguments type =>
    nodeToJson "function_call" [("function", functionToJson function),
      ("arguments", .array (Node.listToJson arguments)), ("result_type", type.toJson)]
  | .aggregateCall function arguments type distinct orderBy limit =>
    nodeToJson "aggregate_function_call" [("function", functionToJson function),
      ("arguments", .array (Node.listToJson arguments)), ("result_type", type.toJson),
      ("distinct", .bool distinct), ("order_by", .list OrderItem.toJson orderBy),
      ("limit", Node.optionToJson limit)]
  | .analyticCall function arguments type distinct frame =>
    nodeToJson "analytic_function_call" [("function", functionToJson function),
      ("arguments", .array (Node.listToJson arguments)), ("result_type", type.toJson),
      ("distinct", .bool distinct), ("window_frame", Frame.optionToJson frame)]
  | .structField operand index type =>
    nodeToJson "get_struct_field" [("expr", operand.toJson), ("field_idx", .int index.toNat),
      ("type", type.toJson)]
  | .subquery kind query type =>
    nodeToJson "subquery_expr" [("subquery_type", .string kind.name), ("subquery", query.toJson),
      ("type", type.toJson)]
  | .columnDefault => .tagOnly "kind" "dml_default"
  | .singleRow => .tagOnly "kind" "single_row_scan"
  | .tableScan table columns =>
    nodeToJson "table_scan" [("table_name", .string table),
      ("column_list", .list Column.toJson columns)]
  | .arrayScan input array element =>
    nodeToJson "array_scan" [("input_scan", Node.optionToJson input), ("array_expr", array.toJson),
      ("element_column", element.toJson)]
  | .filterScan input condition =>
    nodeToJson "filter_scan" [("input_scan", input.toJson), ("filter_expr", condition.toJson)]
  | .projectScan columns computed input =>
    nodeToJson "project_scan" [("column_list", .list Column.toJson columns),
      ("expr_list", .array (ComputedColumn.listToJson computed)), ("input_scan", input.toJson)]
  | .aggregateScan columns input keys aggregates =>
    nodeToJson "aggregate_scan" [("column_list", .list Column.toJson columns),
      ("input_scan", input.toJson), ("group_by_list", .array (ComputedColumn.listToJson keys)),
      ("aggregate_list", .array (ComputedColumn.listToJson aggregates))]
  | .setOperation code branches =>
    nodeToJson "set_operation_scan" [("op_type", .int code.toInt),
      ("input_item_list", .array (SetBranch.listToJson branches))]
  | .orderByScan input items =>
    nodeToJson "order_by_scan" [("input_scan", input.toJson),
      ("order_by_item_list", .list OrderItem.toJson items)]
  | .limitScan input limit offset =>
    nodeToJson "limit_offset_scan" [("input_scan", input.toJson), ("limit", limit.toJson),
      ("offset", Node.optionToJson offset)]
  | .withScan entries query recursive =>
    nodeToJson "with_scan" [("with_entry_list", .array (NamedQuery.listToJson entries)),
      ("query", query.toJson), ("recursive", .bool recursive)]
  | .withRef name => nodeToJson "with_ref_scan" [("with_query_name", .string name)]
  | .analyticScan columns input groups =>
    nodeToJson "analytic_scan" [("column_list", .list Column.toJson columns),
      ("input_scan", input.toJson), ("function_group_list", .array (CallGroup.listToJson groups))]
  | .queryStmt columns query =>
    nodeToJson "query_stmt" [("output_column_list", .list Column.toJson columns),
      ("query", query.toJson)]
  | .insertStmt table columns rows query =>
    nodeToJson "insert_stmt" [("table_name", .string table),
      ("insert_column_list", .list Column.toJson columns),
      ("row_list", .array (Node.rowsToJson rows)), ("query", Node.optionToJson query)]
  | .deleteStmt table condition =>
    nodeToJson "delete_stmt" [("table_name", .string table),
      ("where_expr", Node.optionToJson condition)]
  | .updateStmt table assignments condition =>
    nodeToJson "update_stmt" [("table_name", .string table),
      ("update_item_list", .array (Assignment.listToJson assignments)),
      ("where_expr", Node.optionToJson condition)]
  | .unsupported kind => .tagged "kind" "unsupported" "node" (.string kind.name)
def Node.listToJson : List Node → List Json
  | [] => []
  | n :: r => n.toJson :: Node.listToJson r
def Node.optionToJson : Option Node → Json
  | none => .null
  | some n => n.toJson
def Node.valuesToJson : List Node → List Json
  | [] => []
  | n :: r => wrapValue n.toJson :: Node.valuesToJson r
def Node.rowsToJson : List (List Node) → List Json
  | [] => []
  | row :: r => wrapRow (Node.valuesToJson row) :: Node.rowsToJson r
def ComputedColumn.toJson : ComputedColumn → Json
  | ⟨column, expr⟩ => .object [("column", column.toJson), ("expr", expr.toJson)]
def ComputedColumn.listToJson : List ComputedColumn → List Json
  | [] => []
  | c :: r => c.toJson :: ComputedColumn.listToJson r
def Boundary.toJson : Boundary → Json
  | ⟨code, offset⟩ =>
    .object [("boundary_type", .int code.toInt), ("expression", Node.optionToJson offset)]
def Boundary.optionToJson : Option Boundary → Json
  | none => .null
  | some b => b.toJson
def Frame.toJson : Frame → Json
  | ⟨unit, first, last⟩ =>
    .object [("frame_unit", .int unit.toInt), ("start", Boundary.optionToJson first),
      ("end", Boundary.optionToJson last)]
def Frame.optionToJson : Option Frame → Json
  | none => .null
  | some f => f.toJson
def CallGroup.toJson : CallGroup → Json
  | ⟨partition, order, calls⟩ =>
    .object [("partition_by", .option partitionToJson partition),
      ("order_by", .option orderingToJson order),
      ("analytic_function_list", .array (ComputedColumn.listToJson calls))]
def CallGroup.listToJson : List CallGroup → List Json
  | [] => []
  | g :: r => g.toJson :: CallGroup.listToJson r
def SetBranch.toJson : SetBranch → Json
  | ⟨scan, columns⟩ =>
    .object [("scan", scan.toJson), ("output_column_list", .list Column.toJson columns)]
def SetBranch.listToJson : List SetBranch → List Json
  | [] => []
  | b :: r => b.toJson :: SetBranch.listToJson r
def NamedQuery.toJson : NamedQuery → Json
  | ⟨name, query⟩ => .object [("with_query_name", .string name), ("with_subquery", query.toJson)]
def NamedQuery.listToJson : List NamedQuery → List Json
  | [] => []
  | q :: r => q.toJson :: NamedQuery.listToJson r
def Assignment.toJson : Assignment → Json
  | ⟨target, value⟩ => .object [("target", target.refToJson), ("set_value", wrapValue value.toJson)]
def Assignment.listToJson : List Assignment → List Json
  | [] => []
  | a :: r => a.toJson :: Assignment.listToJson r
end

def Statement.toJson (s : Statement) : Json :=
  .object [("declared_path", .list .string s.declaredPath),
    ("name_paths", .list (.list .string) s.namePaths), ("statement", s.root.toJson)]

section Parts

variable (node : Decoder Node)

def ComputedColumn.decodeWith : Decoder ComputedColumn := fun p j => do
  let f ← Fields.ofRecord? ["column", "expr"] p j
  return ⟨← f.required "column" Column.decode, ← f.required "expr" node⟩

def Boundary.decodeWith : Decoder Boundary := fun p j => do
  let f ← Fields.ofRecord? ["boundary_type", "expression"] p j
  return ⟨← f.required "boundary_type" Decoder.int32,
    ← f.optional "expression" none (Decoder.option node)⟩

def Frame.decodeWith : Decoder Frame := fun p j => do
  let f ← Fields.ofRecord? ["frame_unit", "start", "end"] p j
  return ⟨← f.required "frame_unit" Decoder.int32,
    ← f.optional "start" none (Decoder.option (Boundary.decodeWith node)),
    ← f.optional "end" none (Decoder.option (Boundary.decodeWith node))⟩

def CallGroup.decodeWith : Decoder CallGroup := fun p j => do
  let f ← Fields.ofRecord? ["partition_by", "order_by", "analytic_function_list"] p j
  return ⟨← f.optional "partition_by" none (Decoder.option decodePartition),
    ← f.optional "order_by" none (Decoder.option decodeOrdering),
    ← f.required "analytic_function_list" (Decoder.list (ComputedColumn.decodeWith node))⟩

def SetBranch.decodeWith : Decoder SetBranch := fun p j => do
  let f ← Fields.ofRecord? ["scan", "output_column_list"] p j
  return ⟨← f.required "scan" node,
    ← f.optional "output_column_list" [] (Decoder.list Column.decode)⟩

def NamedQuery.decodeWith : Decoder NamedQuery := fun p j => do
  let f ← Fields.ofRecord? ["with_query_name", "with_subquery"] p j
  return ⟨← f.required "with_query_name" Decoder.string, ← f.required "with_subquery" node⟩

def decodeValueWith : Decoder Node := fun p j => do
  let f ← Fields.ofRecord? ["value"] p j
  f.required "value" node

def decodeRowWith : Decoder (List Node) := fun p j => do
  let f ← Fields.ofRecord? ["value_list"] p j
  f.required "value_list" (Decoder.list (decodeValueWith node))

def Assignment.decodeWith : Decoder Assignment := fun p j => do
  let f ← Fields.ofRecord? ["target", "set_value"] p j
  return ⟨← f.required "target" Column.decodeRef, ← f.required "set_value" (decodeValueWith node)⟩

def Node.decodeRecord (kind : String) : Decoder Node := fun p j => do
  match kind with
  | "literal" => do
    let f ← Fields.ofRecord? ["value", "type"] p j
    return .literal (← f.required "value" Value.decode) (← f.required "type" SqlType.decode)
  | "parameter" => do
    let f ← Fields.ofRecord? ["name", "position", "type"] p j
    return .parameter (← f.optional "name" "" Decoder.string)
      (← f.optional "position" none (Decoder.option Decoder.uint32))
      (← f.required "type" SqlType.decode)
  | "column_ref" => (Column.decodeRef p j).map .columnRef
  | "argument_ref" => do
    let f ← Fields.ofRecord? ["name", "type"] p j
    return .argumentRef (← f.required "name" Decoder.string) (← f.required "type" SqlType.decode)
  | "function_call" => do
    let f ← Fields.ofRecord? ["function", "arguments", "result_type"] p j
    return .call (← f.required "function" decodeFunction)
      (← f.optional "arguments" [] (Decoder.list node)) (← f.required "result_type" SqlType.decode)
  | "aggregate_function_call" => do
    let f ← Fields.ofRecord?
      ["function", "arguments", "result_type", "distinct", "order_by", "limit"] p j
    return .aggregateCall (← f.required "function" decodeFunction)
      (← f.optional "arguments" [] (Decoder.list node)) (← f.required "result_type" SqlType.decode)
      (← f.optional "distinct" false Decoder.bool)
      (← f.optional "order_by" [] (Decoder.list OrderItem.decode))
      (← f.optional "limit" none (Decoder.option node))
  | "analytic_function_call" => do
    let f ← Fields.ofRecord?
      ["function", "arguments", "result_type", "distinct", "window_frame"] p j
    return .analyticCall (← f.required "function" decodeFunction)
      (← f.optional "arguments" [] (Decoder.list node)) (← f.required "result_type" SqlType.decode)
      (← f.optional "distinct" false Decoder.bool)
      (← f.optional "window_frame" none (Decoder.option (Frame.decodeWith node)))
  | "get_struct_field" => do
    let f ← Fields.ofRecord? ["expr", "field_idx", "type"] p j
    return .structField (← f.required "expr" node) (← f.required "field_idx" Decoder.uint64)
      (← f.required "type" SqlType.decode)
  | "subquery_expr" => do
    let f ← Fields.ofRecord? ["subquery_type", "subquery", "type"] p j
    return .subquery
      (← f.optional "subquery_type" .scalar (Decoder.alternative SubqueryKind.ofName?))
      (← f.required "subquery" node) (← f.required "type" SqlType.decode)
  | "table_scan" => do
    let f ← Fields.ofRecord? ["table_name", "column_list"] p j
    return .tableScan (← f.required "table_name" Decoder.string)
      (← f.optional "column_list" [] (Decoder.list Column.decode))
  | "array_scan" => do
    let f ← Fields.ofRecord? ["input_scan", "array_expr", "element_column"] p j
    return .arrayScan (← f.optional "input_scan" none (Decoder.option node))
      (← f.required "array_expr" node) (← f.required "element_column" Column.decode)
  | "filter_scan" => do
    let f ← Fields.ofRecord? ["input_scan", "filter_expr"] p j
    return .filterScan (← f.required "input_scan" node) (← f.required "filter_expr" node)
  | "project_scan" => do
    let f ← Fields.ofRecord? ["column_list", "expr_list", "input_scan"] p j
    return .projectScan (← f.required "column_list" (Decoder.list Column.decode))
      (← f.optional "expr_list" [] (Decoder.list (ComputedColumn.decodeWith node)))
      (← f.required "input_scan" node)
  | "aggregate_scan" => do
    let f ← Fields.ofRecord? ["column_list", "input_scan", "group_by_list", "aggregate_list"] p j
    return .aggregateScan (← f.optional "column_list" [] (Decoder.list Column.decode))
      (← f.required "input_scan" node)
      (← f.optional "group_by_list" [] (Decoder.list (ComputedColumn.decodeWith node)))
      (← f.optional "aggregate_list" [] (Decoder.list (ComputedColumn.decodeWith node)))
  | "set_operation_scan" => do
    let f ← Fields.ofRecord? ["op_type", "input_item_list"] p j
    return .setOperation (← f.required "op_type" Decoder.int32)
      (← f.required "input_item_list" (Decoder.list (SetBranch.decodeWith node)))
  | "order_by_scan" => do
    let f ← Fields.ofRecord? ["input_scan", "order_by_item_list"] p j
    return .orderByScan (← f.required "input_scan" node)
      (← f.required "order_by_item_list" (Decoder.list OrderItem.decode))
  | "limit_offset_scan" => do
    let f ← Fields.ofRecord? ["input_scan", "limit", "offset"] p j
    return .limitScan (← f.required "input_scan" node) (← f.required "limit" node)
      (← f.optional "offset" none (Decoder.option node))
  | "with_scan" => do
    let f ← Fields.ofRecord? ["with_entry_list", "query", "recursive"] p j
    return .withScan (← f.required "with_entry_list" (Decoder.list (NamedQuery.decodeWith node)))
      (← f.required "query" node) (← f.optional "recursive" false Decoder.bool)
  | "with_ref_scan" => do
    let f ← Fields.ofRecord? ["with_query_name"] p j
    return .withRef (← f.required "with_query_name" Decoder.string)
  | "analytic_scan" => do
    let f ← Fields.ofRecord? ["column_list", "input_scan", "function_group_list"] p j
    return .analyticScan (← f.optional "column_list" [] (Decoder.list Column.decode))
      (← f.required "input_scan" node)
      (← f.required "function_group_list" (Decoder.list (CallGroup.decodeWith node)))
  | "query_stmt" => do
    let f ← Fields.ofRecord? ["output_column_list", "query"] p j
    return .queryStmt (← f.optional "output_column_list" [] (Decoder.list Column.decode))
      (← f.required "query" node)
  | "insert_stmt" => do
    let f ← Fields.ofRecord? ["table_name", "insert_column_list", "row_list", "query"] p j
    return .insertStmt (← f.required "table_name" Decoder.string)
      (← f.required "insert_column_list" (Decoder.list Column.decode))
      (← f.optional "row_list" [] (Decoder.list (decodeRowWith node)))
      (← f.optional "query" none (Decoder.option node))
  | "delete_stmt" => do
    let f ← Fields.ofRecord? ["table_name", "where_expr"] p j
    return .deleteStmt (← f.required "table_name" Decoder.string)
      (← f.optional "where_expr" none (Decoder.option node))
  | "update_stmt" => do
    let f ← Fields.ofRecord? ["table_name", "update_item_list", "where_expr"] p j
    return .updateStmt (← f.required "table_name" Decoder.string)
      (← f.required "update_item_list" (Decoder.list (Assignment.decodeWith node)))
      (← f.optional "where_expr" none (Decoder.option node))
  | "unsupported" => (Decoder.alternative UnsupportedKind.ofName? p j).map .unsupported
  | _ => none

end Parts

def Node.kinds : List String :=
  ["literal", "parameter", "column_ref", "argument_ref", "function_call",
    "aggregate_function_call", "analytic_function_call", "get_struct_field", "subquery_expr",
    "dml_default", "single_row_scan", "table_scan", "array_scan", "filter_scan", "project_scan",
    "aggregate_scan", "set_operation_scan", "order_by_scan", "limit_offset_scan", "with_scan",
    "with_ref_scan", "analytic_scan", "query_stmt", "insert_stmt", "delete_stmt", "update_stmt",
    "unsupported"]

def Node.decodeWithin : Nat → Decoder Node
  | 0, _, _ => none
  | depth + 1, p, j => do
    let t ← Tagged.ofJson? "kind" "node" Node.kinds p j
    match t.tag with
    | "dml_default" => t.empty .columnDefault
    | "single_row_scan" => t.empty .singleRow
    | kind => t.content? (Node.decodeRecord (Node.decodeWithin depth) kind)

/-- A nested node lies inside further brackets, so the bracket limit bounds the nesting. -/
def Node.decode : Decoder Node := Node.decodeWithin (Place.depthLimit + 1)

def Statement.decode : Decoder Statement := fun p j => do
  let f ← Fields.ofRecord? ["declared_path", "name_paths", "statement"] p j
  let path := Decoder.list Decoder.string
  return ⟨← f.optional "declared_path" [] path, ← f.optional "name_paths" [] (Decoder.list path),
    ← f.required "statement" Node.decode⟩

def Statement.ofText (text : String) : Except Error Statement :=
  match (Json.ofText? text).bind Statement.decode.ofTree with
  | some s => .ok s
  | none => .error .json

end ResolvedSql
