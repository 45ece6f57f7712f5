import ResolvedSql.Keyed
import ResolvedSql.Render.State
/-!
Fragments of SQL put together from rendered parts. A scan is a fragment that starts with `FROM`, a
whole query that starts with `SELECT`, or empty where a query reads no table.
-/
set_option autoImplicit false

namespace ResolvedSql.Render

open Text

def boolText (b : Bool) : String := if b then "true" else "false"

def callText (name : String) (args : List String) : String := name ++ "(" ++ commas args ++ ")"

/-- A call of a function that carries an option of another call, or takes an array apart. -/
def optionCall (lead name : String) (args : List String) : String :=
  lead ++ "_" ++ name ++ "_string(" ++ separated ", " args ++ ")"

/-- A parameter goes by its position only if it has no name. -/
def parameterText (name : String) (position : Option UInt32) : String :=
  match position with
  | some n => if name = "" then "?" ++ toString n.toNat else "@" ++ name
  | none => "@" ++ name

def orderText (item : OrderItem) : String :=
  quoteName item.column.name ++ (if item.descending then " DESC" else " ASC")

def orderArgument (lead : String) (item : OrderItem) : String :=
  optionCall lead "order_by" [quoteName item.column.name, boolText (!item.descending)]

def aggregateArguments (lead : String) (distinct : Bool) (orderBy : List OrderItem) : List String :=
  orderBy.map (orderArgument lead) ++ if distinct then [optionCall lead "distinct" []] else []

def windowArguments (lead : String) (distinct : Bool) (scope : AnalyticScope) : List String :=
  (if distinct then [optionCall lead "distinct" []] else []) ++
    scope.partition.map (fun column => optionCall lead "window_partition" [column]) ++
    scope.order.map (fun (column, ascending) =>
      optionCall lead "window_order_by" [column, boolText ascending])

/-- A window call reads its table again and finds its row by the row number. -/
def windowCallText (name : String) (args : List String) (table : String) : String :=
  "( SELECT " ++ callText name args ++ " FROM " ++ quoteName table ++ " )"

/-- What a projection selects: for each column the expression computed for it here, else one
computed below, else the column itself. An expression serves one column only. -/
def selectItems (own below : Keyed String) : List Column → List String
  | [] => []
  | c :: r =>
    match own.take c.name with
    | (some sql, own) => sql :: selectItems own below r
    | (none, _) =>
      match below.take c.name with
      | (some sql, below) => sql :: selectItems own below r
      | (none, _) => quoteName c.name :: selectItems own below r

theorem selectItems_find? (own below : Keyed String) (c : Column) (r : List Column) :
    selectItems own below (c :: r) =
      match own.find? c.name with
      | some sql => sql :: selectItems (own.erase c.name) below r
      | none =>
        match below.find? c.name with
        | some sql => sql :: selectItems own (below.erase c.name) r
        | none => quoteName c.name :: selectItems own below r := by
  rw [selectItems, Keyed.take, Keyed.take]
  cases own.find? c.name with
  | some sql => rfl
  | none => cases below.find? c.name <;> rfl

def selectText (items : List String) (input : String) : String :=
  if input = "" then "SELECT " ++ commas items else "SELECT " ++ commas items ++ " " ++ input

/-- Grouped rows may be filtered by `HAVING` only. -/
def filterKeyword : Node → String
  | .aggregateScan _ _ _ _ => "HAVING"
  | _ => "WHERE"

/-- A whole query is wrapped, so that the fragment can be grouped. -/
def groupSource (input : String) : String :=
  if startsWith "SELECT" input then "FROM ( " ++ input ++ " )" else input

def groupText (input : String) (keys : List String) : String :=
  if keys.isEmpty then groupSource input else groupSource input ++ " GROUP BY " ++ commas keys

def orderByText (input : String) (items : List OrderItem) : String :=
  if items.isEmpty then input else input ++ " ORDER BY " ++ commas (items.map orderText)

def analyticText (rowId input : String) (columns : List String) : String :=
  let numbered :=
    "FROM ( SELECT *, ROW_NUMBER() OVER() AS " ++ quoteName rowId ++ " " ++ input ++ " )"
  if columns.isEmpty then numbered else numbered ++ " ORDER BY " ++ commas columns

def arrayText (lead element array : String) : String :=
  "FROM ( SELECT json_each.value AS " ++ quoteName element ++ " FROM json_each(" ++
    optionCall lead "decode_array" [array] ++ ") )"

def whereText (statement condition : String) : String :=
  if condition = "" then statement else statement ++ " WHERE " ++ condition

def rowText (values : List String) : String := "(" ++ commas values ++ ")"

def insertText (table : String) (columns : List Column) (source : String) : String :=
  "INSERT INTO " ++ quoteName table ++ " (" ++ commas (columns.map fun c => quoteName c.name) ++
    ") " ++ source

def subqueryText (kind : SubqueryKind) (query : String) : String :=
  match kind with
  | .exists => "EXISTS (" ++ query ++ ")"
  | _ => query

def ownerOr (table : Option String) (c : Column) : Option String :=
  if c.tableName = "" then table else some c.tableName

def openGroup (group : CallGroup) (scope : AnalyticScope) : AnalyticScope :=
  let scope := scope.reset
  let partition := group.partition.getD []
  let order := group.order.getD []
  let met := partition ++ order.map (·.column)
  { table := met.foldl ownerOr scope.table
    columns := scope.columns ++ met.map fun c => quoteName c.name
    partition := scope.partition ++ partition.map fun c => quoteName c.name
    order := scope.order ++ order.map fun i => (quoteName i.column.name, !i.descending) }

def argumentTable (arg : Node) (table : Option String) : Option String :=
  match arg with
  | .columnRef c => ownerOr table c
  | _ => table

/-- A constant among the columns that rows are sorted by would be read as a column position. -/
def isConstant : Node → Bool
  | .literal _ _ | .parameter _ _ _ => true
  | _ => false

end ResolvedSql.Render
