import ResolvedSql.Tree.Unsupported
set_option autoImplicit false

namespace ResolvedSql

inductive Inexpressible where
  | kind (k : UnsupportedKind)
  | joinedArrayScan
  | recursiveWith
  deriving DecidableEq, Repr

inductive ContractBreach where
  | rowsAndQuery
  | noRowsNorQuery
  | rowWidth (row values columns : Nat)
  | noAssignments
  | noOffset (boundary : Int32)
  deriving DecidableEq, Repr

inductive ConfigFault where
  | functionPrefix (text : String)
  | emptyRowIdColumn
  | malformed
  deriving DecidableEq, Repr

inductive Error where
  | unsupported (what : Inexpressible)
  | unknownSetOperation (code : Int32)
  | unknownBoundary (code : Int32)
  | unknownFrameUnit (code : Int32)
  | namePathsExhausted (index available : Nat)
  | noAnalyticScope
  | arityMismatch (function : String) (placeholders arguments : Nat)
  | malformedBody (function near : String)
  | contract (breach : ContractBreach)
  | encode (reason : String)
  | cancelled
  | config (fault : ConfigFault)
  | json
  deriving DecidableEq, Repr

def Inexpressible.name : Inexpressible → String
  | .kind k => k.name
  | .joinedArrayScan => "array_scan with input_scan"
  | .recursiveWith => "recursive with_scan"

def codeText (code : Int32) : String := toString code.toInt

def ContractBreach.message : ContractBreach → String
  | .rowsAndQuery => "insert has both a row list and a query"
  | .noRowsNorQuery => "insert has neither rows nor a query"
  | .rowWidth row values columns =>
    "insert row " ++ toString row ++ " has " ++ toString values ++ " values for " ++
      toString columns ++ " columns"
  | .noAssignments => "update without assignments"
  | .noOffset boundary =>
    "window boundary " ++ codeText boundary ++ " requires an offset expression"

def ConfigFault.message : ConfigFault → String
  | .functionPrefix text => "function_prefix '" ++ text ++ "' must be a non-empty identifier"
  | .emptyRowIdColumn => "row_id_column must not be empty"
  | .malformed => "TOML parse error"

def Error.message : Error → String
  | .unsupported what => "Unsupported node: " ++ what.name
  | .unknownSetOperation code => "Unknown set operation type: " ++ codeText code
  | .unknownBoundary code => "Unknown window boundary type: " ++ codeText code
  | .unknownFrameUnit code => "Unknown window frame unit: " ++ codeText code
  | .namePathsExhausted index available =>
    "Name path cursor exhausted: reference #" ++ toString index ++ " requested but only " ++
      toString available ++ " name paths supplied"
  | .noAnalyticScope =>
    "Analytic function call has no correlation table (not inside an analytic scan?)"
  | .arityMismatch function placeholders arguments =>
    "Function '" ++ function ++ "' expects " ++ toString placeholders ++
      " argument(s) but was called with " ++ toString arguments
  | .malformedBody function near =>
    "Malformed body for function '" ++ function ++ "' near: " ++ near
  | .contract breach => "Contract violation: " ++ breach.message
  | .encode reason => "Encode error: " ++ reason
  | .cancelled => "Translation cancelled"
  | .config fault => "Configuration error: " ++ fault.message
  | .json => "JSON error"

end ResolvedSql
