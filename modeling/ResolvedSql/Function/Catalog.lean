import ResolvedSql.SqlType
set_option autoImplicit false

namespace ResolvedSql

inductive Catalog where
  | scalar
  | aggregate
  | window
  deriving DecidableEq, Repr

namespace Catalog

def scalarNames : List String :=
  ["abs", "acos", "acosh", "array_concat", "array_length", "array_reverse", "array_to_string",
    "ascii", "asin", "asinh", "atan", "atan2", "atanh", "bit_count", "byte_length", "cbrt",
    "ceil", "ceiling", "char_length", "character_length", "chr", "code_points_to_bytes",
    "code_points_to_string", "coalesce", "concat", "cos", "cosh", "current_date",
    "current_datetime", "current_time", "current_timestamp", "date", "date_add", "date_diff",
    "date_from_unix_date", "date_sub", "date_trunc", "datetime", "datetime_add", "datetime_diff",
    "datetime_sub", "datetime_trunc", "div", "ends_with", "exp", "extract", "farm_fingerprint",
    "floor", "format", "format_date", "format_datetime", "format_time", "format_timestamp",
    "from_base32", "from_base64", "from_hex", "generate_array", "generate_date_array",
    "generate_timestamp_array", "greatest", "if", "ifnull", "ieee_divide", "initcap", "instr",
    "is_inf", "is_nan", "json_extract", "json_extract_scalar", "json_query", "json_value",
    "last_day", "least", "left", "length", "ln", "log", "log10", "lower", "lpad", "ltrim", "md5",
    "mod", "nullif", "offset", "ordinal", "parse_date", "parse_datetime", "parse_json",
    "parse_time", "parse_timestamp", "pow", "power", "rand", "regexp_contains", "regexp_extract",
    "regexp_extract_all", "regexp_instr", "regexp_replace", "repeat", "replace", "reverse",
    "right", "round", "rpad", "rtrim", "safe_cast", "safe_divide", "safe_multiply",
    "safe_negate", "safe_offset", "safe_ordinal", "safe_subtract", "safe_add", "sha1", "sha256",
    "sha512", "sign", "sin", "sinh", "split", "sqrt", "starts_with", "strpos", "substr",
    "substring", "tan", "tanh", "time", "time_add", "time_diff", "time_sub", "time_trunc",
    "timestamp", "timestamp_add", "timestamp_diff", "timestamp_micros", "timestamp_millis",
    "timestamp_seconds", "timestamp_sub", "timestamp_trunc", "to_base32", "to_base64",
    "to_code_points", "to_hex", "to_json", "to_json_string", "translate", "trim", "trunc",
    "unicode", "unix_date", "unix_micros", "unix_millis", "unix_seconds", "upper"]

def aggregateNames : List String :=
  ["any_value", "approx_count_distinct", "approx_quantiles", "approx_top_count",
    "approx_top_sum", "array_agg", "array_concat_agg", "avg", "bit_and", "bit_or", "bit_xor",
    "corr", "count", "countif", "covar_pop", "covar_samp", "logical_and", "logical_or", "max",
    "min", "stddev", "stddev_pop", "stddev_samp", "string_agg", "sum", "var_pop", "var_samp",
    "variance"]

def windowNames : List String :=
  ["any_value", "array_agg", "avg", "count", "countif", "cume_dist", "dense_rank", "first_value",
    "lag", "last_value", "lead", "logical_and", "logical_or", "max", "min", "nth_value", "ntile",
    "percent_rank", "percentile_cont", "percentile_disc", "rank", "row_number", "stddev",
    "stddev_pop", "stddev_samp", "string_agg", "sum", "var_pop", "var_samp", "variance"]

def names : Catalog → List String
  | .scalar => scalarNames
  | .aggregate => aggregateNames
  | .window => windowNames

def contains (c : Catalog) (name : String) : Bool := c.names.contains name

def stem (c : Catalog) (lead : String) : String :=
  match c with
  | .window => lead ++ "_window"
  | _ => lead

def mangle (c : Catalog) (lead name : String) (type : SqlType) : String :=
  c.stem lead ++ "_" ++ name ++ "_" ++ type.family

/-- The bare name of a builtin: what follows a leading `$`, or a name the catalog has. -/
def builtin? (c : Catalog) (name : String) : Option String :=
  match name.toList with
  | '$' :: bare => some (String.ofList bare)
  | _ => if c.contains name then some name else none

end Catalog
end ResolvedSql
