import ResolvedSql.Function.Catalog
set_option autoImplicit false

namespace ResolvedSql.CommandLine

inductive Format where
  | sql
  | json
  deriving DecidableEq, Repr

inductive Command where
  | builtins (catalog : Catalog)
  | config
  deriving DecidableEq, Repr

structure Arguments where
  input : Option String := none
  functions : Option String := none
  config : Option String := none
  functionPrefix : Option String := none
  format : Option Format := none
  verbose : Bool := false
  command : Option Command := none
  deriving DecidableEq, Repr

inductive Stop where
  | help
  | version
  | unknownArgument
  | unexpectedValue
  | missingValue
  | invalidValue
  | repeatedOption
  deriving DecidableEq, Repr

inductive Switch where
  | functions
  | config
  | functionPrefix
  | format
  | verbose
  | version
  | help
  deriving DecidableEq, Repr

namespace Switch

def ofLong? : String → Option Switch
  | "functions" => some .functions
  | "config" => some .config
  | "prefix" => some .functionPrefix
  | "format" => some .format
  | "verbose" => some .verbose
  | "version" => some .version
  | "help" => some .help
  | _ => none

def ofShort? : Char → Option Switch
  | 'c' => some .config
  | 'f' => some .format
  | 'v' => some .verbose
  | 'V' => some .version
  | 'h' => some .help
  | _ => none

def takesValue : Switch → Bool
  | .functions | .config | .functionPrefix | .format => true
  | .verbose | .version | .help => false

end Switch

def Format.ofName? : String → Option Format
  | "sql" => some .sql
  | "json" => some .json
  | _ => none

def catalogOfName? : String → Option Catalog
  | "scalar" => some .scalar
  | "aggregate" => some .aggregate
  | "window" => some .window
  | _ => none

def once {α : Type} (place : Option α) (value : α) : Except Stop (Option α) :=
  if place.isSome then .error .repeatedOption else .ok (some value)

def valid {α : Type} (value : Option α) : Except Stop α :=
  match value with
  | some a => .ok a
  | none => .error .invalidValue

def path? (text : String) : Option String := if text = "" then none else some text

namespace Arguments

def assign (a : Arguments) (s : Switch) (value : String) : Except Stop Arguments :=
  match s with
  | .functions => do return { a with functions := ← once a.functions (← valid (path? value)) }
  | .config => do return { a with config := ← once a.config (← valid (path? value)) }
  | .functionPrefix => do return { a with functionPrefix := ← once a.functionPrefix value }
  | .format => do return { a with format := ← once a.format (← valid (Format.ofName? value)) }
  | .verbose | .version | .help => .error .unexpectedValue

def turnOn (a : Arguments) : Switch → Except Stop Arguments
  | .verbose => if a.verbose then .error .repeatedOption else .ok { a with verbose := true }
  | .version => .error .version
  | .help => .error .help
  | .functions | .config | .functionPrefix | .format => .error .missingValue

def addInput (a : Arguments) (text : String) : Except Stop Arguments :=
  match a.input with
  | none => .ok { a with input := some text }
  | some _ => .error .unknownArgument

end Arguments

def splitLong (cs : List Char) : String × Option String :=
  let name := String.ofList (cs.takeWhile (· != '='))
  match cs.dropWhile (· != '=') with
  | [] => (name, none)
  | _ :: value => (name, some (String.ofList value))

/-- A long option: the arguments with it, or the option whose value is still to come. -/
def readLong (a : Arguments) (cs : List Char) : Except Stop (Arguments × Option Switch) :=
  let (name, value) := splitLong cs
  match Switch.ofLong? name, value with
  | none, _ => .error .unknownArgument
  | some s, some value => (a.assign s value).map (·, none)
  | some s, none => if s.takesValue then .ok (a, some s) else (a.turnOn s).map (·, none)

/-- Short options in one argument; the first that takes a value takes the rest for it. -/
def readShort (a : Arguments) : List Char → Except Stop (Arguments × Option Switch)
  | [] => .ok (a, none)
  | c :: r =>
    match Switch.ofShort? c with
    | none => .error .unknownArgument
    | some s =>
      if s.takesValue then
        match r with
        | [] => .ok (a, some s)
        | '=' :: value => (a.assign s (String.ofList value)).map (·, none)
        | value => (a.assign s (String.ofList value)).map (·, none)
      else do readShort (← a.turnOn s) r

def isOption (arg : String) : Bool :=
  match arg.toList with
  | '-' :: _ :: _ => true
  | _ => false

def readNothing : List String → Except Stop Unit
  | [] => .ok ()
  | "--" :: r => if r.isEmpty then .ok () else .error .unknownArgument
  | "--help" :: _ => .error .help
  | arg :: _ => if "-h".toList.isPrefixOf arg.toList then .error .help else .error .unknownArgument

def readBuiltins : List String → Bool → Option Catalog → Except Stop Catalog
  | [], true, _ => .error .missingValue
  | [], false, catalog => .ok (catalog.getD .scalar)
  | arg :: r, true, catalog =>
    if isOption arg then .error .missingValue
    else do readBuiltins r false (← once catalog (← valid (catalogOfName? arg)))
  | arg :: r, false, catalog =>
    match arg.toList with
    | '-' :: '-' :: cs =>
      match splitLong cs with
      | ("catalog", none) => readBuiltins r true catalog
      | ("catalog", some value) => do
        readBuiltins r false (← once catalog (← valid (catalogOfName? value)))
      | _ => (readNothing (arg :: r)).map fun _ => catalog.getD .scalar
    | _ => (readNothing (arg :: r)).map fun _ => catalog.getD .scalar

def readHelp : List String → Stop
  | [] => .help
  | [name] => if ["builtins", "config", "help"].contains name then .help else .unknownArgument
  | _ => .unknownArgument

def readPlain (a : Arguments) : List String → Except Stop Arguments
  | [] => .ok a
  | arg :: r => do readPlain (← a.addInput arg) r

/-- Reads arguments; `awaiting` is the option whose value comes next. -/
def read : List String → Option Switch → Arguments → Except Stop Arguments
  | [], none, a => .ok a
  | [], some _, _ => .error .missingValue
  | arg :: r, some s, a =>
    if isOption arg then .error .missingValue else do read r none (← a.assign s arg)
  | arg :: r, none, a =>
    match arg with
    | "builtins" => do return { a with command := some (.builtins (← readBuiltins r false none)) }
    | "config" => do
      readNothing r
      return { a with command := some .config }
    | "help" => .error (readHelp r)
    | "--" => readPlain a r
    | arg =>
      match arg.toList with
      | '-' :: '-' :: cs => do
        let (a, awaiting) ← readLong a cs
        read r awaiting a
      | '-' :: c :: cs => do
        let (a, awaiting) ← readShort a (c :: cs)
        read r awaiting a
      | _ => do read r none (← a.addInput arg)

def Arguments.parse (args : List String) (configFile : Option String) : Except Stop Arguments := do
  let a ← read args none {}
  match a.config, configFile with
  | none, some file => a.assign .config file
  | _, _ => return a

end ResolvedSql.CommandLine
