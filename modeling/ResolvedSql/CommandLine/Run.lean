import ResolvedSql.CommandLine.Arguments
import ResolvedSql.Config.File
import ResolvedSql.Statement
set_option autoImplicit false

namespace ResolvedSql.CommandLine

inductive ReadFault where
  | notFound
  | notDirectory
  | isDirectory
  | nameTooLong
  | notText
  | other (reason : String)
  deriving DecidableEq, Repr

def ReadFault.message : ReadFault → String
  | .notFound => "No such file or directory (os error 2)"
  | .notDirectory => "Not a directory (os error 20)"
  | .isDirectory => "Is a directory (os error 21)"
  | .nameTooLong => "File name too long (os error 36)"
  | .notText => "stream did not contain valid UTF-8"
  | .other reason => reason

structure Host (m : Type → Type) where
  fileText : String → m (Except ReadFault String)
  inputText : m (Except ReadFault String)
  configFile : Option String
  /-- The file that is read if nobody names one, and if it exists. -/
  defaultConfigFile : Option String

structure Output where
  exitCode : UInt32
  stdout : String
  stderr : String
  deriving DecidableEq, Repr

def Output.success (stdout : String) : Output := ⟨0, stdout, ""⟩

def errorLine (message : String) : String := "Error: " ++ message ++ "\n"

def Output.failure (message : String) : Output := ⟨1, "", errorLine message⟩

def lines (texts : List String) : String := String.join (texts.map (· ++ "\n"))

def usageText : String :=
  lines ["bqlite: BigQuery statements on SQLite", "", "Usage: bqlite <INPUT> [OPTIONS]", "",
    "Try: bqlite --help"]

def helpText : String :=
  lines ["Translate resolved BigQuery statements into SQLite SQL", "",
    "Usage: bqlite [OPTIONS] [INPUT] [COMMAND]", "",
    "Commands:",
    "  builtins [--catalog scalar|aggregate|window]  List builtin function names of a catalog",
    "  config                                        Print the effective configuration", "",
    "Options:",
    "      --functions <FILE>     JSON object of user function bodies keyed by flattened name",
    "  -c, --config <FILE>        Config file (defaults to the user config dir)",
    "      --prefix <PREFIX>      Override the emulation function prefix",
    "  -f, --format <sql|json>    Output format",
    "  -v, --verbose              Verbose output",
    "  -h, --help                 Print help",
    "  -V, --version              Print version"]

def Stop.message : Stop → String
  | .unknownArgument => "unexpected argument"
  | .unexpectedValue => "unexpected value for an option that takes none"
  | .missingValue => "a value is required for an option"
  | .invalidValue => "invalid value for an option"
  | .repeatedOption => "an option cannot be used multiple times"
  | .help | .version => ""

/-- Faulty arguments exit with another code than faulty input. -/
def Stop.output : Stop → Output
  | .help => .success helpText
  | .version => .success "bqlite 0.1.0\n"
  | fault => ⟨2, "", "error: " ++ fault.message ++ "\n"⟩

def builtinsText (catalog : Catalog) (config : Config) : String :=
  lines (["Mangled as " ++ catalog.stem config.functionPrefix ++ "_<name>_<family>", ""] ++
    catalog.names.map ("  " ++ ·) ++ ["", toString catalog.names.length ++ " builtin(s)"])

def resultText (format : Format) (sql : String) : String :=
  match format with
  | .sql => lines [sql]
  | .json => lines ["\x7b", "  \"sql\": " ++ (Json.string sql).text, "\x7d"]

def notes (s : Statement) (registry : Registry) : String :=
  lines ["Statement: " ++ s.root.kind, "Name paths: " ++ toString s.namePaths.length,
    "Inline functions: " ++ toString registry.size]

def statementOutput (a : Arguments) (config : Config) (s : Statement) (registry : Registry) :
    Output :=
  let before := if a.verbose then notes s registry else ""
  match (s.toSql { config := config, registry := registry }).result with
  | .ok sql => ⟨0, resultText (a.format.getD .sql) sql, before⟩
  | .error e => ⟨1, "", before ++ errorLine e.message⟩

section

variable {m : Type → Type} [Monad m] (host : Host m)

def readNamed (path : String) : ExceptT String m String := do
  match ← (host.fileText path : m _) with
  | .ok text => return text
  | .error fault => throw ("failed to read " ++ path ++ ": " ++ fault.message)

def configOf (text : String) : ExceptT String m Config :=
  match Config.ofToml text with
  | .ok config => return config
  | .error e => throw e.message

/-- A file that should be there; its fault is shown by itself and again as its own cause. -/
def readConfig (path : String) : ExceptT String m Config := do
  match ← (host.fileText path : m _) with
  | .ok text => configOf text
  | .error fault => throw ("IO error: " ++ fault.message ++ ": " ++ fault.message)

def readDefaultConfig : ExceptT String m Config := do
  match host.defaultConfigFile with
  | none => return {}
  | some path =>
    match ← (host.fileText path : m _) with
    | .error .notFound | .error .notDirectory => return {}
    | _ => readConfig host path

def loadConfig (a : Arguments) : ExceptT String m Config := do
  let config ← match a.config with
    | none => readDefaultConfig host
    | some path => readConfig host path |>.adapt ("failed to load config " ++ path ++ ": " ++ ·)
  match a.functionPrefix with
  | none => return config
  | some lead =>
    let config := { config with functionPrefix := lead }
    match config.validate with
    | .ok _ => return config
    | .error e => throw e.message

def loadStatement (input : String) : ExceptT String m Statement := do
  let text ← if input = "-" then
      match ← (host.inputText : m _) with
      | .ok text => pure text
      | .error fault => throw fault.message
    else readNamed host input
  match Statement.ofText text with
  | .ok s => return s
  | .error _ => throw "invalid statement tree"

def loadRegistry (a : Arguments) : ExceptT String m Registry := do
  match a.functions with
  | none => return ∅
  | some path =>
    match (Registry.load (← readNamed host path)).run ∅ with
    | .ok _ registry => return registry
    | .error e _ => throw e.message

/-- Loads the configuration whatever is asked for, then does it. A statement is read before the
functions it may call. -/
def execute (a : Arguments) : ExceptT String m Output := do
  let config ← loadConfig host a
  match a.command, a.input with
  | some (.builtins catalog), _ => return .success (builtinsText catalog config)
  | some .config, _ => return .success (lines [config.toToml])
  | none, none => return .success usageText
  | none, some input =>
    let s ← loadStatement host input
    let registry ← loadRegistry host a
    return statementOutput a config s registry

def run (args : List String) : m Output := do
  match Arguments.parse args host.configFile with
  | .error stop => return stop.output
  | .ok a =>
    match ← (execute host a).run with
    | .ok output => return output
    | .error message => return .failure message

end

end ResolvedSql.CommandLine
