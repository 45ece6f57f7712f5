import ResolvedSql.CommandLine.Run
set_option autoImplicit false

namespace ResolvedSql.CommandLine

def systemCode (code : UInt32) : UInt32 := if code < 0x80000000 then code else 0 - code

def readFault (e : IO.Error) : ReadFault :=
  match e with
  | .noFileOrDirectory _ _ _ => .notFound
  | .inappropriateType _ code _ =>
    if systemCode code = 21 then .isDirectory else .notDirectory
  | .invalidArgument _ code _ =>
    if systemCode code = 36 then .nameTooLong else .other (toString e)
  | .permissionDenied _ _ _ => .other "Permission denied (os error 13)"
  | e => .other (toString e)

def textOf (bytes : IO ByteArray) : IO (Except ReadFault String) := do
  try
    match String.fromUTF8? (← bytes) with
    | some text => return .ok text
    | none => return .error .notText
  catch e => return .error (readFault e)

def configDirectory : IO (Option String) := do
  match ← IO.getEnv "XDG_CONFIG_HOME" with
  | some directory => if directory.startsWith "/" then return some directory
  | none => pure ()
  return (← IO.getEnv "HOME").map (· ++ "/.config")

def systemHost : IO (Host IO) := do
  return {
    fileText := fun path => textOf (IO.FS.readBinFile path)
    inputText := textOf do (← IO.getStdin).readBinToEnd
    configFile := ← IO.getEnv "BQLITE_CONFIG"
    defaultConfigFile := (← configDirectory).map (· ++ "/bqlite/config.toml") }

end ResolvedSql.CommandLine

open ResolvedSql.CommandLine in
def main (args : List String) : IO UInt32 := do
  let output ← run (← systemHost) args
  IO.print output.stdout
  IO.eprint output.stderr
  return output.exitCode
