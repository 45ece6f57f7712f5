import ResolvedSql.CommandLine.Run
set_option autoImplicit false

namespace ResolvedSql.CommandLine

/-- Files by the names on the way to them, and texts under absolute paths. There are no other
directories than those with a file somewhere below. -/
structure Folder where
  files : List (List String × String)
  absolute : List (String × String) := []
  deriving DecidableEq, Repr

namespace Folder

def idle (part : String) : Bool := part = "" || part = "."

def names (path : String) : List String := (path.splitOn "/").filter fun part => !idle part

def ofPaths (files absolute : List (String × String)) : Folder :=
  ⟨files.map fun (path, text) => (names path, text), absolute⟩

/-- Where a path has led so far: to a directory of the folder, to a file in it, or out of it. -/
inductive Spot where
  | directory (names : List String)
  | file (text : String)
  | outside
  deriving DecidableEq, Repr

def nameLimit : Nat := 255

def pathLimit : Nat := 4095

def find (folder : Folder) (names : List String) : Except ReadFault Spot :=
  match folder.files.lookup names with
  | some text => .ok (.file text)
  | none =>
    if folder.files.any fun f => names.isPrefixOf f.1 then .ok (.directory names)
    else .error .notFound

/-- Follows one part. Nothing is known about names outside the folder. -/
def follow (folder : Folder) : Spot → String → Except ReadFault Spot
  | .file _, _ => .error .notDirectory
  | spot, part =>
    if idle part then .ok spot
    else if part = ".." then
      match spot with
      | .directory (name :: above) => .ok (.directory (name :: above).dropLast)
      | _ => .ok .outside
    else if nameLimit < part.utf8ByteSize then .error .nameTooLong
    else
      match spot with
      | .directory above => folder.find (above ++ [part])
      | _ => .error .notFound

def locate (folder : Folder) (path : String) : Except ReadFault Spot :=
  let start := if path.startsWith "/" then .outside else .directory []
  (path.splitOn "/").foldlM folder.follow start

def read (folder : Folder) (path : String) : Except ReadFault String :=
  match folder.absolute.lookup path with
  | some text => .ok text
  | none =>
    if path = "" then .error .notFound
    else if pathLimit < path.utf8ByteSize then .error .nameTooLong
    else
      match folder.locate path with
      | .ok (.file text) => .ok text
      | .ok _ => .error .isDirectory
      | .error fault => .error fault

end Folder
end ResolvedSql.CommandLine
