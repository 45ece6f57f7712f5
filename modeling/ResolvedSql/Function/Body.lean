import ResolvedSql.Error
import ResolvedSql.Json.Decoder
import ResolvedSql.Json.Reader
import ResolvedSql.Keyed
/-!
Bodies of user functions: SQL text in which each `?` outside quotes stands for an argument. A body
is cut into placeholders and runs of text; a quoted part, from its quote to the next one of its
kind, is text whatever it holds. Calling the function puts the arguments in place of the marks. A
registry has bodies by flattened name, and what is written later replaces what was there.
-/
set_option autoImplicit false

namespace ResolvedSql

structure FunctionBody where
  text : String
  deriving DecidableEq, Repr

namespace FunctionBody

inductive Segment where
  | placeholder
  | text (cs : List Char)
  deriving DecidableEq, Repr

def isQuote (c : Char) : Bool := c = '\'' || c = '"' || c = '`'

def isPlain (c : Char) : Bool := !(c = '?' || isQuote c)

/-- The segments from the front of `cs`, and what is left from the first quote that never closes. -/
def segments (cs : List Char) : List Segment × List Char :=
  match cs with
  | [] => ([], [])
  | c :: r =>
    if c = '?' then
      let (ss, rest) := segments r
      (.placeholder :: ss, rest)
    else if isQuote c then
      match _h : r.dropWhile (fun d => d ≠ c) with
      | [] => ([], c :: r)
      | q :: after =>
        let (ss, rest) := segments after
        (.text (c :: (r.takeWhile (fun d => d ≠ c) ++ [q])) :: ss, rest)
    else
      let (ss, rest) := segments (r.dropWhile isPlain)
      (.text (c :: r.takeWhile isPlain) :: ss, rest)
termination_by cs.length
decreasing_by
  · simp
  · have := (List.dropWhile_suffix (fun d => decide (d ≠ c)) (l := r)).length_le
    rw [_h] at this
    simp only [List.length_cons] at *
    omega
  · have := (List.dropWhile_suffix isPlain (l := r)).length_le
    simp only [List.length_cons]
    omega

def nearLength : Nat := 20

def scan (function : String) (b : FunctionBody) : Except Error (List Segment) :=
  match segments b.text.toList with
  | (ss, []) => .ok ss
  | (_, rest) => .error (.malformedBody function (String.ofList (rest.take nearLength)))

def placeholders (ss : List Segment) : Nat := ss.countP (· = .placeholder)

def splice : List Segment → List String → List Char
  | [], _ => []
  | .text cs :: ss, args => cs ++ splice ss args
  | .placeholder :: ss, arg :: args => arg.toList ++ splice ss args
  | .placeholder :: ss, [] => splice ss []

def inline (b : FunctionBody) (function : String) (args : List String) : Except Error String := do
  let ss ← b.scan function
  if placeholders ss = args.length then
    return "( " ++ String.ofList (splice ss args) ++ " )"
  else throw (.arityMismatch function (placeholders ss) args.length)

def toJson (b : FunctionBody) : Json := .object [("body", .string b.text)]

def decode : Decoder FunctionBody := fun p j => do
  let f ← Fields.ofRecord? ["body"] p j
  return ⟨← f.required "body" Decoder.string⟩

end FunctionBody

abbrev Registry := Keyed FunctionBody

namespace Registry

def decodeEntries : Decoder (List (String × FunctionBody))
  | p, .object members => do
    let p ← p.inside?
    members.mapM fun (name, j) => (FunctionBody.decode p j).map (name, ·)
  | _, _ => none

def register (name : String) (body : FunctionBody) : EStateM Error Registry Unit :=
  modify (·.insert name body)

def load (text : String) : EStateM Error Registry Unit :=
  match (Json.ofText? text).bind decodeEntries.ofTree with
  | some entries => modify (·.insertAll entries)
  | none => throw .json

end Registry
end ResolvedSql
