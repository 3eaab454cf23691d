import FlatSchema.Disk.Basic
import FlatSchema.Schema.Compile

/-!
Failures of a run, with two wordings: a message for a caller, and a report that spells out the
parts of the failure for the terminal.
-/

namespace FlatSchema

namespace Fault

/-- The number that the system gives to a fault; a name with a NUL never gets to the system. -/
def code? : Fault → Option Nat
  | notFound => some 2
  | notADirectory => some 20
  | isADirectory => some 21
  | nameTooLong => some 36
  | nulInName => none
  | other code _ _ => some code

def kind : Fault → String
  | notFound => "NotFound"
  | notADirectory => "NotADirectory"
  | isADirectory => "IsADirectory"
  | nameTooLong => "InvalidFilename"
  | nulInName => "InvalidInput"
  | other _ kind _ => kind

def text : Fault → String
  | notFound => "No such file or directory"
  | notADirectory => "Not a directory"
  | isADirectory => "Is a directory"
  | nameTooLong => "File name too long"
  | nulInName => "file name contained an unexpected NUL byte"
  | other _ _ text => text

end Fault

inductive Failure where
  | parse (error : ParseError)
  /-- A path that does not lead to a file. -/
  | notSchemaFile (path : String)
  /-- A file that is not UTF-8. -/
  | notText
  | system (fault : Fault)
  deriving DecidableEq, Repr

namespace Failure

def notSchemaFileText (path : String) : String :=
  path ++ " is not a schema file"

def notTextText : String :=
  "stream did not contain valid UTF-8"

def message : Failure → String
  | parse error => error.message
  | notSchemaFile path => "Include error: " ++ notSchemaFileText path
  | notText => "I/O error: " ++ notTextText
  | system fault =>
    "I/O error: " ++ fault.text ++
      (match fault.code? with
       | some code => " (os error " ++ toString code ++ ")"
       | none => "")

/-- A name with named parts in braces. -/
def record (name : String) (parts : List (String × String)) : String :=
  name ++ " \x7b " ++ ", ".intercalate (parts.map fun (key, value) => key ++ ": " ++ value) ++
    " \x7d"

def report : Failure → String
  | parse error =>
    record "ParseError"
      [("msg", Text.quoted error.reason), ("line", toString error.position.line),
       ("column", toString error.position.column)]
  | notSchemaFile path => "IncludeError(" ++ Text.quoted (notSchemaFileText path) ++ ")"
  | notText =>
    "Io(" ++ record "Error" [("kind", "InvalidData"), ("message", Text.quoted notTextText)] ++ ")"
  | system fault =>
    match fault.code? with
    | some code =>
      "Io(" ++ record "Os" [("code", toString code), ("kind", fault.kind),
        ("message", Text.quoted fault.text)] ++ ")"
    | none =>
      "Io(" ++ record "Error" [("kind", fault.kind), ("message", Text.quoted fault.text)] ++ ")"

end Failure

end FlatSchema
