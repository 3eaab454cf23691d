import FlatSchema.Load.Resolver

/-!
Programs at work. A machine has its files as they are in each state, and it may refuse to write a
file or to print a text. A process is a state of the machine with what has been printed so far. An
action changes the process as it goes, so where an action stops, all that was done before it stays
done.
-/

namespace FlatSchema

inductive StandardStream where
  | output
  | error
  deriving DecidableEq, Repr

/-- What becomes of a text that is printed. -/
structure Printing where
  shown : String
  /-- What the system has to say where it refuses to print, which stops the program. -/
  refusal : Option String := none
  deriving DecidableEq, Repr

/-- What programs find in the states of a machine, and what it does for them. -/
structure Machine (State : Type) where
  files : State → FileSystem
  /-- Replaces the content of the file that a path leads to, which is created if need be. -/
  write : State → String → List UInt8 → Except Fault Unit × State
  print : State → StandardStream → String → Printing

/-- A disk is a machine that prints whatever it is given. -/
def Workspace.machine : Machine Workspace where
  files := Workspace.fileSystem
  write workspace path content :=
    match workspace.disk.write workspace.current path content with
    | .error fault => (.error fault, workspace)
    | .ok disk => (.ok (), { workspace with disk })
  print _ _ text := { shown := text }

/-- Why a program stops before its end. -/
inductive Stop where
  | failed (failure : Failure)
  | refused (notice : String)
  deriving DecidableEq, Repr

namespace Stop

/-- The exit code. -/
def code : Stop → Nat
  | failed _ => 1
  | refused _ => 101

/-- What the error stream is given at the end. -/
def report : Stop → String
  | failed failure => "Error: " ++ failure.report ++ "\n"
  | refused notice => notice

end Stop

structure Process (State : Type) where
  state : State
  stdout : String := ""
  stderr : String := ""

/-- Adds a text to what has been printed. -/
def Process.add {State : Type} (process : Process State) (stream : StandardStream) (text : String) :
    Process State :=
  match stream with
  | .output => { process with stdout := process.stdout ++ text }
  | .error => { process with stderr := process.stderr ++ text }

/-- A part of what a program does, with a result at its end if it does not stop before. -/
abbrev Action (State α : Type) : Type :=
  ExceptT Stop (StateM (Process State)) α

namespace Action

variable {State : Type} (machine : Machine State)

/-- Loads a schema from the files as they are. -/
def load (path : String) : Action State Schema := do
  match Schema.load (machine.files (← get).state) path with
  | .error failure => throw (.failed failure)
  | .ok schema => return schema

def print (stream : StandardStream) (text : String) : Action State Unit := do
  let process ← get
  let printing := machine.print process.state stream text
  set (process.add stream printing.shown)
  match printing.refusal with
  | none => return ()
  | some notice => throw (.refused notice)

/-- Replaces the content of a file, which is created if need be. -/
def write (path text : String) : Action State Unit := do
  let process ← get
  let (result, state) := machine.write process.state path (utf8Bytes text)
  set { process with state }
  match result with
  | .error fault => throw (.failed (.system fault))
  | .ok _ => return ()

end Action

end FlatSchema
