import FlatSchema.Command.Arguments
import FlatSchema.Command.Process
import FlatSchema.Json.Dump
import FlatSchema.Swift.Source

/-!
The commands and what they do. A command loads schemas and makes one text of them. Then it writes
the text to a file if one is named, and otherwise it prints it. The first thing that fails ends the
run.
-/

namespace FlatSchema

inductive Command where
  /-- Swift source for a schema and all that it includes. -/
  | generate (input : String) (output : Option String) (withImport : Bool)
  /-- Container types for the namespaces of some schemas. -/
  | containers (inputs : List String) (output : Option String)
  /-- The JSON form of a schema. -/
  | dump (input : String)
  deriving DecidableEq, Repr

/-- How argument lists are read. -/
structure Reader where
  read : List String → Except Usage Command
  /-- What is printed instead where there is no command. -/
  usageText : List String → Usage → String

/-- What a run leaves behind. -/
structure Outcome (State : Type) extends Process State where
  code : Nat

def Outcome.disk (outcome : Outcome Workspace) : Disk :=
  outcome.state.disk

namespace Usage

/-- The exit code. -/
def code : Usage → Nat
  | helpRequested => 0
  | invalid => 2

/-- Where the text goes that is printed instead of a command. -/
def stream : Usage → StandardStream
  | helpRequested => .output
  | invalid => .error

end Usage

namespace Command

def inputOption : String × Char := ("input", 'i')

def outputOption : String × Char := ("output", 'o')

def readGenerate (arguments : List String) : Except Usage Command := do
  let known : KnownArguments :=
    { options := [inputOption, outputOption], flags := ["no-import"] }
  let given ← Given.read known {} arguments
  return generate (← given.value "input") (given.value? "output") (!given.isSet "no-import")

def readContainers (arguments : List String) : Except Usage Command := do
  let given ← Given.read { options := [outputOption], takesOperands := true } {} arguments
  if given.operands.isEmpty then
    throw .invalid
  return containers given.operands (given.value? "output")

def readDump (arguments : List String) : Except Usage Command := do
  let given ← Given.read { options := [inputOption] } {} arguments
  return dump (← given.value "input")

/-- Help may be asked for in general or about one of the commands. -/
def readHelp : List String → Usage
  | [] => .helpRequested
  | [topic] =>
    if ["gen-swift", "namespaces", "dump", "help"].contains topic then .helpRequested else .invalid
  | _ => .invalid

/-- The command that an argument list asks for. -/
def ofArguments : List String → Except Usage Command
  | [] => .error .invalid
  | "gen-swift" :: arguments => readGenerate arguments
  | "namespaces" :: arguments => readContainers arguments
  | "dump" :: arguments => readDump arguments
  | "help" :: arguments => .error (readHelp arguments)
  | argument :: _ =>
    match Argument.read {} argument with
    | .error usage => .error usage
    | .ok _ => .error .invalid

/-- The text of a command, made of schemas that are loaded one after the other. -/
def compose {m : Type → Type} [Monad m] (load : String → m Schema) : Command → m String
  | generate input _ withImport => do return Swift.source (← load input) withImport
  | containers inputs _ => do return Swift.containerSource (← inputs.mapM load)
  | dump input => do return (← load input).dump

/-- The text that a command gives for the files as they are. -/
def text (files : FileSystem) (command : Command) : Except Failure String :=
  command.compose (Schema.load files)

/-- The file that a command writes to. -/
def output? : Command → Option String
  | generate _ output _ => output
  | containers _ output => output
  | dump _ => none

/-- The files that a command reads first. -/
def inputs : Command → List String
  | generate input _ _ => [input]
  | containers inputs _ => inputs
  | dump input => [input]

section Machines

variable {State : Type} (machine : Machine State)

/-- Writes or prints a text. -/
def deliver (output? : Option String) (text : String) : Action State Unit :=
  match output? with
  | none => Action.print machine .output (text ++ "\n")
  | some path => do
    Action.write machine path text
    Action.print machine .error ("Written to " ++ path ++ "\n")

def perform (command : Command) : Action State Unit := do
  deliver machine command.output? (← command.compose (Action.load machine))

/-- Runs a command to its end. Why it stops is reported behind whatever the run has done before, as
far as the error stream takes it. -/
def run (state : State) (command : Command) : Outcome State :=
  let (result, process) := (command.perform machine).run.run { state }
  match result with
  | .ok _ => { process with code := 0 }
  | .error stop =>
    let reported := machine.print process.state .error stop.report
    { process.add .error reported.shown with code := stop.code }

/-- Runs the command of an argument list. -/
def runWith (reader : Reader) (state : State) (arguments : List String) : Outcome State :=
  match reader.read arguments with
  | .ok command => command.run machine state
  | .error usage =>
    let printed := machine.print state usage.stream (reader.usageText arguments usage)
    { Process.add { state } usage.stream printed.shown with code := usage.code }

end Machines

def help : String :=
  "Generate Swift from FlatBuffers schemas\n\n" ++
  "Commands:\n" ++
  "  gen-swift   --input <FILE> [--output <FILE>] [--no-import]\n" ++
  "  namespaces  <FILE>... [--output <FILE>]\n" ++
  "  dump        --input <FILE>\n" ++
  "  help        [COMMAND]\n"

/-- Reads arguments in their usual spellings. -/
def reader : Reader where
  read := ofArguments
  usageText _ _ := help

/-- Runs the command of an argument list on a disk. -/
def runArguments (workspace : Workspace) (arguments : List String) : Outcome Workspace :=
  runWith Workspace.machine reader workspace arguments

end Command

end FlatSchema
