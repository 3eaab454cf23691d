/-!
Command line arguments. An option with a value is written `--name value`, `--name=value`,
`-n value`, `-nvalue` or `-n=value`; a flag is `--name` alone. After `--` every argument is an
operand. Names are not abbreviated, nothing is given twice, and a value is never empty.

Arguments are read from left to right and each is checked as it is read, so the first one that
asks for help or is refused decides. What a command still misses is seen only at the end.
-/

namespace FlatSchema

/-- Why there is no command to run. -/
inductive Usage where
  | helpRequested
  | invalid
  deriving DecidableEq, Repr

inductive Argument where
  | option (name value : String)
  | flag (name : String)
  | operand (value : String)
  deriving DecidableEq, Repr

/-- The arguments that a command knows. -/
structure KnownArguments where
  /-- Options with a value: the long name and the letter. -/
  options : List (String × Char) := []
  /-- Flags, by their long names. -/
  flags : List String := []
  takesOperands : Bool := false

/-- What a command has been given. -/
structure Given where
  /-- The values of options, by their long names. -/
  options : List (String × String) := []
  flags : List String := []
  operands : List String := []
  deriving DecidableEq, Repr

namespace Argument

/-- Whether an argument can only be an option: a lone dash is a value. -/
def isOptionLike (argument : String) : Bool :=
  argument.toList.head? = some '-' && argument ≠ "-"

/-- The part before the first equals sign, and the part after it if there is one. -/
def splitAtEquals (characters : List Char) : String × Option String :=
  let name := characters.takeWhile (· ≠ '=')
  match characters.dropWhile (· ≠ '=') with
  | [] => (String.ofList name, none)
  | _ :: value => (String.ofList name, some (String.ofList value))

/-- The value attached to a letter, with or without an equals sign. -/
def attachedValue : List Char → Option String
  | [] => none
  | '=' :: value => some (String.ofList value)
  | value => some (String.ofList value)

/-- What an argument says, apart from a value that the next argument has to give. -/
inductive Reading where
  | complete (argument : Argument)
  | needsValue (name : String)

/-- Reads `--name` or `--name=value`, without the dashes. -/
def readLong (known : KnownArguments) (characters : List Char) : Except Usage Reading :=
  let (name, value?) := splitAtEquals characters
  if known.options.any (·.1 = name) then
    match value? with
    | some value => .ok (.complete (.option name value))
    | none => .ok (.needsValue name)
  else if value?.isSome then
    .error .invalid
  else if known.flags.contains name then
    .ok (.complete (.flag name))
  else if name = "help" then
    .error .helpRequested
  else
    .error .invalid

/-- Reads a letter with what is attached to it. -/
def readShort (known : KnownArguments) (letter : Char) (attached : List Char) : Except Usage Reading :=
  match known.options.find? (·.2 = letter) with
  | some (name, _) =>
    match attachedValue attached with
    | some value => .ok (.complete (.option name value))
    | none => .ok (.needsValue name)
  | none => if letter = 'h' then .error .helpRequested else .error .invalid

/-- Reads one argument other than `--`. -/
def read (known : KnownArguments) (argument : String) : Except Usage Reading :=
  match argument.toList with
  | '-' :: '-' :: characters => readLong known characters
  | '-' :: letter :: attached => readShort known letter attached
  | _ => .ok (.complete (.operand argument))

end Argument

namespace Given

/-- Adds an argument, unless it is empty, given already or not taken at all. -/
def add (known : KnownArguments) (given : Given) : Argument → Except Usage Given
  | .option name value =>
    if value.isEmpty || (given.options.lookup name).isSome then
      .error .invalid
    else
      .ok { given with options := given.options ++ [(name, value)] }
  | .flag name =>
    if given.flags.contains name then
      .error .invalid
    else
      .ok { given with flags := given.flags ++ [name] }
  | .operand value =>
    if value.isEmpty || !known.takesOperands then
      .error .invalid
    else
      .ok { given with operands := given.operands ++ [value] }

/-- Adds arguments one after the other. The value of an option cannot look like an option. -/
def read (known : KnownArguments) (given : Given) : List String → Except Usage Given
  | [] => .ok given
  | argument :: rest => do
    if argument = "--" then
      (rest.map Argument.operand).foldlM (add known) given
    else
      match ← Argument.read known argument with
      | .complete argument => read known (← given.add known argument) rest
      | .needsValue name =>
        match rest with
        | [] => .error .invalid
        | value :: rest =>
          if Argument.isOptionLike value then
            .error .invalid
          else
            read known (← given.add known (.option name value)) rest

def value? (given : Given) (name : String) : Option String :=
  given.options.lookup name

/-- The value of an option that a command cannot do without. -/
def value (given : Given) (name : String) : Except Usage String :=
  match given.value? name with
  | some value => .ok value
  | none => .error .invalid

def isSet (given : Given) (flag : String) : Bool :=
  given.flags.contains flag

end Given

end FlatSchema
