import EffectLint.Report.Reporter

/-!
Command lines. A command is followed by its options and the file to read, in any order; after
`--` there are no more options.
-/

namespace EffectLint

inductive Command where
  -- report what is wrong with a module
  | Check
  -- show which of its statements have an effect
  | Dump
  deriving DecidableEq

inductive ColorChoice where
  -- only where it is read on a terminal
  | Auto
  | Always
  | Never
  deriving DecidableEq

inductive Flag where
  | WarningsAsErrors
  | NoWarnings
  | Json
  deriving DecidableEq

inductive Input where
  | Standard
  | File (path : String)
  deriving DecidableEq

structure Invocation where
  command : Command
  flags : List Flag
  input : Input
  color : ColorChoice
  deriving DecidableEq

inductive Misuse where
  | MissingCommand
  | UnknownCommand (name : String)
  | UnknownOption (option : String)
  | RepeatedOption (option : String)
  | UnneededValue (option : String)
  | MissingValue (option : String)
  | InvalidValue (option value : String)
  | ExtraArgument (argument : String)
  | EmptyPath
  | Conflict (option other : String)
  deriving DecidableEq

-- Why a command line runs nothing.
inductive Refusal where
  | Help
  | Misuse (misuse : Misuse)
  deriving DecidableEq

namespace Command

def name : Command → String
  | .Check => "check"
  | .Dump => "dump"

def all : List Command :=
  [.Check, .Dump]

def ofName? (name : String) : Option Command :=
  all.find? (·.name == name)

def flags : Command → List Flag
  | .Check => [.WarningsAsErrors, .NoWarnings, .Json]
  | .Dump => []

end Command

namespace ColorChoice

def ofName? (name : String) : Option ColorChoice :=
  match name with
  | "auto" => some .Auto
  | "always" => some .Always
  | "never" => some .Never
  | _ => none

def isColored (choice : ColorChoice) (isTerminal : Bool) : Bool :=
  match choice with
  | .Auto => isTerminal
  | .Always => true
  | .Never => false

end ColorChoice

namespace Flag

def name : Flag → String
  | .WarningsAsErrors => "warnings-as-errors"
  | .NoWarnings => "no-warnings"
  | .Json => "json"

def letter? : Flag → Option Char
  | .WarningsAsErrors => some 'w'
  | _ => none

def option (flag : Flag) : String :=
  "--" ++ flag.name

end Flag

namespace Input

-- A dash stands for standard input.
def ofArgument (argument : String) : Input :=
  if argument == "-" then .Standard else .File argument

-- How the input is named in a diagnostic.
def name : Input → String
  | .Standard => "<stdin>"
  | .File path => path

end Input

namespace Misuse

def message : Misuse → String
  | .MissingCommand => "a command is required"
  | .UnknownCommand name => "unknown command '" ++ name ++ "'"
  | .UnknownOption option => "unknown option '" ++ option ++ "'"
  | .RepeatedOption option => "option '" ++ option ++ "' is given twice"
  | .UnneededValue option => "option '" ++ option ++ "' takes no value"
  | .MissingValue option => "option '" ++ option ++ "' requires a value"
  | .InvalidValue option value => "invalid value '" ++ value ++ "' for option '" ++ option ++ "'"
  | .ExtraArgument argument => "unexpected argument '" ++ argument ++ "'"
  | .EmptyPath => "the name of a file cannot be empty"
  | .Conflict option other => "option '" ++ option ++ "' cannot be used with '" ++ other ++ "'"

end Misuse

-- What the arguments up to some point have given.
structure Given where
  command : Command
  flags : List Flag
  path : Option String
  color : Option ColorChoice

namespace Given

def refuse {α : Type} (misuse : Misuse) : Except Refusal α :=
  .error (.Misuse misuse)

variable (given : Given)

def addFlag (flag : Flag) : Except Refusal Given :=
  if flag ∈ given.flags then refuse (.RepeatedOption flag.option)
  else .ok { given with flags := given.flags ++ [flag] }

def addColor (value : String) : Except Refusal Given :=
  match ColorChoice.ofName? value with
  | none => refuse (.InvalidValue "--color" value)
  | some choice =>
      if given.color.isSome then refuse (.RepeatedOption "--color")
      else .ok { given with color := some choice }

def addPath (path : String) : Except Refusal Given :=
  if path.isEmpty then refuse .EmptyPath
  else if given.path.isSome then refuse (.ExtraArgument path)
  else .ok { given with path := some path }

-- Short options in one argument.
def addLetters (given : Given) : List Char → Except Refusal Given
  | [] => .ok given
  | letter :: rest =>
      if letter = 'h' then .error .Help
      else
        match given.command.flags.find? (·.letter? == some letter) with
        | none => refuse (.UnknownOption ("-" ++ letter.toString))
        | some flag => do
            let next ← given.addFlag flag
            addLetters next rest

-- A long option, with what stands behind an equals sign.
def addLong (name : String) (value : Option String) : Except Refusal Given :=
  if name == "color" then
    match value with
    | some value => given.addColor value
    | none => refuse (.MissingValue "--color")
  else if name == "help" then
    if value.isSome then refuse (.UnneededValue "--help") else .error .Help
  else
    match given.command.flags.find? (·.name == name) with
    | none => refuse (.UnknownOption ("--" ++ name))
    | some flag =>
        if value.isSome then refuse (.UnneededValue flag.option) else given.addFlag flag

-- The name of a long option and its value.
def splitValue (characters : List Char) : String × Option String :=
  let name := String.ofList (characters.takeWhile (· != '='))
  match characters.dropWhile (· != '=') with
  | [] => (name, none)
  | _ :: value => (name, some (String.ofList value))

-- An argument that does not take a second one.
def addArgument (argument : String) : Except Refusal Given :=
  match argument.toList with
  | '-' :: '-' :: long =>
      let (name, value) := splitValue long
      given.addLong name value
  | '-' :: letter :: letters => given.addLetters (letter :: letters)
  | _ => given.addPath argument

def addPaths (given : Given) : List String → Except Refusal Given
  | [] => .ok given
  | path :: rest => do
      let next ← given.addPath path
      addPaths next rest

-- A value cannot look like an option.
def isValue (argument : String) : Bool :=
  match argument.toList with
  | '-' :: _ :: _ => false
  | _ => true

def addArguments (given : Given) : List String → Except Refusal Given
  | [] => .ok given
  | argument :: rest =>
      if argument == "--" then given.addPaths rest
      else if argument == "--color" then
        match rest with
        | [] => refuse (.MissingValue argument)
        | value :: rest =>
            if isValue value then do
              let next ← given.addColor value
              addArguments next rest
            else refuse (.MissingValue argument)
      else do
        let next ← given.addArgument argument
        addArguments next rest

def finish : Except Refusal Invocation :=
  if .WarningsAsErrors ∈ given.flags ∧ .NoWarnings ∈ given.flags then
    refuse (.Conflict (Flag.option .WarningsAsErrors) (Flag.option .NoWarnings))
  else
    .ok ⟨given.command, given.flags, Input.ofArgument (given.path.getD "-"),
      given.color.getD .Auto⟩

end Given

namespace Invocation

-- Help on all commands or on one of them.
def readHelp : List String → Refusal
  | [] => .Help
  | [name] => if (Command.ofName? name).isSome then .Help else .Misuse (.UnknownCommand name)
  | _ :: argument :: _ => .Misuse (.ExtraArgument argument)

def ofArguments : List String → Except Refusal Invocation
  | [] => Given.refuse .MissingCommand
  | name :: rest =>
      match Command.ofName? name with
      | some command => do
          let given ← Given.addArguments ⟨command, [], none, none⟩ rest
          given.finish
      | none =>
          if name == "--help" || name == "-h" then .error .Help
          else if name == "help" then .error (readHelp rest)
          else Given.refuse (.UnknownCommand name)

def warnings (invocation : Invocation) : WarningMode :=
  if .WarningsAsErrors ∈ invocation.flags then .AsErrors
  else if .NoWarnings ∈ invocation.flags then .Off
  else .Informational

end Invocation

end EffectLint
