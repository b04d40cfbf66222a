import ApiCatalog.Text.Numeral

/-!
# The grammar of the command line

A command has options, operands and further commands. `scan` reads arguments from left to right by
the usual rules: `--name value`, `--name=value`, `-nvalue`, clustered short options, `--` before
operands that may start with a hyphen. Options that every command has may be given at any level.
-/
namespace ApiCatalog.CommandLine

/-- The options of all commands. -/
inductive Flag where
  | state
  | config
  | verbose
  | help
  | version
  | workspace
  | watch
  | target
  | timeout
  deriving DecidableEq, Repr

/-- How often an option may be given at one level and what its value may be. -/
inductive Arity where
  /-- No value, at most once. -/
  | switch
  /-- Stops the reading. -/
  | request
  | text
  /-- A value that is not empty. -/
  | path
  | word
  /-- A text, any number of times. -/
  | many
  deriving DecidableEq, Repr

structure OptionSpec where
  flag : Flag
  long : String
  short : Option Char
  arity : Arity
  deriving DecidableEq, Repr

structure Command where
  name : String
  options : List OptionSpec
  operands : Nat
  commands : List Command
  deriving Repr, Inhabited

/-- Why there is nothing to run. -/
inductive Stop where
  | usage
  | help
  | version
  deriving DecidableEq, Repr, Inhabited

/-- What is given at one level. -/
structure Level where
  command : String
  given : List (Flag × String)
  operands : List String
  deriving DecidableEq, Repr, Inhabited

/-- Adds an option with its value, or the reason to stop there. -/
def give (option : OptionSpec) (value : String) (given : List (Flag × String)) :
    Except Stop (List (Flag × String)) :=
  let fits := match option.arity with
    | .path => value != ""
    | .word => (Text.word? value).isSome
    | _ => true
  if option.arity = .request then
    .error (if option.flag = .version then .version else .help)
  else if !fits then .error .usage
  else if option.arity ≠ .many && given.any fun g => g.1 == option.flag then .error .usage
  else .ok (given ++ [(option.flag, value)])

def OptionSpec.takesValue (option : OptionSpec) : Bool :=
  option.arity != .switch && option.arity != .request

/-- What an argument with options leaves behind. -/
inductive Taken where
  | done (given : List (Flag × String))
  /-- The next argument is the value. -/
  | pending (option : OptionSpec) (given : List (Flag × String))

/-- Reads `name` or `name=value`, without the hyphens. -/
def long (options : List OptionSpec) (name : String) (value : Option String)
    (given : List (Flag × String)) : Except Stop Taken :=
  match options.find? (·.long == name) with
  | none => .error .usage
  | some option =>
    match option.takesValue, value with
    | true, some value => (give option value given).map .done
    | true, none => .ok (.pending option given)
    | false, some _ => .error .usage
    | false, none => (give option "" given).map .done

/-- Reads short options, without the hyphen. The rest after an option with a value is its value. -/
def cluster (options : List OptionSpec) : List Char → List (Flag × String) → Except Stop Taken
  | [], given => .ok (.done given)
  | c :: rest, given =>
    match options.find? (·.short == some c) with
    | none => .error .usage
    | some option =>
      if option.takesValue then
        match rest with
        | [] => .ok (.pending option given)
        | '=' :: value => (give option (String.ofList value) given).map .done
        | value => (give option (String.ofList value) given).map .done
      else
        match give option "" given with
        | .ok given => cluster options rest given
        | .error stop => .error stop

/-- The text before the first equals sign, and the text after it if there is one. -/
def cutValue : List Char → List Char × Option (List Char)
  | [] => ([], none)
  | c :: rest =>
    if c = '=' then ([], some rest)
    else
      let (name, value) := cutValue rest
      (c :: name, value)

/-- Reads an argument that starts with a hyphen, `none` if it is an operand. -/
def option? (options : List OptionSpec) (argument : String) (given : List (Flag × String)) :
    Option (Except Stop Taken) :=
  match argument.toList with
  | '-' :: '-' :: rest =>
    let (name, value) := cutValue rest
    some (long options (String.ofList name) (value.map String.ofList) given)
  | '-' :: c :: rest => some (cluster options (c :: rest) given)
  | _ => none

/-- Whether an argument can be the value of an option before it. -/
def isValue (argument : String) : Bool :=
  argument == "-" || !argument.startsWith "-"

/-- The command that a request for help is about has to exist. -/
def helpPath (command : Command) : List String → Stop
  | [] => .help
  | name :: rest =>
    match command.commands.find? (·.name == name) with
    | some inner => helpPath inner rest
    | none =>
      if name = "help" && !command.commands.isEmpty && rest.isEmpty then .help else .usage

/-- Reads operands only. -/
def operands (command : Command) (level : Level) : List String → Except Stop Level
  | [] => .ok level
  | argument :: rest =>
    if level.operands.length < command.operands then
      operands command { level with operands := level.operands ++ [argument] } rest
    else .error .usage

/-- Adds a value that was an argument of its own, if there is one. -/
def settle (pending : Option (OptionSpec × String)) (given : List (Flag × String)) :
    Except Stop (List (Flag × String)) :=
  match pending with
  | none => .ok given
  | some (option, value) => give option value given

/-- Reads the arguments after the name of a command. The levels are given outermost first. A value
that is an argument of its own is pending: it is checked when the level goes on or ends, so that a
request for help at a level below it comes first. -/
def scan (command : Command) (level : Level) (pending : Option (OptionSpec × String)) :
    List String → Except Stop (List Level)
  | [] =>
    if command.commands.isEmpty then
      (settle pending level.given).map fun given => [{ level with given }]
    else .error .usage
  | argument :: rest =>
    match command.commands.find? (·.name == argument) with
    | some inner =>
      match scan inner ⟨inner.name, [], []⟩ none rest with
      | .error stop => .error stop
      | .ok levels => (settle pending level.given).map fun given => { level with given } :: levels
    | none =>
      if argument = "help" && !command.commands.isEmpty then .error (helpPath command rest)
      else
        match settle pending level.given with
        | .error stop => .error stop
        | .ok given =>
          if argument = "--" then
            if command.commands.isEmpty then
              (operands command { level with given } rest).map ([·])
            else .error .usage
          else
            match option? command.options argument given with
            | none =>
              if level.operands.length < command.operands then
                scan command { level with given, operands := level.operands ++ [argument] } none rest
              else .error .usage
            | some (.error stop) => .error stop
            | some (.ok (.done given)) => scan command { level with given } none rest
            | some (.ok (.pending option given)) =>
              match rest with
              | [] => .error .usage
              | value :: rest =>
                if isValue value then
                  scan command { level with given } (some (option, value)) rest
                else .error .usage

end ApiCatalog.CommandLine
