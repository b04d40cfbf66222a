import ApiCatalog.CommandLine.Grammar

/-!
# Invocations

The commands of the program and what a command line asks for. A command line that asks for nothing
that can be run gives the reason (`Stop`).
-/
namespace ApiCatalog.CommandLine

inductive Task where
  | controller (workspaces : List String) (watch : Bool)
  | list (catalogWorkspace : String) (name : Option String)
  | bind (entryRef target : String) (timeout : Option UInt64)
  deriving DecidableEq, Repr

structure Invocation where
  state : Option String
  config : Option String
  verbose : Bool
  task : Task
  deriving DecidableEq, Repr

def stateOption : OptionSpec := ⟨.state, "state", none, .path⟩

/-- The options that every command has. -/
def commonOptions : List OptionSpec :=
  [stateOption, ⟨.config, "config", none, .path⟩, ⟨.verbose, "verbose", some 'v', .switch⟩,
    ⟨.help, "help", some 'h', .request⟩]

def controllerCommand : Command :=
  ⟨"controller",
    [⟨.workspace, "workspace", some 'w', .many⟩, ⟨.watch, "watch", none, .switch⟩] ++ commonOptions,
    0, []⟩

def listCommand : Command :=
  ⟨"list", commonOptions, 0, [⟨"catalogentry", commonOptions, 2, []⟩]⟩

def bindCommand : Command :=
  ⟨"bind", commonOptions, 0,
    [⟨"catalogentry",
      [⟨.target, "target", some 't', .text⟩, ⟨.timeout, "timeout", none, .word⟩] ++ commonOptions,
      1, []⟩]⟩

def program : Command :=
  ⟨"kcp-catalog", commonOptions ++ [⟨.version, "version", some 'V', .request⟩], 0,
    [controllerCommand, listCommand, bindCommand]⟩

namespace Level

/-- The values given for an option, in order. -/
def values (level : Level) (flag : Flag) : List String :=
  (level.given.filter (·.1 == flag)).map Prod.snd

def value? (level : Level) (flag : Flag) : Option String := (level.values flag).head?

def has (level : Level) (flag : Flag) : Bool := (level.value? flag).isSome

end Level

/-- The value at the innermost level where the option is given. -/
def innermost? (levels : List Level) (flag : Flag) : Option String :=
  levels.reverse.findSome? (·.value? flag)

/-- The task of the levels below the program; a missing argument makes it unusable. -/
def task? : List Level → Option Task
  | [level] =>
    if level.command = "controller" && level.has .workspace then
      some (.controller (level.values .workspace) (level.has .watch))
    else none
  | [outer, level] =>
    match outer.command, level.operands with
    | "list", [workspace] => some (.list workspace none)
    | "list", [workspace, name] => some (.list workspace (some name))
    | "bind", [entryRef] => (level.value? .target).map fun target =>
      .bind entryRef target ((level.value? .timeout).bind Text.word?)
    | _, _ => none
  | _ => none

/-- Reads a command line. `fallback` stands in for the option `--state` where it is not given; it
has to be a path wherever it stands in. -/
def parse (fallback : Option String) (arguments : List String) : Except Stop Invocation :=
  match scan program ⟨program.name, [], []⟩ none arguments with
  | .error stop => .error stop
  | .ok levels =>
    if fallback = some "" && levels.any (!·.has .state) then .error .usage
    else
      match task? levels.tail with
      | none => .error .usage
      | some task => .ok {
          state := (innermost? levels .state).or fallback
          config := innermost? levels .config
          verbose := levels.any (·.has .verbose)
          task }

end ApiCatalog.CommandLine
