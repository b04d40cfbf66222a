import ApiCatalog.Client.Binding
import ApiCatalog.Client.Listing
import ApiCatalog.Command.Controller
import ApiCatalog.CommandLine.Invocation

/-!
# Running the program

A run reads the command line, then the configuration, and then does the task. Whatever goes wrong
ends the run with a complaint and an exit code other than 0.
-/
namespace ApiCatalog.Command

variable {m : Type → Type} [Monad m] (machine : Machine m)

def versionLine : String := "kcp-catalog 0.1.0\n"

def usageText : String :=
  "Usage: kcp-catalog [OPTIONS] <COMMAND>\n\n" ++
    "Commands:\n" ++
    "  controller  Reconcile catalog entries against their referenced exports\n" ++
    "  list        List the APIs made available by catalog entries\n" ++
    "  bind        Bind the exports of a catalog entry into a workspace\n"

/-- A failure of which another one is the cause. -/
def within (context cause : String) : Failure := ⟨context, some cause⟩

def openStore (config : Config) : m (Except Failure Memory) := do
  match FileStore.opened config.statePath (← machine.read config.statePath) with
  | .ok store => return .ok store
  | .error e => return .error (within ("Failed to open state file " ++ config.statePath) e.message)

/-- The partitions of the workspaces, or the first one that is no partition. -/
def partitions : List String → Except Failure (List Partition)
  | [] => .ok []
  | workspace :: rest =>
    match Partition.ofString workspace with
    | .error e => .error (within ("Invalid workspace path '" ++ workspace ++ "'") e.message)
    | .ok partition => (partitions rest).map (partition :: ·)

/-- Does what a client asks for. -/
def perform (config : Config) : (action : Action) → Controller.Session m action.Answer
  | .call c => Controller.answer machine config c
  | .write pieces => machine.print (String.join pieces)
  | .flush => machine.flush
  | .clock => machine.clock
  | .sleep length => machine.sleep length

/-- Runs a client on the opened store. -/
def client {α : Type} (config : Config) (c : Client α) (store : Memory) :
    m (Except Failure Unit) := do
  match (← (Program.run (perform machine config) c.run).run store).1 with
  | .ok _ => return .ok ()
  | .error (.failed e) => return .error (.ofClient e)
  | .error .unfinished => return .error ⟨"gave up waiting", none⟩

/-- Does the task of an invocation. -/
def execute (patience : Nat) (config : Config) : CommandLine.Task → m (Except Failure Unit)
  | .controller workspaces watch => do
    match partitions workspaces with
    | .error failure => return .error failure
    | .ok partitions =>
      match ← openStore machine config with
      | .error failure => return .error failure
      | .ok store =>
        if watch then return (← (Controller.watch machine config patience partitions).run store).1
        else return (← (Controller.once machine config partitions).run store).1
  | .list catalogWorkspace name => do
    match ← openStore machine config with
    | .error failure => return .error failure
    | .ok store => client machine config (Listing.run ⟨catalogWorkspace, name⟩) store
  | .bind entryRef target timeout => do
    match Partition.ofString target with
    | .error e => return .error (within ("Invalid target workspace '" ++ target ++ "'") e.message)
    | .ok partition =>
      match ← openStore machine config with
      | .error failure => return .error failure
      | .ok store =>
        let timeout := (timeout.map fun n => Duration.ofSeconds n.toNat).getD config.bindTimeout
        let options : Binding.Options := ⟨entryRef, partition, timeout, config.pollInterval⟩
        client machine config (Binding.run patience options) store

/-- The configuration of an invocation: a file, then the environment, then the command line. -/
def configure (environment? : String → Option String) (invocation : CommandLine.Invocation) :
    m (Except Failure Config) := do
  let start ← match invocation.config with
    | none => pure (.ok Config.default)
    | some path => do
      let content ← machine.read path
      pure (Config.ofFile path content)
  match start with
  | .error e => return .error (within "Configuration could not be loaded" e.message)
  | .ok config =>
    let config := config.withEnvironment environment?
    return .ok { config with statePath := invocation.state.getD config.statePath }

/-- A run of the program; `patience` bounds the looks and passes of one that waits. -/
def run (patience : Nat) (environment? : String → Option String) (arguments : List String) :
    m Exit := do
  match CommandLine.parse (environment? Config.stateVariable) arguments with
  | .error .usage => return ⟨2, usageText⟩
  | .error .help =>
    let _ ← machine.print usageText
    return ⟨0, ""⟩
  | .error .version =>
    let _ ← machine.print versionLine
    return ⟨0, ""⟩
  | .ok invocation =>
    match ← configure machine environment? invocation with
    | .error failure => return ⟨1, failure.text⟩
    | .ok config =>
      match ← execute machine patience config invocation.task with
      | .error failure => return ⟨1, failure.text⟩
      | .ok () => return ⟨0, ""⟩

end ApiCatalog.Command
