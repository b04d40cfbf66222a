import ApiCatalog.Command.Machine
import ApiCatalog.Config
import ApiCatalog.Reconcile.Pass
import ApiCatalog.Reconcile.Watch
import ApiCatalog.Store.File

/-!
# The controller

The controller reconciles the entries of some partitions, once or until it is interrupted. It works
on the store that the state file holds.
-/
namespace ApiCatalog.Controller

variable {m : Type → Type} [Monad m] (machine : Machine m) (config : Config)

/-- A computation on the opened store. -/
abbrev Session (m : Type → Type) := StateT Memory m

/-- Answers a call from the opened store. -/
def answer (call : Call) : Session m call.Answer :=
  FileStore.answer config.statePath (machine.write config.statePath) machine.suffix call

/-- One pass, which nothing cancels. -/
def pass (request : Request) : Session m (Except PassError Outcome) := do
  let now ← machine.now
  (reconcile config.schemaPolicy now request).run fun step =>
    (step.calls lookup).run (answer machine config)

/-- The line about the pass of a request. -/
def report (request : Request) (result : Except PassError Outcome) : String :=
  request.display ++ ": " ++
    match result with
    | .ok outcome => outcome.description
    | .error e => "error: " ++ e.message

/-- Handles the requests in order and gives the number of those that failed. -/
def reconcileEach : List Request → Session m Nat
  | [] => pure 0
  | request :: rest => do
    let result ← pass machine config request
    let _ ← machine.print (report request result ++ "\n")
    let failed ← reconcileEach rest
    return failed + if result.toBool then 0 else 1

/-- One pass over every entry of every partition. -/
def reconcileOnce : List Partition → Session m Nat
  | [] => pure 0
  | partition :: rest => do
    let entries := (← get).listEntries partition
    let failed ← reconcileEach machine config (entries.map (Request.forEntry partition))
    let others ← reconcileOnce rest
    return failed + others

def once (partitions : List Partition) : Session m (Except Failure Unit) := do
  let failed ← reconcileOnce machine config partitions
  if failed = 0 then return .ok ()
  else return .error ⟨toString failed ++ " catalog entries failed to reconcile", none⟩

def summary (s : Loop.Stats) : String :=
  "processed " ++ toString s.processed ++ " (updated " ++ toString s.updated ++ ", unchanged " ++
    toString s.unchanged ++ ", gone " ++ toString s.gone ++ ", failed " ++ toString s.failed ++ ")"

def failureOf (e : PassError) : Failure := ⟨e.message, e.source?.map StoreError.message⟩

/-- Asks for a pass over every entry of the partitions. -/
def enqueue : List Partition → Queue → Session m (Except PassError Queue)
  | [], queue => return .ok queue
  | partition :: rest, queue => do
    match ← (Trigger.enqueueAll partition queue).run (answer machine config) with
    | (.error e, _) => return .error e
    | (.ok _, queue) => enqueue rest queue

/-- Follows the changes of the partitions until interrupted, in at most `patience` passes. -/
def watch (patience : Nat) (partitions : List Partition) : Session m (Except Failure Unit) := do
  let start := Watch.State.start (← get).published.length
  match ← enqueue machine config partitions start.queue with
  | .error e => return .error (failureOf e)
  | .ok queue =>
    let limits : Loop.Limits := ⟨config.maxConsecutiveErrors, false⟩
    let rest ← Watch.settle limits partitions (return (← get).published) (answer machine config)
      (pass machine config) patience { start with queue }
    match rest with
    | .finished (.error e) => return .error (failureOf e)
    | .finished (.ok stats) =>
      let _ ← machine.print (summary stats ++ "\n")
      return .ok ()
    | .idle state =>
      machine.interrupt
      let _ ← machine.print (summary state.tally.stats ++ "\n")
      return .ok ()

end ApiCatalog.Controller
