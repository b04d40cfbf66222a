import ApiCatalog.Client.Error
import ApiCatalog.Store.Call
import ApiCatalog.Time.Duration

/-!
# What clients do

Clients call a store, write lines and wait. Time passes as their surroundings say; a client only
asks for the time since some fixed moment.
-/
namespace ApiCatalog

inductive Action where
  | call (c : Call)
  /-- Writes the pieces of a line one after the other. If one fails, those before it stay. -/
  | write (pieces : List String)
  | flush
  | clock
  | sleep (length : Duration)
  deriving DecidableEq, Inhabited

namespace Action

/-- Writing fails with the text of an error. -/
abbrev Answer : Action → Type
  | call c => c.Answer
  | write _ => Except String Unit
  | flush => Except String Unit
  | clock => Duration
  | sleep _ => Unit

end Action

/-- How a client ends before its work is done. -/
inductive Halt where
  | failed (e : ClientError)
  /-- It was still waiting when it was given up. -/
  | unfinished
  deriving Inhabited

/-- A client, which may halt. -/
abbrev Client := ExceptT Halt (Program Action.Answer)

namespace Client

def fail {α : Type} (e : ClientError) : Client α := throw (.failed e)

/-- Does one action. -/
def act (action : Action) : Client action.Answer := ExceptT.lift (Program.query action)

/-- Writes a line and halts if that fails. -/
def print (pieces : List String) : Client Unit := do
  match ← act (.write (pieces ++ ["\n"])) with
  | .ok () => return ()
  | .error reason => fail (.output reason)

/-- Flushes the output and halts if that fails. -/
def flush : Client Unit := do
  match ← act .flush with
  | .ok () => return ()
  | .error reason => fail (.output reason)

/-- Halts with the collected errors, if there are any. -/
def conclude (errors : List ClientError) : Client Unit :=
  match ClientError.all errors with
  | .ok () => return ()
  | .error e => fail e

end Client
end ApiCatalog
