import ApiCatalog.Client.Action
import ApiCatalog.Content
import ApiCatalog.Time.Instant

/-!
# The machine a command runs on

A command reads and writes files, prints, reads clocks and makes up names. It runs on any machine
that can do so.
-/
namespace ApiCatalog

structure Machine (m : Type → Type) where
  read : String → m (Except FileFault Content)
  write : String → Content → m (Except FileFault Unit)
  /-- Prints a text as it is. -/
  print : String → m (Except String Unit)
  flush : m (Except String Unit)
  /-- The time since some fixed moment. -/
  clock : m Duration
  sleep : Duration → m Unit
  /-- The time of day. -/
  now : m Instant
  /-- The end of a generated name. -/
  suffix : m String
  /-- Returns when the user asks the program to stop. -/
  interrupt : m Unit

/-- Why a command fails, and what caused that. -/
structure Failure where
  message : String
  cause : Option String
  deriving DecidableEq, Repr, Inhabited

namespace Failure

/-- The lines of a text after the first one, moved to the right. -/
def indented (text : String) : String :=
  String.intercalate "\n    " (text.splitOn "\n")

def text (f : Failure) : String :=
  "Error: " ++ f.message ++ "\n" ++
    match f.cause with
    | some cause => "\nCaused by:\n    " ++ indented cause ++ "\n"
    | none => ""

def ofClient (e : ClientError) : Failure :=
  { message := e.message
    cause := match e with
      | .listFailed _ source => some source.message
      | .exportLookup _ source => some source.message
      | .output reason => some reason
      | _ => none }

end Failure

/-- How a run of the program ends. -/
structure Exit where
  code : Nat
  /-- What is written to the error output. -/
  complaint : String
  deriving DecidableEq, Repr, Inhabited

end ApiCatalog
