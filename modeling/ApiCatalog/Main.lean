import ApiCatalog.Command.Run
import ApiCatalog.Document.Writer
import Std.Async.Signal
import Std.Time.DateTime.Timestamp

/-!
# The program

The machine that the program runs on: the files, clocks and streams of the process.
-/
namespace ApiCatalog.Process

/-- The number of an error, which some operations give with a minus sign. -/
def numberOf (code : UInt32) : Nat := min code.toNat (0 - code).toNat

/-- What a file operation failed with, by the number of the error. -/
def faultOf (e : IO.Error) : FileFault :=
  match e with
  | .noFileOrDirectory .. => .missing
  | .inappropriateType _ code _ => if numberOf code = 20 then .notDirectory else .directory
  | .permissionDenied _ code _ =>
    if numberOf code = 27 then .tooLarge else .other (toString e)
  | .invalidArgument _ code _ =>
    if numberOf code = 36 then .nameTooLong else .other (toString e)
  | e => .other (toString e)

def read (path : String) : IO (Except FileFault Content) := do
  try
    let bytes ← IO.FS.readBinFile path
    match String.fromUTF8? bytes with
    | some text => return .ok (.text text)
    | none => return .error .notText
  catch e => return .error (faultOf e)

def textOf : Content → String
  | .document value => Document.textOf value
  | .text text => text

def write (path : String) (content : Content) : IO (Except FileFault Unit) := do
  try
    IO.FS.writeFile path (textOf content)
    return .ok ()
  catch e => return .error (faultOf e)

/-- The text of an error in place of the error. -/
def attempt (action : IO Unit) : IO (Except String Unit) := do
  try
    action
    return .ok ()
  catch e => return .error (toString e)

def now : IO Instant := do
  let time := (← Std.Time.Timestamp.now).toDurationSinceUnixEpoch
  return (Instant.ofUnix? time.second.val time.nano.val.toNat).getD .epoch

/-- The characters of generated names: no vowels but `a` and `e`, and none that look alike. -/
def suffixAlphabet : List Char := "0123456789abcdefghjkmnpqrstvwxyz".toList

def suffixLength : Nat := 5

def suffix : IO String := do
  let choices ← (List.range suffixLength).mapM fun _ => IO.rand 0 (suffixAlphabet.length - 1)
  return String.ofList (choices.map fun i => suffixAlphabet.getD i '0')

/-- Sleeps in stretches of at most a day. -/
def sleep (length : Duration) : IO Unit := do
  let day := 86400000
  for _ in [0 : length.millis / day] do
    IO.sleep (UInt32.ofNat day)
  IO.sleep (UInt32.ofNat (length.millis % day + 1))

def interrupt : IO Unit := do
  let waiter ← Std.Async.Signal.Waiter.mk .sigint false
  let _ ← (← waiter.wait).block

def machine : Machine IO where
  read := read
  write := write
  print text := attempt do (← IO.getStdout).putStr text
  flush := attempt do (← IO.getStdout).flush
  clock := return ⟨← IO.monoNanosNow⟩
  sleep := sleep
  now := now
  suffix := suffix
  interrupt := interrupt

/-- More looks and passes than any run gets to. -/
def patience : Nat := UInt64.size

/-- The variables that the program looks at. -/
def environment : IO (List (String × String)) :=
  Config.variableNames.filterMapM fun name => do
    return (← IO.getEnv name).map fun value => (name, value)

end ApiCatalog.Process

open ApiCatalog in
def main (arguments : List String) : IO UInt32 := do
  let environment ← Process.environment
  let exit ← Command.run Process.machine Process.patience (environment.lookup ·) arguments
  IO.eprint exit.complaint
  (← IO.getStdout).flush
  return UInt32.ofNat exit.code
