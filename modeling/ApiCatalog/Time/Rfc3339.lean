import ApiCatalog.Json.Wire
import ApiCatalog.Text.Blank
import ApiCatalog.Text.Numeral
import ApiCatalog.Time.Instant

/-!
# Instants as text

An instant is written as RFC 3339 asks, in UTC, with the fewest of 0, 3, 6 or 9 digits of a second
that lose nothing. The reader is lenient: parts may have fewer digits, spaces may stand before a
part, a space may stand for the `T`, and the zone is `Z`, `UTC` or an offset.
-/
namespace ApiCatalog.Instant

/-- Decimal digits with leading zeros up to a width. -/
def padded (width n : Nat) : String :=
  let digits := Nat.toDigits 10 n
  String.ofList (List.replicate (width - digits.length) '0' ++ digits)

/-- A year outside 0 to 9999 has a sign. -/
def yearText (year : Int) : String :=
  if 0 ≤ year ∧ year ≤ 9999 then padded 4 year.toNat
  else (if year < 0 then "-" else "+") ++ padded 4 year.natAbs

def fractionText (nano : Nat) : String :=
  if nano = 0 then ""
  else if nano % 1000000 = 0 then "." ++ padded 3 (nano / 1000000)
  else if nano % 1000 = 0 then "." ++ padded 6 (nano / 1000)
  else "." ++ padded 9 nano

def toText (t : Instant) : String :=
  yearText t.year ++ "-" ++ padded 2 t.month ++ "-" ++ padded 2 t.day ++ "T" ++
    padded 2 t.hour ++ ":" ++ padded 2 t.minute ++ ":" ++ padded 2 t.second ++
    fractionText t.nano ++ "Z"

/-- The number written by the leading digits, at least one and at most `width` of them. -/
def number? (width : Nat) (input : List Char) : Option (Nat × List Char) :=
  let run := (input.takeWhile Char.isDigit).take width
  (Text.natural? run).map fun n => (n, input.drop run.length)

/-- A number of one or two digits after optional space. -/
def part? (input : List Char) : Option (Nat × List Char) :=
  number? 2 (Text.skipBlanks input)

/-- A year of up to four digits, or of any number of them after a sign. -/
def year? (input : List Char) : Option (Int × List Char) :=
  match Text.skipBlanks input with
  | '-' :: rest => (number? rest.length rest).map fun (n, rest) => (-n, rest)
  | '+' :: rest => (number? rest.length rest).map fun (n, rest) => (n, rest)
  | input => (number? 4 input).map fun (n, rest) => (n, rest)

/-- Skips a mark after optional space. -/
def mark? (mark : Char) (input : List Char) : Option (List Char) :=
  match Text.skipBlanks input with
  | c :: rest => if c = mark then some rest else none
  | [] => none

/-- A fraction of a second in nanoseconds; digits after the ninth do not count. -/
def fraction? : List Char → Option (Nat × List Char)
  | '.' :: rest =>
    let run := rest.takeWhile Char.isDigit
    let kept := run.take 9
    (Text.natural? kept).map fun n => (n * Nat.pow 10 (9 - kept.length), rest.drop run.length)
  | input => some (0, input)

/-- Two decimal digits. -/
def pair? : List Char → Option (Nat × List Char)
  | a :: b :: rest => (Text.natural? [a, b]).map fun n => (n, rest)
  | _ => none

/-- Hours and minutes of an offset, in minutes; colons and space may stand between them. -/
def offset? (input : List Char) : Option (Nat × List Char) := do
  let (hours, rest) ← pair? input
  let (minutes, rest) ← pair? (rest.dropWhile fun c => c == ':' || Text.isBlank c)
  if minutes < 60 then pure (hours * 60 + minutes, rest) else none

/-- The minutes that a zone is ahead of UTC. -/
def zone? : List Char → Option (Int × List Char)
  | [] => none
  | c :: rest =>
    if c = 'Z' ∨ c = 'z' then
      some (0, rest)
    else if c = '+' then
      (offset? rest).map fun (minutes, rest) => (minutes, rest)
    else if c = '-' ∨ c = '\u2212' then
      (offset? rest).map fun (minutes, rest) => (-minutes, rest)
    else if (c :: rest.take 2).map Char.toUpper = ['U', 'T', 'C'] then
      some (0, rest.drop 2)
    else none

/-- Skips the mark between date and time. -/
def between? : List Char → Option (List Char)
  | c :: rest => if c = 'T' ∨ c = 't' ∨ c = ' ' then some rest else none
  | [] => none

def ofText? (text : String) : Option Instant := do
  let (year, rest) ← year? text.toList
  let (month, rest) ← part? (← mark? '-' rest)
  let (day, rest) ← part? (← mark? '-' rest)
  let (hour, rest) ← part? (← between? rest)
  let (minute, rest) ← part? (← mark? ':' rest)
  let (second, rest) ← part? (← mark? ':' rest)
  let (nano, rest) ← fraction? rest
  let (ahead, rest) ← zone? (Text.skipBlanks rest)
  let there : Civil := ⟨year, month, day, hour, minute, second, nano⟩
  if (Text.skipBlanks rest).isEmpty ∧ there.Valid ∧ ahead.natAbs < 1440 then
    ofCivil? (there.back ahead)
  else none

end Instant

instance : Wire Instant := ⟨fun t => .text t.toText, fun _ json => json.text?.bind Instant.ofText?⟩

end ApiCatalog
