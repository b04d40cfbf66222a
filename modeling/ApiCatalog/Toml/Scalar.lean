import ApiCatalog.Text.Double
import ApiCatalog.Text.Separated
import ApiCatalog.Time.Instant
import ApiCatalog.Toml.Basic

/-!
# Scalars of settings

The values that are written without quotes and brackets: truth values, integers of at most 128 bits,
numbers in double precision, and moments. Underscores may group the digits of a number.
-/
namespace ApiCatalog.Toml

/-- The digits of a number without the single underscores between them. -/
def ungrouped? (input : List Char) : Option (List Char) :=
  let groups := Text.separated '_' input
  if groups.any List.isEmpty then none else some groups.flatten

/-- The number that digits write, the first of them being the highest. -/
def digits? (base : Nat) (input : List Char) : Option Nat :=
  input.foldlM (fun n c => do
    let d ← Text.hexDigit? c
    if d < base then some (base * n + d) else none) 0

def grouped? (base : Nat) (input : List Char) : Option Nat := (ungrouped? input).bind (digits? base)

/-- A decimal number does not start with a zero that could be left out. -/
def whole? (input : List Char) : Option Nat :=
  if 1 < input.length ∧ input.head? = some '0' then none else grouped? 10 input

/-- Only numbers without sign have another base than ten. -/
def signed? : List Char → Option Int
  | '0' :: 'x' :: rest => (grouped? 16 rest).map Int.ofNat
  | '0' :: 'o' :: rest => (grouped? 8 rest).map Int.ofNat
  | '0' :: 'b' :: rest => (grouped? 2 rest).map Int.ofNat
  | '+' :: rest => (whole? rest).map Int.ofNat
  | '-' :: rest => (whole? rest).map fun n => -Int.ofNat n
  | rest => (whole? rest).map Int.ofNat

def integer? (input : List Char) : Option Toml := do
  let n ← signed? input
  if Text.fits 128 n then some (.integer n) else none

def unsigned : List Char → List Char
  | '+' :: rest => rest
  | '-' :: rest => rest
  | input => input

/-- Whether the parts of a number between its marks are grouped digits. -/
def isFloat (input : List Char) : Bool :=
  let (mantissa, power) := input.span fun c => c != 'e' && c != 'E'
  let (whole, point) := mantissa.span (· != '.')
  (whole? whole).isSome && (point.isEmpty || (grouped? 10 point.tail).isSome) &&
    (power.isEmpty || (grouped? 10 (unsigned power.tail)).isSome) &&
    !(point.isEmpty && power.isEmpty)

/-- A number with a fraction or an exponent, not beyond the greatest one in double precision. -/
def float? (input : List Char) : Option Toml :=
  let magnitude := unsigned input
  if magnitude = "inf".toList ∨ magnitude = "nan".toList then some (.float (String.ofList input))
  else if isFloat magnitude then do
    let s ← Text.Scientific.ofText? (input.filter (· != '_'))
    let _ ← Text.Double.ofScientific? s
    some (.float (String.ofList input))
  else none

/-- So many digits, with a value in a range. -/
def field? (width least greatest : Nat) (input : List Char) : Option (Nat × List Char) := do
  let run := input.take width
  let n ← if run.length = width then digits? 10 run else none
  if least ≤ n ∧ n ≤ greatest then some (n, input.drop width) else none

def mark? (mark : Char) : List Char → Option (List Char)
  | c :: rest => if c = mark then some rest else none
  | [] => none

/-- Skips a date. -/
def date? (input : List Char) : Option (List Char) := do
  let (year, rest) ← field? 4 0 9999 input
  let (month, rest) ← field? 2 1 12 (← mark? '-' rest)
  let (_, rest) ← field? 2 1 (daysInMonth year month) (← mark? '-' rest)
  pure rest

/-- Skips the seconds of a time of day, which may end in a fraction of a second. -/
def seconds? (input : List Char) : Option (List Char) := do
  let (_, rest) ← field? 2 0 60 input
  match rest with
  | '.' :: fraction =>
    if (fraction.takeWhile Char.isDigit).isEmpty then none
    else some (fraction.dropWhile Char.isDigit)
  | _ => some rest

/-- Skips a time of day, which may be given without seconds. -/
def time? (input : List Char) : Option (List Char) := do
  let (_, rest) ← field? 2 0 23 input
  let (_, rest) ← field? 2 0 59 (← mark? ':' rest)
  match rest with
  | ':' :: rest => seconds? rest
  | _ => some rest

/-- Whether the distance of a time zone is written, or none. -/
def isZone : List Char → Bool
  | [] => true
  | ['Z'] => true
  | ['z'] => true
  | sign :: rest =>
    (sign == '+' || sign == '-') &&
      (do
        let (_, rest) ← field? 2 0 23 rest
        let (_, rest) ← field? 2 0 59 (← mark? ':' rest)
        pure rest) == some []

def isDate (input : List Char) : Bool := date? input == some []

def isMoment (input : List Char) : Bool :=
  time? input == some [] ||
    match date? input with
    | none => false
    | some [] => true
    | some (c :: rest) =>
      (c == 'T' || c == 't' || c == ' ') && ((time? rest).any isZone)

def scalar? (input : List Char) : Option Toml :=
  if input = "true".toList then some (.bool true)
  else if input = "false".toList then some (.bool false)
  else (integer? input).or <| (float? input).or <|
    if isMoment input then some (.moment (String.ofList input)) else none

end ApiCatalog.Toml
