import ApiCatalog.Json.Basic
import ApiCatalog.Text.Numeral

/-!
# Reading JSON text

A reader for the grammar of JSON. A part of the reader takes the characters that are left and gives
what it read together with the characters after it. The nesting is bounded by the length of the
text, which serves as fuel.
-/
namespace ApiCatalog.Json.Reader

/-- Skips the four characters that JSON allows between tokens. -/
def skipSpace (input : List Char) : List Char :=
  input.dropWhile fun c => c == ' ' || c == '\t' || c == '\n' || c == '\r'

/-- Four hexadecimal digits, as in a `\u` escape. -/
def unit? : List Char → Option (Nat × List Char)
  | a :: b :: c :: d :: rest => do
    let a ← Text.hexDigit? a
    let b ← Text.hexDigit? b
    let c ← Text.hexDigit? c
    let d ← Text.hexDigit? d
    pure (((a * 16 + b) * 16 + c) * 16 + d, rest)
  | _ => none

/-- The character of one `\u` escape or of two that form a surrogate pair. -/
def unicode? (input : List Char) : Option (Char × List Char) := do
  let (high, rest) ← unit? input
  if 0xd800 ≤ high ∧ high < 0xdc00 then
    match rest with
    | '\\' :: 'u' :: rest =>
      let (low, rest) ← unit? rest
      if 0xdc00 ≤ low ∧ low < 0xe000 then
        pure (Char.ofNat (0x10000 + (high - 0xd800) * 0x400 + (low - 0xdc00)), rest)
      else none
    | _ => none
  else if 0xdc00 ≤ high ∧ high < 0xe000 then none
  else pure (Char.ofNat high, rest)

/-- The character that an escape stands for; the backslash is already read. -/
def escaped? : List Char → Option (Char × List Char)
  | '"' :: rest => some ('"', rest)
  | '\\' :: rest => some ('\\', rest)
  | '/' :: rest => some ('/', rest)
  | 'b' :: rest => some ('\x08', rest)
  | 'f' :: rest => some ('\x0c', rest)
  | 'n' :: rest => some ('\n', rest)
  | 'r' :: rest => some ('\r', rest)
  | 't' :: rest => some ('\t', rest)
  | 'u' :: rest => unicode? rest
  | _ => none

/-- The rest of a string whose opening quote is already read. -/
def string? : Nat → List Char → List Char → Option (String × List Char)
  | 0, _, _ => none
  | _ + 1, _, [] => none
  | fuel + 1, read, c :: rest =>
    if c = '"' then some (String.ofList read.reverse, rest)
    else if c = '\\' then do
      let (c, rest) ← escaped? rest
      string? fuel (c :: read) rest
    else if c.toNat < 0x20 then none
    else string? fuel (c :: read) rest

/-- Splits off the leading decimal digits. -/
def digits (input : List Char) : List Char × List Char := input.span Char.isDigit

/-- A point with its digits, if there is one. -/
def fraction? : List Char → Option (List Char × List Char)
  | '.' :: rest =>
    let (run, rest) := digits rest
    if run.isEmpty then none else some ('.' :: run, rest)
  | input => some ([], input)

/-- An exponent mark with its sign and digits, if there is one. -/
def exponent? : List Char → Option (List Char × List Char)
  | [] => some ([], [])
  | mark :: rest =>
    if mark = 'e' ∨ mark = 'E' then
      let (sign, rest) := match rest with
        | '+' :: rest => (['+'], rest)
        | '-' :: rest => (['-'], rest)
        | _ => ([], rest)
      let (run, rest) := digits rest
      if run.isEmpty then none else some (mark :: sign ++ run, rest)
    else some ([], mark :: rest)

/-- The number written by decimal digits. -/
def magnitude (run : List Char) : Nat :=
  run.foldl (fun n c => 10 * n + (c.toNat - '0'.toNat)) 0

/-- A number; a zero with a minus sign is no integer. -/
def number? (input : List Char) : Option (Json × List Char) := do
  let (sign, rest) := match input with
    | '-' :: rest => (['-'], rest)
    | _ => ([], input)
  let (whole, rest) := digits rest
  if whole.isEmpty ∨ (whole.length > 1 ∧ whole.head? = some '0') then none
  let (point, rest) ← fraction? rest
  let (power, rest) ← exponent? rest
  let n := magnitude whole
  if point.isEmpty ∧ power.isEmpty ∧ ¬(n = 0 ∧ sign ≠ []) then
    pure (.integer (if sign.isEmpty then n else -n), rest)
  else pure (.decimal (String.ofList (sign ++ whole ++ point ++ power)), rest)

mutual

/-- One value. -/
def value? : Nat → List Char → Option (Json × List Char)
  | 0, _ => none
  | fuel + 1, input =>
    match skipSpace input with
    | '"' :: rest => do
      let (s, rest) ← string? (rest.length + 1) [] rest
      pure (.text s, rest)
    | '[' :: rest =>
      match skipSpace rest with
      | ']' :: rest => some (.list [], rest)
      | rest => items? fuel [] rest
    | '\x7b' :: rest =>
      match skipSpace rest with
      | '\x7d' :: rest => some (.object [], rest)
      | rest => members? fuel [] rest
    | 'n' :: 'u' :: 'l' :: 'l' :: rest => some (.null, rest)
    | 't' :: 'r' :: 'u' :: 'e' :: rest => some (.bool true, rest)
    | 'f' :: 'a' :: 'l' :: 's' :: 'e' :: rest => some (.bool false, rest)
    | rest => number? rest

/-- The items of a list up to its closing bracket; at least one is left. -/
def items? : Nat → List Json → List Char → Option (Json × List Char)
  | 0, _, _ => none
  | fuel + 1, read, input => do
    let (item, rest) ← value? fuel input
    match skipSpace rest with
    | ',' :: rest => items? fuel (item :: read) rest
    | ']' :: rest => pure (.list (item :: read).reverse, rest)
    | _ => none

/-- The members of an object up to its closing brace; at least one is left. -/
def members? : Nat → List (String × Json) → List Char → Option (Json × List Char)
  | 0, _, _ => none
  | fuel + 1, read, input =>
    match skipSpace input with
    | '"' :: rest => do
      let (name, rest) ← string? (rest.length + 1) [] rest
      match skipSpace rest with
      | ':' :: rest =>
        let (item, rest) ← value? fuel rest
        match skipSpace rest with
        | ',' :: rest => members? fuel ((name, item) :: read) rest
        | '\x7d' :: rest => pure (.object ((name, item) :: read).reverse, rest)
        | _ => none
      | _ => none
    | _ => none

end

end Reader

/-- The value that a text holds, with nothing but space around it. -/
def ofText? (text : String) : Option Json :=
  let chars := text.toList
  match Reader.value? (chars.length + 1) chars with
  | some (value, rest) => if (Reader.skipSpace rest).isEmpty then some value else none
  | none => none

end ApiCatalog.Json
