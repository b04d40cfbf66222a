import ApiCatalog.Text.Blank
import ApiCatalog.Toml.Outline
import ApiCatalog.Toml.Scalar

/-!
# Reading settings

A reader for the grammar of TOML. A part of the reader takes the characters that are left and gives
what it read together with the characters after it. The length of the text serves as fuel.
-/
namespace ApiCatalog.Toml.Reader

/-- Skips the two characters that count as blank within a line. -/
def skipBlank (input : List Char) : List Char := input.dropWhile fun c => c == ' ' || c == '\t'

/-- Whether the character may stand within a line. -/
def isInline (c : Char) : Bool := c == '\t' || (0x20 ≤ c.toNat && c.toNat != 0x7f)

/-- Skips the rest of a line that holds no more than a comment. -/
def lineEnd? (input : List Char) : Option (List Char) :=
  let rest := match skipBlank input with
    | '#' :: rest => rest.dropWhile isInline
    | rest => rest
  match rest with
  | [] => some []
  | '\n' :: rest => some rest
  | '\r' :: '\n' :: rest => some rest
  | _ => none

/-- Whether a line ends here or a comment starts. -/
def isLineEnd (c : Char) : Bool := c == '#' || c == '\n' || c == '\r'

/-- Skips blanks, comments and the ends of lines. -/
def skipLines? : Nat → List Char → Option (List Char)
  | 0, _ => none
  | fuel + 1, input =>
    match skipBlank input with
    | [] => some []
    | c :: rest =>
      if isLineEnd c then (lineEnd? (c :: rest)).bind (skipLines? fuel) else some (c :: rest)

/-! ## Texts -/

/-- The character that an escape stands for; the backslash is already read. -/
def escaped? : List Char → Option (Char × List Char)
  | 'b' :: rest => some ('\x08', rest)
  | 't' :: rest => some ('\t', rest)
  | 'n' :: rest => some ('\n', rest)
  | 'f' :: rest => some ('\x0c', rest)
  | 'r' :: rest => some ('\r', rest)
  | 'e' :: rest => some ('\x1b', rest)
  | '"' :: rest => some ('"', rest)
  | '\\' :: rest => some ('\\', rest)
  | 'x' :: rest => Text.codePoint? 2 rest
  | 'u' :: rest => Text.codePoint? 4 rest
  | 'U' :: rest => Text.codePoint? 8 rest
  | _ => none

/-- The rest of a text on one line whose opening quote is already read. Between single quotes there
are no escapes. -/
def line? (quote : Char) : Nat → List Char → List Char → Option (String × List Char)
  | 0, _, _ => none
  | _ + 1, _, [] => none
  | fuel + 1, read, c :: rest =>
    if c = quote then some (String.ofList read.reverse, rest)
    else if c = '\\' ∧ quote = '"' then do
      let (c, rest) ← escaped? rest
      line? quote fuel (c :: read) rest
    else if isInline c then line? quote fuel (c :: read) rest
    else none

/-- Skips blanks and the ends of lines. -/
def skipSpace : List Char → List Char
  | ' ' :: rest => skipSpace rest
  | '\t' :: rest => skipSpace rest
  | '\n' :: rest => skipSpace rest
  | '\r' :: '\n' :: rest => skipSpace rest
  | rest => rest

/-- What comes after a backslash at the end of a line: all that is not blank. -/
def continued? (input : List Char) : Option (List Char) :=
  match skipBlank input with
  | '\n' :: rest => some (skipSpace rest)
  | '\r' :: '\n' :: rest => some (skipSpace rest)
  | _ => none

/-- The rest of a text on several lines, up to three quotes; one or two more belong to the text. -/
def lines? (quote : Char) : Nat → List Char → List Char → Option (String × List Char)
  | 0, _, _ => none
  | fuel + 1, read, input =>
    match input with
    | [] => none
    | '\n' :: rest => lines? quote fuel ('\n' :: read) rest
    | '\r' :: '\n' :: rest => lines? quote fuel ('\n' :: read) rest
    | c :: rest =>
      if c = quote then
        let run := input.takeWhile (· == quote)
        let after := input.drop run.length
        if run.length < 3 then lines? quote fuel (run ++ read) after
        else if run.length < 6 then
          some (String.ofList (run.drop 3 ++ read).reverse, after)
        else none
      else if c = '\\' ∧ quote = '"' then
        match continued? rest with
        | some rest => lines? quote fuel read rest
        | none => do
          let (c, rest) ← escaped? rest
          lines? quote fuel (c :: read) rest
      else if isInline c then lines? quote fuel (c :: read) rest
      else none

/-- The end of the line that the opening quotes of a text on several lines stand on is no part of
it. -/
def afterOpening : List Char → List Char
  | '\n' :: rest => rest
  | '\r' :: '\n' :: rest => rest
  | input => input

/-- A text in quotes. -/
def text? (input : List Char) : Option (String × List Char) :=
  let fuel := input.length + 1
  match input with
  | '"' :: '"' :: '"' :: rest => lines? '"' fuel [] (afterOpening rest)
  | '\x27' :: '\x27' :: '\x27' :: rest => lines? '\x27' fuel [] (afterOpening rest)
  | '"' :: rest => line? '"' fuel [] rest
  | '\x27' :: rest => line? '\x27' fuel [] rest
  | _ => none

/-! ## Names -/

def isBare (c : Char) : Bool := c.isAlphanum || c == '-' || c == '_'

/-- One part of a name: bare, or a text on one line. -/
def part? (input : List Char) : Option (String × List Char) :=
  let fuel := input.length + 1
  match input with
  | '"' :: rest => line? '"' fuel [] rest
  | '\x27' :: rest => line? '\x27' fuel [] rest
  | _ =>
    let run := input.takeWhile isBare
    if run.isEmpty then none else some (String.ofList run, input.drop run.length)

/-- Parts that dots separate. -/
def parts? : Nat → List Char → Option (List String × List Char)
  | 0, _ => none
  | fuel + 1, input => do
    let (part, rest) ← part? (skipBlank input)
    match skipBlank rest with
    | '.' :: rest =>
      let (parts, rest) ← parts? fuel rest
      pure (part :: parts, rest)
    | rest => pure ([part], rest)

/-- So deep may lists and tables be nested, within a value as well as by the parts of a name. -/
def nestingLimit : Nat := 80

/-- A name. -/
def name? (input : List Char) : Option (List String × List Char) := do
  let (path, rest) ← parts? (input.length + 1) input
  if path.length ≤ nestingLimit then pure (path, rest) else none

/-- A name and the equals sign after it. -/
def label? (input : List Char) : Option (List String × List Char) := do
  let (path, rest) ← name? input
  match rest with
  | '=' :: rest => pure (path, skipBlank rest)
  | _ => none

/-! ## Values -/

/-- Whether the character may stand in a scalar. -/
def isScalarChar (c : Char) : Bool :=
  c.isAlphanum || c == '+' || c == '-' || c == '_' || c == '.' || c == ':'

/-- A scalar; a single space may stand between a date and the time of day. -/
def scalarAt? (input : List Char) : Option (Toml × List Char) :=
  let run := input.takeWhile isScalarChar
  let rest := input.drop run.length
  let (run, rest) := match rest with
    | ' ' :: c :: more =>
      if isDate run && c.isDigit then
        let time := (c :: more).takeWhile isScalarChar
        (run ++ ' ' :: time, (c :: more).drop time.length)
      else (run, rest)
    | _ => (run, rest)
  (scalar? run).map fun value => (value, rest)

mutual

/-- One value, in which lists and tables are nested no deeper than `depth`. -/
def value? : Nat → Nat → List Char → Option (Toml × List Char)
  | 0, _, _ => none
  | fuel + 1, depth, input =>
    match input, depth with
    | '[' :: _, 0 => none
    | '\x7b' :: _, 0 => none
    | '[' :: rest, depth + 1 => items? fuel depth [] rest
    | '\x7b' :: rest, depth + 1 => members? fuel depth [] rest
    | '"' :: _, _ => (text? input).map fun (s, rest) => (.text s, rest)
    | '\x27' :: _, _ => (text? input).map fun (s, rest) => (.text s, rest)
    | _, _ => scalarAt? input

/-- The items of a list up to its closing bracket, which may follow a comma. -/
def items? : Nat → Nat → List Toml → List Char → Option (Toml × List Char)
  | 0, _, _, _ => none
  | fuel + 1, depth, read, input => do
    match ← skipLines? (input.length + 1) input with
    | ']' :: rest => pure (.list read.reverse, rest)
    | rest =>
      let (item, rest) ← value? fuel depth rest
      match ← skipLines? (rest.length + 1) rest with
      | ',' :: rest => items? fuel depth (item :: read) rest
      | ']' :: rest => pure (.list (item :: read).reverse, rest)
      | _ => none

/-- The members of a table within a value up to its closing brace, which may follow a comma. -/
def members? : Nat → Nat → Branch → List Char → Option (Toml × List Char)
  | 0, _, _, _ => none
  | fuel + 1, depth, read, input => do
    match ← skipLines? (input.length + 1) input with
    | '\x7d' :: rest => pure (.table (completeAll read), rest)
    | rest =>
      let (path, rest) ← label? rest
      let (value, rest) ← value? fuel depth rest
      let read ← Branch.put? value path read
      match ← skipLines? (rest.length + 1) rest with
      | ',' :: rest => members? fuel depth read rest
      | '\x7d' :: rest => pure (.table (completeAll read), rest)
      | _ => none

end

/-! ## Documents -/

/-- The lines of a document. -/
def document? : Nat → Outline → List Char → Option Outline
  | 0, _, _ => none
  | fuel + 1, outline, input =>
    match skipBlank input with
    | [] => some outline
    | '[' :: '[' :: rest => do
      match ← name? rest with
      | (path, ']' :: ']' :: rest) =>
        document? fuel (← outline.turn? Branch.openRow? path) (← lineEnd? rest)
      | _ => none
    | '[' :: rest => do
      match ← name? rest with
      | (path, ']' :: rest) =>
        document? fuel (← outline.turn? Branch.openTable? path) (← lineEnd? rest)
      | _ => none
    | c :: rest => do
      if isLineEnd c then document? fuel outline (← lineEnd? (c :: rest))
      else
        let (path, rest) ← label? (c :: rest)
        let (value, rest) ← value? (2 * rest.length + 2) nestingLimit rest
        document? fuel (← outline.put? path value) (← lineEnd? rest)

end Reader

/-- The settings that a text holds. -/
def ofText? (text : String) : Option Settings :=
  let input := Text.withoutMark text.toList
  (Reader.document? (input.length + 1) .empty input).map fun outline => completeAll outline.root

end ApiCatalog.Toml
