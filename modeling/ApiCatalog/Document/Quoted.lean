import ApiCatalog.Text.Numeral

/-!
# Texts in double quotes

What stands between double quotes in a document. The line breaks there are folded, also those that
JSON takes for plain characters; an escape stands for one character; and no line but the first one
starts with a mark that separates documents.
-/
namespace ApiCatalog.Document.Quoted

def isBreak (c : Char) : Bool :=
  c == '\n' || c == '\r' || c == '\x85' || c == '\u2028' || c == '\u2029'

/-- Whether the character is a space, a tabulator or a line break. -/
def isSpace (c : Char) : Bool := c == ' ' || c == '\t' || isBreak c

/-- The line breaks in a run of spaces and breaks; all but the last two kinds of them count as line
feeds. -/
def breaks : List Char → List Char
  | [] => []
  | '\r' :: '\n' :: rest => '\n' :: breaks rest
  | c :: rest =>
    if c = '\u2028' ∨ c = '\u2029' then c :: breaks rest
    else if isBreak c then '\n' :: breaks rest
    else breaks rest

/-- What a run of spaces and breaks stands for: of its first break, if that is a line feed, nothing
is left but a space, and not even that if others follow. -/
def folded (run : List Char) : List Char :=
  match breaks run with
  | [] => run
  | ['\n'] => [' ']
  | '\n' :: others => others
  | all => all

/-- Whether a line starts with a mark that separates documents. -/
def isMark : List Char → Bool
  | '-' :: '-' :: '-' :: rest => rest.head?.any isSpace
  | '.' :: '.' :: '.' :: rest => rest.head?.any isSpace
  | _ => false

/-- The escapes of one character, with what they stand for. -/
def escapes : List (Char × Char) := [
  ('0', '\x00'), ('a', '\x07'), ('b', '\x08'), ('t', '\t'), ('n', '\n'), ('v', '\x0b'),
  ('f', '\x0c'), ('r', '\r'), ('e', '\x1b'), (' ', ' '), ('"', '"'), ('/', '/'), ('\\', '\\'),
  ('N', '\x85'), ('_', '\xa0'), ('L', '\u2028'), ('P', '\u2029')]

/-- The character that an escape stands for; the backslash is already read. -/
def escaped? : List Char → Option (Char × List Char)
  | [] => none
  | 'x' :: rest => Text.codePoint? 2 rest
  | 'u' :: rest => Text.codePoint? 4 rest
  | 'U' :: rest => Text.codePoint? 8 rest
  | c :: rest => (escapes.lookup c).map fun char => (char, rest)

/-- Reads what stands between the quotes, from a place where a run of spaces and breaks may be. -/
def chars? : Nat → List Char → List Char → Option (List Char)
  | 0, _, _ => none
  | fuel + 1, read, input =>
    let run := input.takeWhile isSpace
    let rest := input.drop run.length
    let read := (folded run).reverse ++ read
    match rest with
    | [] => some read.reverse
    | c :: more =>
      if run.getLast?.any isBreak ∧ isMark rest then none
      else if c = '\\' then do
        let (c, more) ← escaped? more
        chars? fuel (c :: read) more
      else chars? fuel (c :: read) more

/-- The text between quotes. -/
def text? (body : List Char) : Option String :=
  (chars? (body.length + 1) [] body).map String.ofList

/-- Splits off what stands before the closing quote. -/
def body? : List Char → List Char → Option (List Char × List Char)
  | _, [] => none
  | read, '"' :: rest => some (read.reverse, rest)
  | read, '\\' :: c :: rest => body? (c :: '\\' :: read) rest
  | read, c :: rest => body? (c :: read) rest

end ApiCatalog.Document.Quoted
