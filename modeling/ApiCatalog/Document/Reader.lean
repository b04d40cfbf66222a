import ApiCatalog.Document.Basic
import ApiCatalog.Document.Quoted
import ApiCatalog.Json.Reader
import ApiCatalog.Text.Blank

/-!
# Reading documents

The text of a document is JSON, read as the part of YAML that JSON is. The rules of YAML say more
than those of JSON: a text may not hold controls and noncharacters; texts in quotes have rules of
their own; the name of a member stands on one line and takes no more than 1024 bytes up to the
colon; and outside of brackets no line starts with a tabulator.
-/
namespace ApiCatalog.Document

/-- Whether the character may stand in the text of a document. -/
def isPermitted (c : Char) : Bool :=
  let n := c.toNat
  n == 0x9 || n == 0xa || n == 0xd || (0x20 ≤ n && n ≤ 0x7e) || n == 0x85 ||
    (0xa0 ≤ n && n ≤ 0xfffd) || 0x10000 ≤ n

namespace Reader

/-- The longest distance in bytes from the start of a name to the colon after it. -/
def nameLimit : Nat := 1024

/-- A name and the colon after it; the opening quote is already read. -/
def name? (input : List Char) : Option (String × List Char) := do
  let (body, rest) ← Quoted.body? [] input
  let gap := rest.takeWhile fun c => c == ' ' || c == '\t'
  let width := (String.ofList body).utf8ByteSize + 2 + gap.length
  match rest.drop gap.length with
  | ':' :: rest =>
    if width ≤ nameLimit ∧ ¬body.any Quoted.isBreak then
      pure (← Quoted.text? body, rest)
    else none
  | _ => none

/-- Whether a scalar without quotes is one of JSON. -/
def isPlain (written : List Char) : Bool :=
  ["null", "true", "false"].contains (String.ofList written) ||
    (Json.Reader.number? written).any fun (_, rest) => rest.isEmpty

/-- A scalar without quotes, up to a space or a mark that ends it. -/
def plain? (input : List Char) : Option (Document × List Char) :=
  let run := input.takeWhile fun c => !Quoted.isSpace c && c != ',' && c != ']' && c != '\x7d'
  if isPlain run then some (.plain (String.ofList run), input.drop run.length) else none

mutual

/-- One part of a document. -/
def part? : Nat → List Char → Option (Document × List Char)
  | 0, _ => none
  | fuel + 1, input =>
    match Json.Reader.skipSpace input with
    | '"' :: rest => do
      let (body, rest) ← Quoted.body? [] rest
      pure (.quoted (← Quoted.text? body), rest)
    | '[' :: rest =>
      match Json.Reader.skipSpace rest with
      | ']' :: rest => some (.list [], rest)
      | rest => items? fuel [] rest
    | '\x7b' :: rest =>
      match Json.Reader.skipSpace rest with
      | '\x7d' :: rest => some (.mapping [], rest)
      | rest => members? fuel [] rest
    | rest => plain? rest

/-- The items of a list up to its closing bracket; at least one is left. -/
def items? : Nat → List Document → List Char → Option (Document × List Char)
  | 0, _, _ => none
  | fuel + 1, read, input => do
    let (item, rest) ← part? fuel input
    match Json.Reader.skipSpace rest with
    | ',' :: rest => items? fuel (item :: read) rest
    | ']' :: rest => pure (.list (item :: read).reverse, rest)
    | _ => none

/-- The members of a mapping up to its closing brace; at least one is left. -/
def members? : Nat → List (String × Document) → List Char → Option (Document × List Char)
  | 0, _, _ => none
  | fuel + 1, read, input =>
    match Json.Reader.skipSpace input with
    | '"' :: rest => do
      let (name, rest) ← name? rest
      let (item, rest) ← part? fuel rest
      match Json.Reader.skipSpace rest with
      | ',' :: rest => members? fuel ((name, item) :: read) rest
      | '\x7d' :: rest => pure (.mapping ((name, item) :: read).reverse, rest)
      | _ => none
    | _ => none

end

/-- Whether the character may stand before and after a document wherever a line starts. -/
def isLead (c : Char) : Bool := c == ' ' || c == '\n' || c == '\r'

end Reader

/-- The document that a text holds. -/
def ofText? (text : String) : Option Document := do
  let input := Text.withoutMark text.toList
  let start := input.dropWhile Reader.isLead
  if input.all isPermitted ∧ start.head? ≠ some '\t' then
    let (document, rest) ← Reader.part? (start.length + 1) start
    if (rest.dropWhile fun c => c == ' ' || c == '\t').all Reader.isLead then pure document else none
  else none

end ApiCatalog.Document
