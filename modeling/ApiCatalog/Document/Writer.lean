import ApiCatalog.Document.Reader
import ApiCatalog.Json.Writer

/-!
# Writing documents

A document is written as JSON on one line, with escapes for all characters that would not be read as
they are.
-/
namespace ApiCatalog.Document

/-- Four hexadecimal digits. -/
def unitText (n : Nat) : List Char :=
  let run := Nat.toDigits 16 n
  List.replicate (4 - run.length) '0' ++ run

/-- How the text of a document shows a character; those with escapes are below U+10000. -/
def shown (c : Char) : List Char :=
  if isPermitted c ∧ ¬Quoted.isBreak c ∧ c ≠ Text.byteOrderMark then [c]
  else '\\' :: 'u' :: unitText c.toNat

/-- The text of the document that shows a value. -/
def textOf (value : Json) : String :=
  String.ofList (value.toText.toList.flatMap shown) ++ "\n"

end ApiCatalog.Document
