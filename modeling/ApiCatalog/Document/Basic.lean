import ApiCatalog.Json.Basic
import ApiCatalog.Text.Double

/-!
# Documents

A document is a tree of scalars, lists and mappings. A scalar without quotes is kept as it is
written, for its meaning depends on the reader: read as a text it is its own writing, read as a value
it may be null, a truth value or a number.
-/
namespace ApiCatalog

/-- A document or a part of one. -/
inductive Document where
  /-- A scalar without quotes. -/
  | plain (written : String)
  | quoted (text : String)
  | list (items : List Document)
  | mapping (members : List (String × Document))
  deriving Repr, Inhabited

namespace Document

/-- A scalar read as a text. -/
def text? : Document → Option String
  | plain written => some written
  | quoted text => some text
  | _ => none

def items? : Document → Option (List Document)
  | list items => some items
  | _ => none

def members? : Document → Option (List (String × Document))
  | mapping members => some members
  | _ => none

/-! ## Values -/

/-- The integer that is written, if the scalar has no fraction and no exponent. -/
def integer? (written : String) : Option Int :=
  match written.toList with
  | '-' :: run => (Text.natural? run).map fun n => -(n : Int)
  | run => (Text.natural? run).map Int.ofNat

/-- A number that is no integer; one beyond double precision counts as a text. -/
def number (written : String) : Json :=
  match (Text.Scientific.ofText? written.toList).bind Text.Double.ofScientific? with
  | some _ => .decimal written
  | none => .text written

/-- A scalar without quotes read as a value. An integer of more than 64 bits has none, unless it has
more than 128 bits: then it is a number like one with a fraction. -/
def plainValue? (written : String) : Option Json :=
  if written = "null" then some .null
  else if written = "true" then some (.bool true)
  else if written = "false" then some (.bool false)
  else
    match integer? written with
    | none => some (number written)
    | some n =>
      if Text.fits 64 n then some (.integer n)
      else if Text.fits 128 n then none
      else some (number written)

mutual

/-- A document read as a value, in which lists and mappings are nested no deeper than `depth`. -/
def value? : Nat → Document → Option Json
  | _, plain written => plainValue? written
  | _, quoted text => some (.text text)
  | 0, list _ => none
  | 0, mapping _ => none
  | depth + 1, list items => (itemValues? depth items).map .list
  | depth + 1, mapping members => (memberValues? depth members).map .object

def itemValues? : Nat → List Document → Option (List Json)
  | _, [] => some []
  | depth, item :: items => do pure ((← value? depth item) :: (← itemValues? depth items))

def memberValues? : Nat → List (String × Document) → Option (List (String × Json))
  | _, [] => some []
  | depth, (name, item) :: members => do
    pure ((name, ← value? depth item) :: (← memberValues? depth members))

end

/-- So deep may the lists and mappings of a document be nested, where they are read as values. -/
def nestingLimit : Nat := 128

mutual

/-- The document that shows a value. -/
def ofJson : Json → Document
  | .null => plain "null"
  | .bool b => plain (if b then "true" else "false")
  | .integer n => plain (toString n)
  | .decimal written => plain written
  | .text text => quoted text
  | .list items => list (ofItems items)
  | .object members => mapping (ofMembers members)

def ofItems : List Json → List Document
  | [] => []
  | item :: items => ofJson item :: ofItems items

def ofMembers : List (String × Json) → List (String × Document)
  | [] => []
  | (name, value) :: members => (name, ofJson value) :: ofMembers members

end

end Document
end ApiCatalog
