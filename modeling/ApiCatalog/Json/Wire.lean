import ApiCatalog.Json.Basic

/-!
# Wire forms

A type with a `Wire` instance has a JSON form: `encode` writes it and `decode` reads it, strictly by
type. A record is an object of its fields or the list of their values in the order of the fields.
A constructor without contents is its name, or an object whose only member is that name with `null`.
-/
namespace ApiCatalog

/-- What may stand for the contents of a constructor without contents. -/
inductive Strictness where
  /-- Nothing but `null`. -/
  | strict
  /-- An object without members as well. -/
  | lenient
  deriving DecidableEq, Repr, Inhabited

class Wire (α : Type) where
  encode : α → Json
  decode : Strictness → Json → Option α

export Wire (encode decode)

namespace Json

def text? : Json → Option String
  | text s => some s
  | _ => none

def bool? : Json → Option Bool
  | bool b => some b
  | _ => none

/-- An integer from 0 to 2^64 - 1. -/
def word? : Json → Option UInt64
  | integer (.ofNat n) => if n < UInt64.size then some (UInt64.ofNat n) else none
  | _ => none

def items? : Json → Option (List Json)
  | list items => some items
  | _ => none

/-- The members of an object if none of the names is given twice. -/
def distinct? {α : Type} (names : List String) (members : List (String × α)) :
    Option (List (String × α)) :=
  if names.all fun name => members.countP (·.1 == name) ≤ 1 then some members else none

/-- The fields of a record that are given, by name. -/
def record? (names : List String) : Json → Option (List (String × Json))
  | object members => distinct? names members
  | list items => if items.length ≤ names.length then some (names.zip items) else none
  | _ => none

/-- The name of a constructor without contents. -/
def constructor? (strictness : Strictness) : Json → Option String
  | text name => some name
  | object [(name, null)] => some name
  | object [(name, object [])] => if strictness = .lenient then some name else none
  | _ => none

end Json

instance : Wire String := ⟨.text, fun _ => Json.text?⟩

instance : Wire UInt64 := ⟨fun n => .integer n.toNat, fun _ => Json.word?⟩

instance {α : Type} [Wire α] : Wire (List α) where
  encode items := .list (items.map encode)
  decode strictness json := json.items?.bind fun items => items.mapM (decode strictness)

/-- An absent value is `null`. -/
instance {α : Type} [Wire α] : Wire (Option α) where
  encode
    | none => .null
    | some a => encode a
  decode
    | _, .null => some none
    | strictness, json => (decode strictness json).map some

/-- The given fields of a record. -/
abbrev Fields := List (String × Json)

namespace Fields

section

variable {α : Type} [Wire α] (strictness : Strictness)

/-- A field that has to be given. -/
def required (fields : Fields) (name : String) : Option α :=
  (Json.member? fields name).bind (decode strictness)

/-- A field that has a value of its own if it is not given. -/
def orElse (fields : Fields) (name : String) (absent : α) : Option α :=
  match Json.member? fields name with
  | none => some absent
  | some json => decode strictness json

end

/-- Writes a field, or leaves it out. -/
def emit {α : Type} [Wire α] (name : String) (value : α) (omitted : Bool) : Fields :=
  if omitted then [] else [(name, encode value)]

end Fields
end ApiCatalog
