/-!
# JSON values

Values of the documents that the catalog reads and writes. A number without fraction and exponent is
an integer of any size; every other number is kept as it is written.
-/
namespace ApiCatalog

inductive Json where
  | null
  | bool (value : Bool)
  | integer (value : Int)
  | decimal (written : String)
  | text (value : String)
  | list (items : List Json)
  | object (members : List (String × Json))
  deriving Repr, Inhabited

namespace Json

/-- The value of a member of an object. -/
def member? (members : List (String × Json)) (name : String) : Option Json :=
  (members.find? fun m => m.1 == name).map Prod.snd

/-- The member of that name, `none` for another value than an object. -/
def get? (name : String) : Json → Option Json
  | object members => member? members name
  | _ => none

end Json
end ApiCatalog
