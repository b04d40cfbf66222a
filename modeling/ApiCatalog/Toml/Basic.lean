/-!
# Values of settings

The values of a TOML document. A number with a fraction or an exponent and a moment are kept as they
are written, for no setting is one.
-/
namespace ApiCatalog

inductive Toml where
  | text (value : String)
  | integer (value : Int)
  | float (written : String)
  | bool (value : Bool)
  /-- A date, a time of day, or both. -/
  | moment (written : String)
  | list (items : List Toml)
  | table (members : List (String × Toml))
  deriving Repr, Inhabited

/-- The members of a table. -/
abbrev Settings := List (String × Toml)

namespace Toml

def text? : Toml → Option String
  | text s => some s
  | _ => none

/-- An integer from 0 to 2^64 - 1. -/
def word? : Toml → Option UInt64
  | integer (.ofNat n) => if n < UInt64.size then some (UInt64.ofNat n) else none
  | _ => none

/-- The name of a constructor without contents: a text, or the only name in a table whose value is
empty. -/
def constructor? : Toml → Option String
  | text name => some name
  | table [(name, list [])] => some name
  | table [(name, table [])] => some name
  | _ => none

end Toml

namespace Settings

/-- A setting that has a value of its own if it is not given. -/
def orElse {α : Type} (settings : Settings) (name : String) (read? : Toml → Option α) (absent : α) :
    Option α :=
  match settings.lookup name with
  | none => some absent
  | some value => read? value

end Settings
end ApiCatalog
