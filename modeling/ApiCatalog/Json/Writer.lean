import ApiCatalog.Json.Basic
import ApiCatalog.Text.Stepwise

/-!
# Writing JSON text

The text of a value on one line, with the escapes that JSON asks for and no others. A number that
is no 64-bit integer is written in double precision, to which it is read step by step.
-/
namespace ApiCatalog.Json

/-- How a string shows one character. -/
def escape (c : Char) : String :=
  if c = '"' then "\\\""
  else if c = '\\' then "\\\\"
  else if c = '\n' then "\\n"
  else if c = '\r' then "\\r"
  else if c = '\t' then "\\t"
  else if c = '\x08' then "\\b"
  else if c = '\x0c' then "\\f"
  else if c.toNat < 0x20 then
    "\\u00" ++ (if c.toNat < 0x10 then "0" else "") ++ String.ofList (Nat.toDigits 16 c.toNat)
  else c.toString

def stringText (s : String) : String :=
  "\"" ++ String.join (s.toList.map escape) ++ "\""

/-- The text of a decimal number in double precision, or the number as it is if that is infinite. -/
def decimalText (written : String) : String :=
  (Text.Stepwise.shown? written.toList).getD written

def integerText (n : Int) : String :=
  if Text.fits 64 n then toString n else decimalText (toString n)

mutual

def toText : Json → String
  | null => "null"
  | bool true => "true"
  | bool false => "false"
  | integer n => integerText n
  | decimal written => decimalText written
  | text s => stringText s
  | list [] => "[]"
  | list (item :: items) => "[" ++ item.toText ++ itemsText items ++ "]"
  | object [] => "\x7b\x7d"
  | object ((name, value) :: members) =>
    "\x7b" ++ stringText name ++ ":" ++ value.toText ++ membersText members ++ "\x7d"

/-- The items after the first one. -/
def itemsText : List Json → String
  | [] => ""
  | item :: items => "," ++ item.toText ++ itemsText items

/-- The members after the first one. -/
def membersText : List (String × Json) → String
  | [] => ""
  | (name, value) :: members =>
    "," ++ stringText name ++ ":" ++ value.toText ++ membersText members

end

end ApiCatalog.Json
