import ApiCatalog.Toml.Basic

/-!
# Tables under construction

The lines of a TOML document fill its tables bit by bit. A table can be named by a header, come up
as a part of a longer name in a header, or come up as a part of a name with dots before a value.
Only in the second case may a header name it later. A name with dots does not reach into a table
that a header names, and it puts its value only into a table that came up with such a name. Nothing
is ever given twice.
-/
namespace ApiCatalog.Toml

inductive Origin where
  | header
  | implied
  | dotted
  deriving DecidableEq, Repr, Inhabited

/-- What a name stands for. Values are complete; a list of tables gets its rows from headers. -/
inductive Node where
  | value (value : Toml)
  | branch (origin : Origin) (members : List (String × Node))
  | rows (above : List (List (String × Node))) (last : List (String × Node))
  deriving Inhabited

/-- The members of a table under construction. -/
abbrev Branch := List (String × Node)

namespace Branch

/-- The members with that one replaced. -/
def replace (members : Branch) (name : String) (node : Node) : Branch :=
  members.map fun m => if m.1 == name then (name, node) else m

/-- Gives a value to a name with dots. A list of tables stands for its last row, into which the name
may reach but not put its value. -/
def put? (value : Toml) : List String → Branch → Option Branch
  | [], _ => none
  | [name], members =>
    match members.lookup name with
    | none => some (members ++ [(name, .value value)])
    | some _ => none
  | name :: rest, members =>
    match members.lookup name with
    | none => (put? value rest []).map fun inner => members ++ [(name, .branch .dotted inner)]
    | some (.branch origin inner) =>
      if origin = .header ∨ (origin = .implied ∧ rest.length = 1) then none
      else (put? value rest inner).map fun inner => replace members name (.branch origin inner)
    | some (.rows above last) =>
      if rest.length = 1 then none
      else (put? value rest last).map fun last => replace members name (.rows above last)
    | some (.value _) => none

/-- Changes the table of that path. Tables that are not there yet come up as implied ones, and a
list of tables stands for its last row. -/
def within? (change? : Branch → Option Branch) : List String → Branch → Option Branch
  | [], members => change? members
  | name :: rest, members =>
    match members.lookup name with
    | none =>
      (within? change? rest []).map fun inner => members ++ [(name, .branch .implied inner)]
    | some (.branch origin inner) =>
      (within? change? rest inner).map fun inner => replace members name (.branch origin inner)
    | some (.rows above last) =>
      (within? change? rest last).map fun last => replace members name (.rows above last)
    | some (.value _) => none

/-- Lets a header name a table. -/
def openTable? (name : String) (members : Branch) : Option Branch :=
  match members.lookup name with
  | none => some (members ++ [(name, .branch .header [])])
  | some (.branch .implied inner) => some (replace members name (.branch .header inner))
  | some _ => none

/-- Lets a header start a row of a list of tables. -/
def openRow? (name : String) (members : Branch) : Option Branch :=
  match members.lookup name with
  | none => some (members ++ [(name, .rows [] [])])
  | some (.rows above last) => some (replace members name (.rows (above ++ [last]) []))
  | some _ => none

end Branch

mutual

/-- The value that is built. -/
def Node.complete : Node → Toml
  | .value value => value
  | .branch _ members => .table (completeAll members)
  | .rows above last => .list (completeRows above ++ [.table (completeAll last)])

def completeAll : Branch → Settings
  | [] => []
  | (name, node) :: rest => (name, node.complete) :: completeAll rest

def completeRows : List Branch → List Toml
  | [] => []
  | row :: rest => .table (completeAll row) :: completeRows rest

end

/-- A document under construction. -/
structure Outline where
  root : Branch
  /-- The path of the table that the lines fill. -/
  current : List String
  deriving Inhabited

namespace Outline

def empty : Outline := ⟨[], []⟩

def put? (o : Outline) (path : List String) (value : Toml) : Option Outline :=
  (Branch.within? (Branch.put? value path) o.current o.root).map fun root => { o with root }

/-- Turns to another table, which is opened in the table above it. -/
def turn? (add? : String → Branch → Option Branch) (path : List String) (o : Outline) :
    Option Outline := do
  let name ← path.getLast?
  pure ⟨← Branch.within? (add? name) path.dropLast o.root, path⟩

end Outline
end ApiCatalog.Toml
