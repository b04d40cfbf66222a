import ApiCatalog.Document.Basic
import ApiCatalog.Store.Key

/-!
# Snapshots

A snapshot lists every object of a store with its partition. It is the document that a state file
holds. The members of an object and its partition are read together, the object's own leniently.
-/
namespace ApiCatalog

/-- An object and the partition it is in. -/
structure Placed (α : Type) where
  partition : Partition
  object : α
  deriving DecidableEq

namespace Placed

def key {α : Type} [Stored α] (p : Placed α) : ObjectKey := Stored.key p.partition p.object

/-- The members of an object and that of its partition. -/
def encodeWith {α : Type} (members : α → List (String × Json)) (p : Placed α) : Json :=
  .object (("partition", encode p.partition) :: members p.object)

end Placed

/-- How the parts of a snapshot are read from the values of some form. -/
structure Source (β : Type) where
  items? : β → Option (List β)
  members? : β → Option (List (String × β))
  partition? : β → Option Partition
  /-- What is within an object of a snapshot. -/
  value? : β → Option Json

namespace Source

/-- JSON values are read as they are. -/
def json (strictness : Strictness) : Source Json where
  items? := Json.items?
  members?
    | .object members => some members
    | _ => none
  partition? := decode strictness
  value? := some

/-- In a document the partition may be any scalar. What is within an object is the fourth level of
nesting. -/
def document : Source Document where
  items? := Document.items?
  members? := Document.members?
  partition? document := document.text?.bind (Partition.ofString · |>.toOption)
  value? := Document.value? (Document.nestingLimit - 3)

section

variable {α β : Type} (source : Source β) (names : List String)
  (ofFields? : Strictness → Fields → Option α)

/-- Reads an object with its partition. -/
def placed? (value : β) : Option (Placed α) := do
  let members ← Json.distinct? ("partition" :: names) (← source.members? value)
  let partition ← (members.lookup "partition").bind source.partition?
  let fields ← (members.filter (·.1 != "partition")).mapM fun (name, value) =>
    (source.value? value).map fun value => (name, value)
  pure ⟨partition, ← ofFields? .lenient fields⟩

/-- Reads a list of objects, each with its partition; no list is the empty one. -/
def listOf? : Option β → Option (List (Placed α))
  | none => some []
  | some value => (source.items? value).bind (·.mapM (source.placed? names ofFields?))

end
end Source

structure Snapshot where
  entries : List (Placed CatalogEntry)
  exports : List (Placed ApiExport)
  bindings : List (Placed ApiBinding)
  deriving DecidableEq, Inhabited

namespace Snapshot

def empty : Snapshot := ⟨[], [], []⟩

/-- The versions of all objects. -/
def versions (s : Snapshot) : List Version :=
  s.entries.map (Stored.version ·.object) ++ s.exports.map (Stored.version ·.object) ++
    s.bindings.map (Stored.version ·.object)

end Snapshot

namespace Snapshot

/-- One member of the wire form, left out if it lists nothing. -/
def member {α : Type} (name : String) (members : α → List (String × Json))
    (objects : List (Placed α)) : List (String × Json) :=
  if objects.isEmpty then [] else [(name, .list (objects.map (Placed.encodeWith members)))]

def fields : List String := ["entries", "exports", "bindings"]

def ofMembers? {β : Type} (source : Source β) (members : List (String × β)) :
    Option Snapshot := do
  pure {
    entries := ← source.listOf? CatalogEntry.fields CatalogEntry.ofFields?
      (members.lookup "entries")
    exports := ← source.listOf? ApiExport.fields ApiExport.ofFields? (members.lookup "exports")
    bindings := ← source.listOf? ApiBinding.fields ApiBinding.ofFields?
      (members.lookup "bindings") }

/-- Reads the document of a state file, which is a mapping. -/
def ofDocument? (document : Document) : Option Snapshot := do
  ofMembers? .document (← Json.distinct? fields (← document.members?))

end Snapshot

instance : Wire Snapshot where
  encode s := .object <|
    Snapshot.member "entries" CatalogEntry.members s.entries ++
      Snapshot.member "exports" ApiExport.members s.exports ++
      Snapshot.member "bindings" ApiBinding.members s.bindings
  decode strictness json :=
    (json.record? Snapshot.fields).bind (Snapshot.ofMembers? (.json strictness))

end ApiCatalog
