import ApiCatalog.Json.Wire

/-!
# Schema identifiers

An export lists its schemas as `version.resource.group`. The first two dots separate the parts, so
a group keeps its own dots: `v1.tests.catalog.kcp.dev` has the group `catalog.kcp.dev`.
-/
namespace ApiCatalog

structure GroupResource where
  group : String
  resource : String
  deriving DecidableEq, Repr, Inhabited

namespace GroupResource

/-- The group follows the resource; the core group is not shown. -/
def display (r : GroupResource) : String :=
  if r.group = "" then r.resource else r.resource ++ "." ++ r.group

end GroupResource

structure SchemaId where
  version : String
  resource : String
  group : String
  deriving DecidableEq, Repr

/-- The text has fewer than two dots. -/
structure SchemaIdError where
  identifier : String
  deriving DecidableEq, Repr

def SchemaIdError.message (e : SchemaIdError) : String :=
  "malformed schema identifier '" ++ e.identifier ++ "': expected version.resource.group"

namespace SchemaId

/-- The text before the first dot and the text after it. -/
def cut? : List Char → Option (List Char × List Char)
  | [] => none
  | c :: rest => if c = '.' then some ([], rest) else (cut? rest).map fun (a, b) => (c :: a, b)

def ofString? (identifier : String) : Option SchemaId := do
  let (version, rest) ← cut? identifier.toList
  let (resource, group) ← cut? rest
  pure ⟨String.ofList version, String.ofList resource, String.ofList group⟩

def ofString (identifier : String) : Except SchemaIdError SchemaId :=
  match ofString? identifier with
  | some id => .ok id
  | none => .error ⟨identifier⟩

def display (id : SchemaId) : String := id.version ++ "." ++ id.resource ++ "." ++ id.group

/-- The pair of group and resource that the schema serves. -/
def groupResource (id : SchemaId) : GroupResource := ⟨id.group, id.resource⟩

end SchemaId

/-- What becomes of a schema identifier that cannot be read: it is dropped, or dropped and
reported. Neither makes an entry invalid. -/
inductive SchemaPolicy where
  | drop
  | report
  deriving DecidableEq, Repr, Inhabited

/-- The text names no policy; it is kept in lower case. -/
structure PolicyError where
  lowered : String
  deriving DecidableEq, Repr

def PolicyError.message (e : PolicyError) : String :=
  "invalid resource: unknown malformed schema policy '" ++ e.lowered ++
    "' (expected drop or report)"

namespace SchemaPolicy

def display : SchemaPolicy → String
  | drop => "drop"
  | report => "report"

def ofName? : String → Option SchemaPolicy
  | "drop" => some drop
  | "report" => some report
  | _ => none

/-- The name in any mixture of ASCII letter cases. -/
def ofString (text : String) : Except PolicyError SchemaPolicy :=
  let lowered := String.ofList (text.toList.map Char.toLower)
  match ofName? lowered with
  | some policy => .ok policy
  | none => .error ⟨lowered⟩

end SchemaPolicy

instance : Wire SchemaPolicy where
  encode policy := .text policy.display
  decode strictness json := (json.constructor? strictness).bind SchemaPolicy.ofName?

instance : Wire GroupResource where
  encode r := .object [("group", encode r.group), ("resource", encode r.resource)]
  decode strictness json := do
    let fields ← json.record? ["group", "resource"]
    pure {
      group := ← Fields.orElse strictness fields "group" ""
      resource := ← Fields.required strictness fields "resource" }

end ApiCatalog
