import ApiCatalog.Condition
import ApiCatalog.Schema

/-!
# Resources

Catalog entries, the exports they refer to and the bindings that activate exports, with their wire
forms. A catalog entry is a curated list of export references; its status is derived from the
exports that the references resolve to.
-/
namespace ApiCatalog

/-- The version of a stored object; 0 for an object that was never stored. -/
abbrev Version := UInt64

structure ObjectMeta where
  name : String
  /-- What a generated name starts with, for an object without a name. -/
  generateName : String
  nameSpace : Option String
  version : Version
  deriving DecidableEq, Repr, Inhabited

namespace ObjectMeta

def named (name : String) : ObjectMeta := ⟨name, "", none, 0⟩

def generated (stem : String) : ObjectMeta := ⟨"", stem, none, 0⟩

end ObjectMeta

/-- Names an export of another partition. -/
structure ExportReference where
  path : String
  exportName : String
  deriving DecidableEq, Repr, Inhabited

namespace ExportReference

def isComplete (r : ExportReference) : Bool := r.path != "" && r.exportName != ""

def display (r : ExportReference) : String := r.path ++ "/" ++ r.exportName

end ExportReference

/-- A kind of resource that the provider of an export asks its consumers to give access to. -/
structure PermissionClaim where
  group : String
  resource : String
  identityHash : String
  deriving DecidableEq, Repr, Inhabited

structure ApiExport where
  metadata : ObjectMeta
  /-- Identifiers of the form `version.resource.group`. -/
  schemas : List String
  claims : List PermissionClaim
  deriving DecidableEq, Repr, Inhabited

/-- What is observed of a catalog entry; derived anew by every pass. -/
structure EntryStatus where
  claims : List PermissionClaim
  resources : List GroupResource
  conditions : Conditions
  deriving DecidableEq, Inhabited

structure CatalogEntry where
  metadata : ObjectMeta
  exports : List ExportReference
  description : String
  status : EntryStatus
  deriving DecidableEq, Inhabited

namespace CatalogEntry

def name (e : CatalogEntry) : String := e.metadata.name

end CatalogEntry

inductive BindingPhase where
  | pending
  | binding
  | bound
  deriving DecidableEq, Repr, Inhabited

/-- Activates an export in the partition it is stored in. -/
structure ApiBinding where
  metadata : ObjectMeta
  reference : ExportReference
  claims : List PermissionClaim
  phase : BindingPhase
  deriving DecidableEq, Repr, Inhabited

namespace ApiBinding

/-- A binding whose name is generated from the name of the export. -/
def forReference (r : ExportReference) : ApiBinding :=
  ⟨.generated (r.exportName ++ "-"), r, [], .pending⟩

def isBound (b : ApiBinding) : Bool := b.phase == .bound

end ApiBinding

namespace BindingPhase

def display : BindingPhase → String
  | pending => "Pending"
  | binding => "Binding"
  | bound => "Bound"

def name : BindingPhase → String
  | pending => ""
  | binding => "Binding"
  | bound => "Bound"

def ofName? : String → Option BindingPhase
  | "" => some pending
  | "Binding" => some binding
  | "Bound" => some bound
  | _ => none

end BindingPhase

namespace EntryStatus

def empty : EntryStatus := ⟨[], [], .empty⟩

end EntryStatus

instance : Wire ObjectMeta where
  encode m := .object <|
    Fields.emit "name" m.name (m.name == "") ++
      Fields.emit "generateName" m.generateName (m.generateName == "") ++
      Fields.emit "namespace" m.nameSpace m.nameSpace.isNone ++
      [("resourceVersion", encode m.version)]
  decode strictness json := do
    let fields ← json.record? ["name", "generateName", "namespace", "resourceVersion"]
    pure {
      name := ← Fields.orElse strictness fields "name" ""
      generateName := ← Fields.orElse strictness fields "generateName" ""
      nameSpace := ← Fields.orElse strictness fields "namespace" none
      version := ← Fields.orElse strictness fields "resourceVersion" 0 }

namespace ExportReference

/-- Path and name of the reference, which the wire form puts under `workspace`. -/
def ofWorkspace? (strictness : Strictness) (json : Json) : Option ExportReference := do
  let fields ← json.record? ["path", "exportName"]
  pure ⟨← Fields.orElse strictness fields "path" "",
    ← Fields.orElse strictness fields "exportName" ""⟩

end ExportReference

instance : Wire ExportReference where
  encode r := .object
    [("workspace", .object [("path", encode r.path), ("exportName", encode r.exportName)])]
  decode strictness json := do
    let fields ← json.record? ["workspace"]
    match Json.member? fields "workspace" with
    | none => pure ⟨"", ""⟩
    | some workspace => ExportReference.ofWorkspace? strictness workspace

instance : Wire PermissionClaim where
  encode c := .object <|
    Fields.emit "group" c.group (c.group == "") ++ [("resource", encode c.resource)] ++
      Fields.emit "identityHash" c.identityHash (c.identityHash == "")
  decode strictness json := do
    let fields ← json.record? ["group", "resource", "identityHash"]
    pure {
      group := ← Fields.orElse strictness fields "group" ""
      resource := ← Fields.required strictness fields "resource"
      identityHash := ← Fields.orElse strictness fields "identityHash" "" }

namespace ApiExport

def fields : List String := ["metadata", "spec"]

/-- The members of the wire form. -/
def members (e : ApiExport) : List (String × Json) :=
  [("metadata", encode e.metadata),
    ("spec", .object
      [("latestResourceSchemas", encode e.schemas), ("permissionClaims", encode e.claims)])]

def ofFields? (strictness : Strictness) (fields : Fields) : Option ApiExport := do
  let metadata ← Fields.orElse strictness fields "metadata" (.named "")
  match Json.member? fields "spec" with
  | none => pure ⟨metadata, [], []⟩
  | some json =>
    let spec ← json.record? ["latestResourceSchemas", "permissionClaims"]
    pure ⟨metadata, ← Fields.orElse strictness spec "latestResourceSchemas" [],
      ← Fields.orElse strictness spec "permissionClaims" []⟩

end ApiExport

instance : Wire ApiExport where
  encode e := .object e.members
  decode strictness json :=
    (json.record? ApiExport.fields).bind (ApiExport.ofFields? strictness)

instance : Wire EntryStatus where
  encode s := .object <|
    Fields.emit "exportPermissionClaims" s.claims s.claims.isEmpty ++
      Fields.emit "resources" s.resources s.resources.isEmpty ++
      Fields.emit "conditions" s.conditions s.conditions.slots.isEmpty
  decode strictness json := do
    let fields ← json.record? ["exportPermissionClaims", "resources", "conditions"]
    pure {
      claims := ← Fields.orElse strictness fields "exportPermissionClaims" []
      resources := ← Fields.orElse strictness fields "resources" []
      conditions := ← Fields.orElse strictness fields "conditions" .empty }

namespace CatalogEntry

def fields : List String := ["metadata", "spec", "status"]

/-- The members of the wire form. -/
def members (e : CatalogEntry) : List (String × Json) :=
  [("metadata", encode e.metadata),
    ("spec", .object <|
      ("exports", encode e.exports) ::
        Fields.emit "description" e.description (e.description == "")),
    ("status", encode e.status)]

def ofFields? (strictness : Strictness) (fields : Fields) : Option CatalogEntry := do
  let metadata ← Fields.orElse strictness fields "metadata" (.named "")
  let (exports, description) ← match Json.member? fields "spec" with
    | none => some ([], "")
    | some json => do
      let spec ← json.record? ["exports", "description"]
      pure (← Fields.orElse strictness spec "exports" [],
        ← Fields.orElse strictness spec "description" "")
  pure ⟨metadata, exports, description, ← Fields.orElse strictness fields "status" .empty⟩

end CatalogEntry

instance : Wire CatalogEntry where
  encode e := .object e.members
  decode strictness json :=
    (json.record? CatalogEntry.fields).bind (CatalogEntry.ofFields? strictness)

instance : Wire BindingPhase where
  encode phase := .text phase.name
  decode strictness json := (json.constructor? strictness).bind BindingPhase.ofName?

namespace ApiBinding

def fields : List String := ["metadata", "spec", "status"]

/-- The members of the wire form. -/
def members (b : ApiBinding) : List (String × Json) :=
  [("metadata", encode b.metadata),
    ("spec", .object <|
      ("reference", encode b.reference) ::
        Fields.emit "permissionClaims" b.claims b.claims.isEmpty),
    ("status", .object [("phase", encode b.phase)])]

def ofFields? (strictness : Strictness) (fields : Fields) : Option ApiBinding := do
  let metadata ← Fields.orElse strictness fields "metadata" (.named "")
  let spec ← (← Json.member? fields "spec").record? ["reference", "permissionClaims"]
  let reference ← Fields.required strictness spec "reference"
  let claims ← Fields.orElse strictness spec "permissionClaims" []
  match Json.member? fields "status" with
  | none => pure ⟨metadata, reference, claims, .pending⟩
  | some json =>
    let status ← json.record? ["phase"]
    pure ⟨metadata, reference, claims, ← Fields.orElse strictness status "phase" .pending⟩

end ApiBinding

instance : Wire ApiBinding where
  encode b := .object b.members
  decode strictness json :=
    (json.record? ApiBinding.fields).bind (ApiBinding.ofFields? strictness)

end ApiCatalog
