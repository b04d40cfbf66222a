import ApiCatalog.Resource

/-!
# Deriving the status of an entry

The status of an entry is a function of what its references resolve to: the schemas and claims of
the exports in order, and one condition that says whether every reference resolved. Conditions of
other types are carried over.
-/
namespace ApiCatalog

/-- The type of the condition that says whether every reference resolved. -/
def exportsValidType : String := "APIExportValid"

def invalidExportsReason : String := "InvalidExports"

def invalidExportsMessage (invalid : List String) : String :=
  "invalid export(s): " ++ String.intercalate ", " invalid

/-- The condition of a pass in which the given references did not resolve. -/
def exportsValid (invalid : List String) (now : Instant) : Condition :=
  if invalid.isEmpty then .holding exportsValidType now
  else .failing exportsValidType .error invalidExportsReason (invalidExportsMessage invalid) now

/-- What one reference adds to the status. -/
inductive Contribution where
  | resolved (e : ApiExport)
  | unresolved (reference : ExportReference)
  deriving DecidableEq, Inhabited

namespace Contribution

def schemas : Contribution → List String
  | resolved e => e.schemas
  | unresolved _ => []

def claims : Contribution → List PermissionClaim
  | resolved e => e.claims
  | unresolved _ => []

/-- The reference, if it did not resolve. -/
def invalid? : Contribution → Option String
  | resolved _ => none
  | unresolved reference => some reference.display

end Contribution

/-- A derived status, and what was left out of it. -/
structure Derivation where
  status : EntryStatus
  invalidReferences : List String
  /-- The schema identifiers that could not be read, if they are reported. -/
  malformedSchemas : List String
  deriving DecidableEq, Inhabited

namespace Derivation

def allValid (d : Derivation) : Bool := d.invalidReferences.isEmpty

/-- The resources served by those identifiers that can be read. -/
def resourcesOf (schemas : List String) : List GroupResource :=
  schemas.filterMap fun identifier => (SchemaId.ofString? identifier).map SchemaId.groupResource

def malformedOf (policy : SchemaPolicy) (schemas : List String) : List String :=
  match policy with
  | .drop => []
  | .report => schemas.filter fun identifier => (SchemaId.ofString? identifier).isNone

/-- Derives the status from the contributions of the references, in their order. -/
def ofContributions (policy : SchemaPolicy) (contributions : List Contribution)
    (prior : Conditions) (now : Instant) : Derivation :=
  let schemas := contributions.flatMap Contribution.schemas
  let invalid := contributions.filterMap Contribution.invalid?
  { status := {
      claims := contributions.flatMap Contribution.claims
      resources := resourcesOf schemas
      conditions := prior.set (exportsValid invalid now) }
    invalidReferences := invalid
    malformedSchemas := malformedOf policy schemas }

end Derivation
end ApiCatalog
