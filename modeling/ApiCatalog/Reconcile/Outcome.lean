import ApiCatalog.Store.Error
import ApiCatalog.Store.Key

/-!
# Requests, outcomes and errors of passes

A request asks for one pass over one catalog entry. The pass ends with an outcome, or with an error
of the store calls that fetch and commit the entry.
-/
namespace ApiCatalog

/-- The namespace is the one in which the references of the entry are looked up. -/
structure Request where
  partition : Partition
  nameSpace : Option String
  name : String
  deriving DecidableEq, Inhabited

namespace Request

def ofKey (key : ObjectKey) : Request := ⟨key.partition, key.nameSpace, key.name⟩

/-- A request without namespace. -/
def forEntry (partition : Partition) (entry : CatalogEntry) : Request :=
  ⟨partition, none, entry.name⟩

def display (r : Request) : String := r.partition.path ++ "/" ++ r.name

end Request

inductive Outcome where
  | entryGone
  /-- The derived status is the stored one; nothing is written. -/
  | unchanged (invalidReferences : List String)
  | statusUpdated (version : Version) (invalidReferences : List String)
  deriving DecidableEq, Repr, Inhabited

namespace Outcome

def wroteStatus : Outcome → Bool
  | statusUpdated .. => true
  | _ => false

/-- The references that did not resolve. -/
def invalidReferences : Outcome → List String
  | entryGone => []
  | unchanged invalid => invalid
  | statusUpdated _ invalid => invalid

def validity (invalid : List String) : String :=
  if invalid.isEmpty then "valid" else "invalid export(s): " ++ String.intercalate ", " invalid

def description : Outcome → String
  | entryGone => "entry not found"
  | unchanged invalid => "unchanged (" ++ validity invalid ++ ")"
  | statusUpdated version invalid =>
    "status updated to version " ++ toString version.toNat ++ " (" ++ validity invalid ++ ")"

end Outcome

inductive PassError where
  /-- The entry could not be read, for another reason than its absence. -/
  | fetch (key : String) (source : StoreError)
  /-- The status could not be written. -/
  | commit (key : String) (source : StoreError)
  | cancelled
  | failed (reason : String)
  | invalidConfig (reason : String)
  deriving DecidableEq, Repr, Inhabited

namespace PassError

def message : PassError → String
  | fetch key source => "failed to get catalog entry '" ++ key ++ "': " ++ source.message
  | commit key source => "failed to update catalog entry '" ++ key ++ "': " ++ source.message
  | cancelled => "reconcile pass cancelled"
  | failed reason => "reconciliation failed: " ++ reason
  | invalidConfig reason => "invalid configuration: " ++ reason

def source? : PassError → Option StoreError
  | fetch _ source => some source
  | commit _ source => some source
  | _ => none

/-- The entry was changed between fetch and commit. -/
def isConflict : PassError → Bool
  | commit _ source => source.isConflict
  | _ => false

end PassError
end ApiCatalog
