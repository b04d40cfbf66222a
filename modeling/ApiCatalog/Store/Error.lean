import ApiCatalog.Resource

/-!
# Errors of a store
-/
namespace ApiCatalog

inductive StoreError where
  | notFound (kind key : String)
  /-- The object was changed since it was read. -/
  | conflict (kind key : String) (expected actual : Version)
  | alreadyExists (kind key : String)
  | invalid (kind reason : String)
  /-- The backend did not serve the request. -/
  | unavailable (reason : String)
  | io (path reason : String)
  | serialization (reason : String)
  deriving DecidableEq, Repr, Inhabited

namespace StoreError

def message : StoreError → String
  | notFound kind key => kind ++ " '" ++ key ++ "' not found"
  | conflict kind key expected actual =>
    "conflict writing " ++ kind ++ " '" ++ key ++ "': expected version " ++
      toString expected.toNat ++ ", found " ++ toString actual.toNat
  | alreadyExists kind key => kind ++ " '" ++ key ++ "' already exists"
  | invalid kind reason => "invalid " ++ kind ++ ": " ++ reason
  | unavailable reason => "store unavailable: " ++ reason
  | io path reason => "store I/O error on '" ++ path ++ "': " ++ reason
  | serialization reason => "store serialization error: " ++ reason

def isNotFound : StoreError → Bool
  | notFound .. => true
  | _ => false

def isConflict : StoreError → Bool
  | conflict .. => true
  | _ => false

section Kinds

variable {e : StoreError}

theorem isNotFound_iff : e.isNotFound = true ↔ ∃ kind key, e = notFound kind key := by
  cases e <;> simp [isNotFound]

theorem isConflict_iff :
    e.isConflict = true ↔ ∃ kind key expected actual, e = conflict kind key expected actual := by
  cases e <;> simp [isConflict]

end Kinds

end StoreError
end ApiCatalog
