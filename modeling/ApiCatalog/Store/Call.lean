import ApiCatalog.Program
import ApiCatalog.Store.Error
import ApiCatalog.Store.Key

/-!
# Calls to a store

The calls that passes and clients make, with the answer each one has. Nothing is said here about how
a store answers.
-/
namespace ApiCatalog

inductive Call where
  | getEntry (partition : Partition) (name : String)
  | listEntries (partition : Partition)
  | getExport (partition : Partition) (nameSpace : Option String) (name : String)
  /-- Replaces the status of an entry if it still has the version of the given one. -/
  | updateEntryStatus (partition : Partition) (entry : CatalogEntry)
  | listBindings (partition : Partition)
  | getBinding (partition : Partition) (name : String)
  | createBinding (partition : Partition) (binding : ApiBinding)
  deriving DecidableEq, Inhabited

namespace Call

abbrev Answer : Call → Type
  | getEntry .. => Except StoreError CatalogEntry
  | listEntries .. => Except StoreError (List CatalogEntry)
  | getExport .. => Except StoreError ApiExport
  | updateEntryStatus .. => Except StoreError CatalogEntry
  | listBindings .. => Except StoreError (List ApiBinding)
  | getBinding .. => Except StoreError ApiBinding
  | createBinding .. => Except StoreError ApiBinding

/-- The answer that the call fails. -/
def failed (e : StoreError) : (call : Call) → call.Answer
  | getEntry .. => .error e
  | listEntries .. => .error e
  | getExport .. => .error e
  | updateEntryStatus .. => .error e
  | listBindings .. => .error e
  | getBinding .. => .error e
  | createBinding .. => .error e

end Call
end ApiCatalog
