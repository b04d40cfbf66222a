import ApiCatalog.Partition
import ApiCatalog.Resource

/-!
# Keys of stored objects

An object is stored under its partition, its namespace if it has one, and its name. Keys are ordered
by partition, then namespace (none comes first), then name.
-/
namespace ApiCatalog

structure ObjectKey where
  partition : Partition
  nameSpace : Option String
  name : String
  deriving DecidableEq, Inhabited

namespace ObjectKey

/-- The key of an object that is not namespaced. -/
def cluster (partition : Partition) (name : String) : ObjectKey := ⟨partition, none, name⟩

def display (key : ObjectKey) : String :=
  match key.nameSpace with
  | some space => key.partition.path ++ "/" ++ space ++ "/" ++ key.name
  | none => key.partition.path ++ "/" ++ key.name

/-- By partition, then namespace, then name. -/
def order : ObjectKey → ObjectKey → Ordering :=
  compareLex (compareOn partition) (compareLex (compareOn nameSpace) (compareOn name))

instance : Ord ObjectKey := ⟨order⟩

instance : Std.TransOrd ObjectKey := inferInstanceAs (Std.TransCmp
  (compareLex (compareOn partition) (compareLex (compareOn nameSpace) (compareOn name))))

theorem order_eq_iff {a b : ObjectKey} : order a b = .eq ↔
    compare a.partition b.partition = .eq ∧ compare a.nameSpace b.nameSpace = .eq ∧
      compare a.name b.name = .eq := by
  simp [order, compareLex, compareOn, Ordering.then_eq_eq]

instance : Std.LawfulEqOrd ObjectKey where
  compare_self {_} := order_eq_iff.2
    ⟨Std.ReflOrd.compare_self, Std.ReflOrd.compare_self, Std.ReflOrd.compare_self⟩
  eq_of_compare {a b} h := by
    obtain ⟨hp, hs, hn⟩ := order_eq_iff.1 h
    cases a; cases b
    cases Std.LawfulEqCmp.eq_of_compare hp
    cases Std.LawfulEqCmp.eq_of_compare hs
    cases Std.LawfulEqCmp.eq_of_compare hn
    rfl

end ObjectKey

/-- Kinds of objects as messages name them. -/
def entryKind : String := "CatalogEntry"

def exportKind : String := "APIExport"

def bindingKind : String := "APIBinding"

/-- An object that a store keeps: it has metadata, and a key in its partition. -/
class Stored (α : Type) where
  metadata : α → ObjectMeta
  withMetadata : α → ObjectMeta → α
  key : Partition → α → ObjectKey

instance : Stored CatalogEntry where
  metadata e := e.metadata
  withMetadata e m := { e with metadata := m }
  key p e := .cluster p e.metadata.name

instance : Stored ApiExport where
  metadata e := e.metadata
  withMetadata e m := { e with metadata := m }
  key p e := ⟨p, e.metadata.nameSpace, e.metadata.name⟩

instance : Stored ApiBinding where
  metadata b := b.metadata
  withMetadata b m := { b with metadata := m }
  key p b := .cluster p b.metadata.name

namespace Stored

variable {α : Type} [Stored α]

def version (a : α) : Version := (metadata a).version

def withVersion (a : α) (version : Version) : α :=
  withMetadata a { metadata a with version := version }

end Stored
end ApiCatalog
