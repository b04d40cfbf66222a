import ApiCatalog.Proofs.Store.Operation
import ApiCatalog.Proofs.Table.Equality

/-!
# Lists of a partition

A store lists the objects of a partition that have no namespace. Main statements: such a list has
the objects that are found by their own names (`Keyed.mem_listEntries_iff`,
`Keyed.mem_listBindings_iff`), in the order of the names and none twice (`KeyedBy.listed_sorted`),
and it depends on the objects of its partition alone (`listed_congr`).
-/
namespace ApiCatalog

namespace ObjectKey

theorem compare_cluster (partition : Partition) (a b : String) :
    compare (cluster partition a) (cluster partition b) = compare a b := by
  change order (cluster partition a) (cluster partition b) = _
  simp [order, compareLex, compareOn, cluster, Std.ReflOrd.compare_self]

end ObjectKey

namespace Memory

variable {α : Type} {s t : Table ObjectKey α} {partition : Partition}

/-- The objects of a partition, in key order. -/
def listed (t : Table ObjectKey α) (partition : Partition) : List α :=
  (t.filter fun key _ => key.partition == partition).values

theorem mem_listed_iff {a : α} :
    a ∈ listed t partition ↔ ∃ key, t.get? key = some a ∧ key.partition = partition := by
  simp only [listed, Table.mem_values_filter, beq_iff_eq]

/-- What is stored in other partitions does not matter. -/
theorem listed_congr (same : ∀ key, key.partition = partition → t.get? key = s.get? key) :
    listed t partition = listed s partition := by
  have kept : (t.filter fun key _ => key.partition == partition) =
      s.filter fun key _ => key.partition == partition := by
    refine Table.eq_of_get? fun key => ?_
    rw [Table.get?_filter, Table.get?_filter]
    by_cases inside : key.partition = partition
    · rw [same key inside]
    · have outside := beq_eq_false_iff_ne.2 inside
      cases t.get? key <;> cases s.get? key <;> simp [outside]
  rw [listed, kept, listed]

section Names

variable [Stored α]

theorem KeyedBy.mem_listed_iff [LawfulStored α] (keyed : KeyedBy t) {a : α} :
    a ∈ listed t partition ↔ t.get? (Stored.key partition a) = some a := by
  rw [Memory.mem_listed_iff]
  constructor
  · rintro ⟨key, found, rfl⟩
    exact keyed key a found ▸ found
  · intro found
    exact ⟨_, found, LawfulStored.key_partition partition a⟩

/-- The names of objects without a namespace increase, and so none is there twice. -/
theorem KeyedBy.listed_sorted (keyed : KeyedBy t) (cluster : ∀ partition (a : α),
      Stored.key partition a = .cluster partition (Stored.metadata a).name) :
    (listed t partition).Pairwise fun a b =>
      compare (Stored.metadata a).name (Stored.metadata b).name = .lt := by
  refine List.pairwise_map.2 ((t.filter _).sorted.imp_of_mem ?_)
  intro a b first second less
  obtain ⟨stored, here⟩ := List.mem_filter.1 first
  obtain ⟨stored', here'⟩ := List.mem_filter.1 second
  rwa [keyed _ _ (Table.mem_rows_iff.1 stored), keyed _ _ (Table.mem_rows_iff.1 stored'),
    eq_of_beq here, eq_of_beq here', cluster, cluster, ObjectKey.compare_cluster] at less

end Names

section Kinds

variable {s : Memory}

theorem Keyed.mem_listEntries_iff (keyed : s.Keyed) {entry : CatalogEntry} :
    entry ∈ s.listEntries partition ↔ s.getEntry partition entry.name = .ok entry :=
  keyed.entries.mem_listed_iff.trans getEntry_eq_ok.symm

theorem Keyed.mem_listBindings_iff (keyed : s.Keyed) {binding : ApiBinding} :
    binding ∈ s.listBindings partition ↔
      s.getBinding partition binding.metadata.name = .ok binding :=
  keyed.bindings.mem_listed_iff.trans getBinding_eq_ok.symm

theorem Keyed.listEntries_sorted (keyed : s.Keyed) :
    (s.listEntries partition).Pairwise fun a b => compare a.name b.name = .lt :=
  keyed.entries.listed_sorted fun _ _ => rfl

theorem Keyed.listBindings_sorted (keyed : s.Keyed) : (s.listBindings partition).Pairwise
    fun a b => compare a.metadata.name b.metadata.name = .lt :=
  keyed.bindings.listed_sorted fun _ _ => rfl

end Kinds

end Memory
end ApiCatalog
