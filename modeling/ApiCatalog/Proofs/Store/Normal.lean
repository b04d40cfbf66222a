import ApiCatalog.Proofs.Store.History
import ApiCatalog.Proofs.Store.Loading

/-!
# Normal snapshots

Any list of objects is a snapshot, with repeated keys and without versions. What a store gives back
is in key order, has one object for each key, and each has a version. Main statement: opening a
store from its own snapshot changes nothing, so that making snapshots normal is idempotent
(`restore_inverts_snapshot`).
-/
namespace ApiCatalog

namespace Memory

section Histories

/-- What is put back had a version when it was read. -/
theorem numbered_undoStatus {s : Memory} (numbered : s.Numbered) {partition : Partition}
    {previous : CatalogEntry} (read : previous.metadata.version ≠ 0) :
    (s.undoStatus partition previous).Numbered := by
  intro o has
  have entries : (s.undoStatus partition previous).entries =
    s.entries.insert (Stored.key partition previous) previous := rfl
  rcases has_insert_entry entries rfl rfl has with rfl | before
  · exact read
  · exact numbered o before

theorem numbered_undoBinding {s : Memory} (numbered : s.Numbered) (partition : Partition)
    (name : String) : (s.undoBinding partition name).Numbered := by
  unfold undoBinding
  dsimp only
  split
  · intro o has
    cases o with
    | entry key e => exact numbered (.entry key e) has
    | exported key e => exact numbered (.exported key e) has
    | binding key b => exact numbered (.binding key b) (Table.get?_of_get?_erase has).2
  · exact numbered

/-- In all states of a history every object has a version. -/
theorem History.numbered {s : Memory} {past : List Memory} (history : History s past) :
    ∀ t ∈ s :: past, t.Numbered := by
  induction history with
  | opened snapshot => simpa using numbered_ofSnapshot snapshot
  | @operated s past op _ ih =>
    exact List.forall_mem_cons.2 ⟨(op.stamps s).numbered (ih s List.mem_cons_self), ih⟩
  | @statusUndone s t past partition previous history earlier read ih =>
    have found := (history.reachable t earlier).keyed.reads_iff.1 read
    have version := ih t earlier (.entry _ previous) found
    exact List.forall_mem_cons.2 ⟨numbered_undoStatus (ih s List.mem_cons_self) version, ih⟩
  | @bindingUndone s past partition name _ ih =>
    exact List.forall_mem_cons.2 ⟨numbered_undoBinding (ih s List.mem_cons_self) _ _, ih⟩

theorem History.restored {s : Memory} {past : List Memory} (history : History s past) :
    SameObjects (ofSnapshot s.snapshot) s :=
  sameObjects_restored (history.reachable s List.mem_cons_self).keyed
    (history.numbered s List.mem_cons_self)

theorem SameObjects.snapshot {s t : Memory} (same : SameObjects s t) : s.snapshot = t.snapshot := by
  simp only [Memory.snapshot, same.entries, same.exports, same.bindings]

end Histories

section Tables

variable {α : Type} [Stored α]

/-- For each key the table has the last object of the list with that key, under a version if it had
none, and no others. -/
def HasLast (list : List (Placed α)) (t : Table ObjectKey α) : Prop :=
  ∀ key, Option.Rel (fun placed a => Filled placed ⟨placed.partition, a⟩)
    (list.filter (·.key = key)).getLast? (t.get? key)

theorem rel_getLast? {β γ : Type} {R : β → γ → Prop} {l : List β} {m : List γ}
    (each : List.Forall₂ R l m) : Option.Rel R l.getLast? m.getLast? := by
  have backwards := List.forall₂_reverse_iff.2 each
  rw [← List.head?_reverse, ← List.head?_reverse]
  generalize l.reverse = first, m.reverse = second at backwards
  cases backwards with
  | nil => exact .none
  | cons here _ => exact .some here

variable [LawfulStored α]

theorem hasLast_tabulate (last : Version) (list : List (Placed α)) :
    HasLast list (tabulate (numberAll last list).1) := by
  intro key
  have each : List.Forall₂ Filled (list.filter (·.key = key))
      ((numberAll last list).1.filter (·.key = key)) :=
    List.rel_filter (fun {p q} (here : Filled p q) => by simp [here.key_eq])
      (filled_numberAll last list)
  have found : (tabulate (numberAll last list).1).get? key =
      ((numberAll last list).1.filter (·.key = key)).getLast?.map (·.object) := by
    rw [tabulate, Table.get?_ofRows, List.filter_map, List.getLast?_map, Option.map_map]
    rfl
  have ends := rel_getLast? each
  rw [found]
  generalize (list.filter (·.key = key)).getLast? = given,
    ((numberAll last list).1.filter (·.key = key)).getLast? = stored at ends
  cases ends with
  | none => exact .none
  | some here => cases here with
    | kept some => exact .some (.kept some)
    | numbered none some => exact .some (.numbered none some)

omit [LawfulStored α] in
theorem listing_sorted {t : Table ObjectKey α} (keyed : KeyedBy t) :
    ((listing t).map Placed.key).Pairwise fun a b => compare a b = .lt := by
  rw [keys_listing keyed, List.pairwise_map]
  exact t.sorted

end Tables
end Memory

/-- Each kind is listed in strictly increasing key order. -/
structure Snapshot.Ordered (s : Snapshot) : Prop where
  entries : (s.entries.map Placed.key).Pairwise fun a b => compare a b = .lt
  exports : (s.exports.map Placed.key).Pairwise fun a b => compare a b = .lt
  bindings : (s.bindings.map Placed.key).Pairwise fun a b => compare a b = .lt

namespace Memory

/-- The store is the snapshot in its normal form: all objects have versions, and for each key there
is the last object of the snapshot. -/
structure Normal (snapshot : Snapshot) (s : Memory) : Prop where
  numbered : s.Numbered
  entries : HasLast snapshot.entries s.entries
  exports : HasLast snapshot.exports s.exports
  bindings : HasLast snapshot.bindings s.bindings

theorem normal_ofSnapshot (snapshot : Snapshot) : Normal snapshot (ofSnapshot snapshot) where
  numbered := numbered_ofSnapshot snapshot
  entries := hasLast_tabulate _ snapshot.entries
  exports := hasLast_tabulate _ snapshot.exports
  bindings := hasLast_tabulate _ snapshot.bindings

theorem Keyed.ordered {s : Memory} (keyed : s.Keyed) : s.snapshot.Ordered where
  entries := listing_sorted keyed.entries
  exports := listing_sorted keyed.exports
  bindings := listing_sorted keyed.bindings

/-- A store opened from the snapshot of another one, whatever its history, has the same objects
under the same keys and versions. Whatever a snapshot lists, the store opened from it is its normal
form, which is listed in key order and is its own normal form. -/
theorem restore_inverts_snapshot :
    (∀ {s : Memory} {past : List Memory}, History s past →
      SameObjects (ofSnapshot s.snapshot) s) ∧
    ∀ snapshot : Snapshot, Normal snapshot (ofSnapshot snapshot) ∧
      (ofSnapshot (ofSnapshot snapshot).snapshot).snapshot = (ofSnapshot snapshot).snapshot ∧
      (ofSnapshot snapshot).snapshot.Ordered := by
  refine ⟨fun {s _} history => history.restored,
    fun snapshot => ⟨normal_ofSnapshot snapshot, ?_, ?_⟩⟩
  · exact (History.opened snapshot).restored.snapshot
  · exact (keyed_ofSnapshot snapshot).ordered

namespace Sample

/-- The entry is there twice. It was written by hand the second time, as the export was. -/
def untidy : Snapshot := ⟨[⟨.root, stored⟩, ⟨.root, tools⟩], [⟨.root, widgets⟩], []⟩

end Sample

/-- The latter entry gets the version after the one that the former had. -/
theorem restore_inverts_snapshot_sample :
    SameObjects (ofSnapshot Sample.store.snapshot) Sample.store ∧
    (ofSnapshot (ofSnapshot Sample.untidy).snapshot).snapshot =
      ⟨[⟨.root, Stored.withVersion Sample.tools 3⟩],
        [⟨.root, Stored.withVersion Sample.widgets 4⟩], []⟩ := by
  obtain ⟨restored, normal⟩ := restore_inverts_snapshot
  refine ⟨restored Sample.history, ?_⟩
  rw [(normal Sample.untidy).2.1]
  decide +kernel

end Memory
end ApiCatalog
