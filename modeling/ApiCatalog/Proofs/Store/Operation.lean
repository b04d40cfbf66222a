import ApiCatalog.Proofs.Table
import ApiCatalog.Store.Memory

/-!
# Operations on a store

What others can do to a store, one operation at a time. A mutation changes objects and is published;
the other operations install and remove faults of exports and are not. Main statements: every change
that a mutation makes to an entry or an export is announced on the feed under its key
(`Mutation.announces`), and in every reachable store each object is under its own key
(`Reachable.keyed`).
-/
namespace ApiCatalog

/-- The key of an object depends on its metadata alone, and not on the version. -/
class LawfulStored (α : Type) [Stored α] : Prop where
  key_partition (partition : Partition) (a : α) : (Stored.key partition a).partition = partition
  key_withVersion (partition : Partition) (a : α) (version : Version) :
    Stored.key partition (Stored.withVersion a version) = Stored.key partition a
  version_withVersion (a : α) (version : Version) :
    Stored.version (Stored.withVersion a version) = version

instance : LawfulStored CatalogEntry := ⟨fun _ _ => rfl, fun _ _ _ => rfl, fun _ _ => rfl⟩

instance : LawfulStored ApiExport := ⟨fun _ _ => rfl, fun _ _ _ => rfl, fun _ _ => rfl⟩

instance : LawfulStored ApiBinding := ⟨fun _ _ => rfl, fun _ _ _ => rfl, fun _ _ => rfl⟩

namespace Memory

/-- A change to the objects of a store. -/
inductive Mutation where
  | putEntry (partition : Partition) (entry : CatalogEntry)
  | deleteEntry (partition : Partition) (name : String)
  | putExport (partition : Partition) (e : ApiExport)
  | deleteExport (key : ObjectKey)
  | putBinding (partition : Partition) (binding : ApiBinding)
  | setPhase (partition : Partition) (name : String) (phase : BindingPhase)
  | createBinding (suffix : String) (partition : Partition) (binding : ApiBinding)
  | updateEntryStatus (partition : Partition) (entry : CatalogEntry)

/-- The store after a mutation, whether or not it succeeds. -/
def Mutation.apply : Mutation → Memory → Memory
  | putEntry partition entry, s => (s.putEntry partition entry).2
  | deleteEntry partition name, s => (s.deleteEntry partition name).2
  | putExport partition e, s => (s.putExport partition e).2
  | deleteExport key, s => (s.deleteExport key).2
  | putBinding partition binding, s => (s.putBinding partition binding).2
  | setPhase partition name phase, s => (s.setPhase partition name phase).2
  | createBinding suffix partition binding, s => (s.createBinding suffix partition binding).2
  | updateEntryStatus partition entry, s => (s.updateEntryStatus partition entry).2

inductive Operation where
  | mutate (m : Mutation)
  | failExport (key : ObjectKey) (e : StoreError)
  | clearFault (key : ObjectKey)

def Operation.apply : Operation → Memory → Memory
  | mutate m, s => m.apply s
  | failExport key e, s => s.failExport key e
  | clearFault key, s => s.clearFault key

/-- The stores that come up: opened from any snapshot, after any operations. A write of a state file
that fails takes back what it could not save. -/
inductive Reachable : Memory → Prop where
  | opened (snapshot : Snapshot) : Reachable (.ofSnapshot snapshot)
  | operated {s : Memory} (op : Operation) : Reachable s → Reachable (op.apply s)
  | statusUndone {s : Memory} (partition : Partition) (previous : CatalogEntry) :
      Reachable s → Reachable (s.undoStatus partition previous)
  | bindingUndone {s : Memory} (partition : Partition) (name : String) :
      Reachable s → Reachable (s.undoBinding partition name)

theorem getEntry_eq_ok {s : Memory} {partition : Partition} {name : String} {entry : CatalogEntry} :
    s.getEntry partition name = .ok entry ↔
      s.entries.get? (.cluster partition name) = some entry := by
  unfold getEntry
  dsimp only
  split
  next found => rw [found, Except.ok.injEq, Option.some.injEq]
  next missing => simp [missing]

theorem getEntry_eq_error {s : Memory} {partition : Partition} {name : String} {e : StoreError}
    (refused : s.getEntry partition name = .error e) :
    s.entries.get? (.cluster partition name) = none ∧
      e = .notFound entryKind (ObjectKey.cluster partition name).display := by
  unfold getEntry at refused
  dsimp only at refused
  split at refused
  · cases refused
  next missing => exact ⟨missing, (Except.error.inj refused).symm⟩

theorem getBinding_eq_ok {s : Memory} {partition : Partition} {name : String}
    {binding : ApiBinding} : s.getBinding partition name = .ok binding ↔
      s.bindings.get? (.cluster partition name) = some binding := by
  unfold getBinding
  dsimp only
  split
  next found => rw [found, Except.ok.injEq, Option.some.injEq]
  next missing => simp [missing]

/-- A binding that is not created leaves the store as it is, the version counter included. One that
is created has a key that was free, and the next version; else it is the binding that was given. -/
theorem createBinding_cases (s : Memory) (suffix : String) (partition : Partition)
    (binding : ApiBinding) :
    (∃ e, s.createBinding suffix partition binding = (.error e, s)) ∨
      ∃ created, s.createBinding suffix partition binding = (.ok created,
        { s.bump with bindings := s.bindings.insert (Stored.key partition created) created }.publish
          .bindingChanged (Stored.key partition created)) ∧
        s.bindings.get? (Stored.key partition created) = none ∧
        created.metadata.version = s.lastVersion.next ∧
        created = { binding with metadata := created.metadata } := by
  unfold createBinding
  extract_lets metadata name key
  by_cases unnamed : metadata.name = "" ∧ metadata.generateName = ""
  · exact .inl ⟨_, if_pos unnamed⟩
  · rw [if_neg unnamed]
    by_cases taken : s.bindings.contains key = true
    · exact .inl ⟨_, if_pos taken⟩
    · have free : s.bindings.get? key = none := by simpa [Table.contains] using taken
      exact .inr ⟨_, if_neg taken, free, rfl, rfl⟩

theorem createBinding_ok {s s' : Memory} {suffix : String} {partition : Partition}
    {binding created : ApiBinding}
    (done : s.createBinding suffix partition binding = (.ok created, s')) :
    s' = { s.bump with
        bindings := s.bindings.insert (Stored.key partition created) created }.publish
          .bindingChanged (Stored.key partition created) ∧
      s.bindings.get? (Stored.key partition created) = none ∧
      created = { binding with metadata := created.metadata } := by
  rcases createBinding_cases s suffix partition binding with ⟨e, refused⟩ |
    ⟨other, stored, free, -, given⟩
  · rw [refused] at done
    cases done
  · rw [stored, Prod.mk.injEq, Except.ok.injEq] at done
    obtain ⟨rfl, rfl⟩ := done
    exact ⟨rfl, free, given⟩

section Announcements

/-- From `s` to `s'` every entry that is new or changed, and every export that is changed, has its
event among the news, which follow what was published before. -/
structure Announces (s s' : Memory) (news : List Event) : Prop where
  published : s'.published = s.published ++ news
  faults : s'.faults = s.faults
  entry : ∀ {key e}, s'.entries.get? key = some e →
    s.entries.get? key = some e ∨ ⟨.entryChanged, key⟩ ∈ news
  exported : ∀ key, s'.exports.get? key = s.exports.get? key ∨ ⟨.exportChanged, key⟩ ∈ news

/-- Nothing to announce: the tables of entries and exports are the same. -/
theorem Announces.of_eq {s s' : Memory} {news : List Event}
    (published : s'.published = s.published ++ news) (faults : s'.faults = s.faults)
    (entries : s'.entries = s.entries) (exported : s'.exports = s.exports) :
    Announces s s' news where
  published
  faults
  entry h := .inl (entries ▸ h)
  exported key := .inl (by rw [exported])

theorem Announces.of_entry {s s' : Memory} {key : ObjectKey} {e : CatalogEntry}
    (published : s'.published = s.published ++ [⟨.entryChanged, key⟩])
    (faults : s'.faults = s.faults) (entries : s'.entries = s.entries.insert key e)
    (exported : s'.exports = s.exports) : Announces s s' [⟨.entryChanged, key⟩] where
  published
  faults
  entry {other found} h := by
    rw [entries] at h
    rcases Table.get?_insert_cases h with ⟨rfl, -⟩ | before
    · exact .inr List.mem_cons_self
    · exact .inl before
  exported key := .inl (by rw [exported])

theorem announces_updateEntryStatus (s : Memory) (partition : Partition) (entry : CatalogEntry) :
    ∃ news, Announces s (s.updateEntryStatus partition entry).2 news := by
  unfold updateEntryStatus
  dsimp only
  split
  · exact ⟨[], .of_eq (List.append_nil _).symm rfl rfl rfl⟩
  · split
    · exact ⟨_, .of_entry rfl rfl rfl rfl⟩
    · exact ⟨[], .of_eq (List.append_nil _).symm rfl rfl rfl⟩

/-- Every change that a mutation makes is on the feed afterwards. -/
theorem Mutation.announces (m : Mutation) (s : Memory) :
    ∃ news, Announces s (m.apply s) news := by
  cases m with
  | putEntry partition entry => exact ⟨_, .of_entry rfl rfl rfl rfl⟩
  | deleteEntry partition name =>
    simp only [apply, Memory.deleteEntry]
    split
    · refine ⟨_, rfl, rfl, fun h => .inl (Table.get?_of_get?_erase h).2, fun key => .inl rfl⟩
    · exact ⟨[], .of_eq (List.append_nil _).symm rfl rfl rfl⟩
  | putExport partition e =>
    refine ⟨_, rfl, rfl, fun h => .inl h, fun key => ?_⟩
    by_cases same : key = Stored.key partition e
    · exact .inr (by simp [same])
    · exact .inl (Table.get?_insert_ne same)
  | deleteExport removed =>
    simp only [apply, Memory.deleteExport]
    split
    · refine ⟨_, rfl, rfl, fun h => .inl h, fun key => ?_⟩
      by_cases same : key = removed
      · exact .inr (by simp [same])
      · exact .inl ((Table.get?_erase ..).trans (if_neg same))
    · exact ⟨[], .of_eq (List.append_nil _).symm rfl rfl rfl⟩
  | putBinding partition binding => exact ⟨_, .of_eq rfl rfl rfl rfl⟩
  | setPhase partition name phase =>
    simp only [apply, Memory.setPhase]
    split
    · exact ⟨[], .of_eq (List.append_nil _).symm rfl rfl rfl⟩
    · exact ⟨_, .of_eq rfl rfl rfl rfl⟩
  | createBinding suffix partition binding =>
    simp only [apply]
    rcases createBinding_cases s suffix partition binding with ⟨e, refused⟩ | ⟨created, done, -⟩
    · rw [refused]
      exact ⟨[], .of_eq (List.append_nil _).symm rfl rfl rfl⟩
    · rw [done]
      exact ⟨_, .of_eq rfl rfl rfl rfl⟩
  | updateEntryStatus partition entry => exact announces_updateEntryStatus s partition entry

end Announcements

section Keys

variable {α : Type} [Stored α]

/-- Each object is in the table under its own key. -/
def KeyedBy (t : Table ObjectKey α) : Prop :=
  ∀ key a, t.get? key = some a → key = Stored.key key.partition a

theorem KeyedBy.insert [LawfulStored α] {t : Table ObjectKey α} (keyed : KeyedBy t)
    (partition : Partition) {a b : α} (same : Stored.key partition b = Stored.key partition a) :
    KeyedBy (t.insert (Stored.key partition a) b) := by
  intro key found h
  rcases Table.get?_insert_cases h with ⟨rfl, rfl⟩ | before
  · rw [LawfulStored.key_partition, same]
  · exact keyed key found before

theorem KeyedBy.put [LawfulStored α] {t : Table ObjectKey α} (keyed : KeyedBy t)
    (partition : Partition) (a : α) (version : Version) :
    KeyedBy (t.insert (Stored.key partition a) (Stored.withVersion a version)) :=
  keyed.insert partition (LawfulStored.key_withVersion ..)

theorem KeyedBy.erase {t : Table ObjectKey α} (keyed : KeyedBy t) (key : ObjectKey) :
    KeyedBy (t.erase key) :=
  fun other a h => keyed other a (Table.get?_of_get?_erase h).2

theorem keyedBy_tabulate [LawfulStored α] (list : List (Placed α)) : KeyedBy (tabulate list) := by
  intro key a h
  obtain ⟨placed, -, same⟩ := List.mem_map.1 (Table.get?_ofRows_mem h)
  obtain ⟨rfl, rfl⟩ := Prod.mk.inj same
  simp [Placed.key, LawfulStored.key_partition]

structure Keyed (s : Memory) : Prop where
  entries : KeyedBy s.entries
  exports : KeyedBy s.exports
  bindings : KeyedBy s.bindings

theorem keyed_ofSnapshot (snapshot : Snapshot) : (ofSnapshot snapshot).Keyed :=
  ⟨keyedBy_tabulate _, keyedBy_tabulate _, keyedBy_tabulate _⟩

theorem Keyed.updateEntryStatus {s : Memory} (keyed : s.Keyed) (partition : Partition)
    (entry : CatalogEntry) : (s.updateEntryStatus partition entry).2.Keyed := by
  unfold Memory.updateEntryStatus
  dsimp only
  split
  · exact ⟨keyed.entries, keyed.exports, keyed.bindings⟩
  next stored found =>
    have own := keyed.entries _ _ found
    split
    · exact ⟨keyed.entries.insert partition own.symm, keyed.exports, keyed.bindings⟩
    · exact ⟨keyed.entries, keyed.exports, keyed.bindings⟩

theorem Keyed.mutate {s : Memory} (keyed : s.Keyed) (m : Mutation) : (m.apply s).Keyed := by
  obtain ⟨entries, exports, bindings⟩ := keyed
  cases m with
  | putEntry partition entry => exact ⟨entries.put partition entry _, exports, bindings⟩
  | deleteEntry partition name =>
    simp only [Mutation.apply, deleteEntry]
    split
    · exact ⟨entries.erase _, exports, bindings⟩
    · exact ⟨entries, exports, bindings⟩
  | putExport partition e => exact ⟨entries, exports.put partition e _, bindings⟩
  | deleteExport key =>
    simp only [Mutation.apply, deleteExport]
    split
    · exact ⟨entries, exports.erase _, bindings⟩
    · exact ⟨entries, exports, bindings⟩
  | putBinding partition binding => exact ⟨entries, exports, bindings.put partition binding _⟩
  | setPhase partition name phase =>
    simp only [Mutation.apply, setPhase]
    split
    · exact ⟨entries, exports, bindings⟩
    next binding found =>
      have own : ObjectKey.cluster partition name = Stored.key partition binding :=
        bindings _ _ found
      exact ⟨entries, exports, own ▸ bindings.insert partition rfl⟩
  | createBinding suffix partition binding =>
    simp only [Mutation.apply]
    rcases createBinding_cases s suffix partition binding with ⟨e, refused⟩ | ⟨created, done, -⟩
    · rw [refused]
      exact ⟨entries, exports, bindings⟩
    · rw [done]
      exact ⟨entries, exports, bindings.insert partition rfl⟩
  | updateEntryStatus partition entry =>
    exact Keyed.updateEntryStatus ⟨entries, exports, bindings⟩ partition entry

theorem Keyed.operate {s : Memory} (keyed : s.Keyed) (op : Operation) : (op.apply s).Keyed := by
  cases op with
  | mutate m => exact keyed.mutate m
  | failExport key e => exact ⟨keyed.entries, keyed.exports, keyed.bindings⟩
  | clearFault key => exact ⟨keyed.entries, keyed.exports, keyed.bindings⟩

theorem Keyed.undoStatus {s : Memory} (keyed : s.Keyed) (partition : Partition)
    (previous : CatalogEntry) : (s.undoStatus partition previous).Keyed :=
  ⟨keyed.entries.insert partition rfl, keyed.exports, keyed.bindings⟩

theorem Keyed.undoBinding {s : Memory} (keyed : s.Keyed) (partition : Partition) (name : String) :
    (s.undoBinding partition name).Keyed := by
  unfold Memory.undoBinding
  dsimp only
  split
  · exact ⟨keyed.entries, keyed.exports, keyed.bindings.erase _⟩
  · exact keyed

theorem Reachable.keyed {s : Memory} (reachable : s.Reachable) : s.Keyed := by
  induction reachable with
  | opened snapshot => exact keyed_ofSnapshot snapshot
  | operated op _ ih => exact ih.operate op
  | statusUndone partition previous _ ih => exact ih.undoStatus partition previous
  | bindingUndone partition name _ ih => exact ih.undoBinding partition name

/-- An entry that is found has the name it was asked for. -/
theorem Keyed.getEntry_eq_ok_iff {s : Memory} (keyed : s.Keyed) {partition : Partition}
    {name : String} {entry : CatalogEntry} :
    s.getEntry partition name = .ok entry ↔
      entry.name = name ∧ s.entries.get? (Stored.key partition entry) = some entry := by
  rw [getEntry_eq_ok]
  constructor
  · intro stored
    have own : ObjectKey.cluster partition name = Stored.key partition entry :=
      keyed.entries _ _ stored
    exact ⟨(congrArg ObjectKey.name own).symm, own ▸ stored⟩
  · rintro ⟨rfl, stored⟩
    exact stored

end Keys

/-! ## A store with one entry -/

namespace Sample

def widgets : ApiExport :=
  ⟨.named "widgets", ["v1.widgets.example.io"], [⟨"", "secrets", ""⟩]⟩

/-- Refers to that export, and to one that there is not. -/
def tools : CatalogEntry :=
  ⟨.named "tools", [⟨"root", "widgets"⟩, ⟨"root", "gadgets"⟩], "", ⟨[], [], .empty⟩⟩

def store : Memory :=
  (((ofSnapshot .empty).putExport .root widgets).2.putEntry .root tools).2

theorem reachable : store.Reachable :=
  .operated (.mutate (.putEntry .root tools)) <|
    .operated (.mutate (.putExport .root widgets)) (.opened .empty)

def stored : CatalogEntry := Stored.withVersion tools 2

theorem getEntry_store : store.getEntry .root "tools" = .ok stored :=
  getEntry_eq_ok.2 (by decide +kernel)

end Sample
end Memory
end ApiCatalog
