import ApiCatalog.Proofs.Store.Agreement
import Mathlib.Data.List.Forall2

/-!
# Loading a snapshot

A store keeps one object under each key, and of two objects with one key the latter replaces the
former. Main statement: a store that is opened from a snapshot has all of its objects exactly if no
two of them have one key (`keeps_all_iff`). The namespace is part of the key of an export only, so
that entries and bindings of one name in two namespaces of a partition replace each other
(`namespaces_collide`).
-/
namespace ApiCatalog

section Objects

variable {α : Type} [Stored α]

/-- From an object of a snapshot to the one that is stored: it gets a version if it has none, and
nothing else is changed. -/
inductive Filled : Placed α → Placed α → Prop where
  | kept {p : Placed α} : Stored.version p.object ≠ 0 → Filled p p
  | numbered {partition : Partition} {a : α} {version : Version} :
      Stored.version a = 0 → version ≠ 0 →
        Filled ⟨partition, a⟩ ⟨partition, Stored.withVersion a version⟩

/-- The objects of the first list are those of the second one, in some order. -/
def Kept (list stored : List (Placed α)) : Prop :=
  ∃ filled, List.Forall₂ Filled list filled ∧ stored.Perm filled

variable [LawfulStored α] {list filled : List (Placed α)} {p q : Placed α}

theorem Filled.key_eq (here : Filled p q) : q.key = p.key := by
  cases here with
  | kept => rfl
  | numbered => exact LawfulStored.key_withVersion ..

theorem keys_filled (each : List.Forall₂ Filled list filled) :
    filled.map Placed.key = list.map Placed.key := by
  induction each with
  | nil => rfl
  | cons here _ ih => rw [List.map_cons, List.map_cons, here.key_eq, ih]

omit [LawfulStored α] in
theorem exists_filled (each : List.Forall₂ Filled list filled) (member : p ∈ list) :
    ∃ q ∈ filled, Filled p q := by
  induction each with
  | nil => cases member
  | cons here _ ih =>
    rcases List.mem_cons.1 member with rfl | inside
    · exact ⟨_, List.mem_cons_self, here⟩
    · obtain ⟨q, there, same⟩ := ih inside
      exact ⟨q, List.mem_cons_of_mem _ there, same⟩

namespace Memory

omit [LawfulStored α] in
theorem filled_numberAll (last : Version) (list : List (Placed α)) :
    List.Forall₂ Filled list (numberAll last list).1 := by
  induction list generalizing last with
  | nil => exact .nil
  | cons p rest ih =>
    refine .cons ?_ (ih _)
    unfold numbered
    split
    next none => exact .numbered none (Version.next_ne_zero last)
    next some => exact .kept some

/-- A table lists what it was made of, if no two objects have one key. -/
theorem listing_tabulate_perm (distinct : (list.map Placed.key).Nodup) :
    (listing (tabulate list)).Perm list := by
  have rows : (tabulate list).rows.Perm (list.map fun p => (p.key, p.object)) :=
    Table.rows_ofRows_perm (by rwa [List.map_map])
  have back : (list.map fun p => (p.key, p.object)).map
      (fun row => (⟨row.1.partition, row.2⟩ : Placed α)) = list := by
    rw [List.map_map]
    exact (List.map_congr_left fun p _ => by
      simp [Placed.key, LawfulStored.key_partition]).trans (List.map_id list)
  exact (rows.map _).trans (.of_eq back)

omit [LawfulStored α] in
theorem keys_listing {t : Table ObjectKey α} (keyed : KeyedBy t) :
    (listing t).map Placed.key = t.rows.map Prod.fst := by
  rw [listing, List.map_map]
  exact List.map_congr_left fun row inside => (keyed _ _ (Table.mem_rows_iff.1 inside)).symm

theorem kept_iff (last : Version) : Kept list (listing (tabulate (numberAll last list).1)) ↔
    (list.map Placed.key).Nodup := by
  have each := filled_numberAll last list
  constructor
  · -- The keys of a table differ, and so do those of all that is in it.
    rintro ⟨filled, same, order⟩
    rw [← keys_filled same, ← (order.map Placed.key).nodup_iff, keys_listing (keyedBy_tabulate _)]
    exact Table.nodup_keys _
  · intro distinct
    rw [← keys_filled each] at distinct
    exact ⟨_, each, listing_tabulate_perm distinct⟩

/-- What is kept is found under its key. -/
theorem get?_of_kept {t : Table ObjectKey α} (keyed : KeyedBy t) (kept : Kept list (listing t))
    (member : p ∈ list) : ∃ q, Filled p q ∧ t.get? p.key = some q.object := by
  obtain ⟨filled, each, order⟩ := kept
  obtain ⟨q, there, here⟩ := exists_filled each member
  obtain ⟨row, inside, rfl⟩ := List.mem_map.1 (order.mem_iff.2 there)
  have found := Table.mem_rows_iff.1 inside
  have own : row.1 = p.key := (keyed _ _ found).trans here.key_eq
  exact ⟨_, here, own ▸ found⟩

end Memory
end Objects

namespace Snapshot

/-- No two entries and no two bindings have one partition and name, and no two exports have one
partition, namespace and name. -/
structure Distinct (s : Snapshot) : Prop where
  entries : (s.entries.map fun p => (p.partition, p.object.name)).Nodup
  exports : (s.exports.map fun p =>
    (p.partition, p.object.metadata.nameSpace, p.object.metadata.name)).Nodup
  bindings : (s.bindings.map fun p => (p.partition, p.object.metadata.name)).Nodup

/-- The objects of each kind are those of the other snapshot. -/
structure KeptBy (s stored : Snapshot) : Prop where
  entries : Kept s.entries stored.entries
  exports : Kept s.exports stored.exports
  bindings : Kept s.bindings stored.bindings

section Keys

variable {α β γ : Type} {f : α → β} {g : α → γ}

theorem nodup_map_congr (same : ∀ a b, f a = f b ↔ g a = g b) (list : List α) :
    (list.map f).Nodup ↔ (list.map g).Nodup := by
  simp only [List.Nodup, List.pairwise_map, ne_eq, same]

end Keys

theorem distinct_iff (s : Snapshot) : s.Distinct ↔
    (s.entries.map Placed.key).Nodup ∧ (s.exports.map Placed.key).Nodup ∧
      (s.bindings.map Placed.key).Nodup := by
  rw [nodup_map_congr (g := fun p => (p.partition, p.object.name)) (by
      simp [Placed.key, Stored.key, ObjectKey.cluster, CatalogEntry.name]) s.entries,
    nodup_map_congr (g := fun p =>
      (p.partition, p.object.metadata.nameSpace, p.object.metadata.name)) (by
      simp [Placed.key, Stored.key]) s.exports,
    nodup_map_congr (g := fun p => (p.partition, p.object.metadata.name)) (by
      simp [Placed.key, Stored.key, ObjectKey.cluster]) s.bindings]
  exact ⟨fun h => ⟨h.entries, h.exports, h.bindings⟩, fun h => ⟨h.1, h.2.1, h.2.2⟩⟩

end Snapshot

namespace Memory

/-- No look-up fails in a store that was just opened. -/
theorem getExport_ofSnapshot {snapshot : Snapshot} {key : ObjectKey} {e : ApiExport}
    (found : (ofSnapshot snapshot).exports.get? key = some e) :
    (ofSnapshot snapshot).getExport key = .ok e := by
  have faultless : (ofSnapshot snapshot).faults.get? key = none := Table.get?_empty key
  rw [getExport, faultless]
  dsimp only
  rw [found]

theorem keptBy_ofSnapshot_iff (s : Snapshot) :
    s.KeptBy (ofSnapshot s).snapshot ↔ s.Distinct := by
  rw [s.distinct_iff, ← kept_iff, ← kept_iff, ← kept_iff]
  exact ⟨fun h => ⟨h.entries, h.exports, h.bindings⟩, fun h => ⟨h.1, h.2.1, h.2.2⟩⟩

end Memory

namespace FileStore

/-- A store that is opened from a snapshot has all of its objects, and nothing else, exactly if they
are distinct. Each is then found by its name, and the file that such a snapshot was read from still
has all of them when the store has written it. -/
theorem keeps_all_iff (snapshot : Snapshot) :
    (snapshot.KeptBy (Memory.ofSnapshot snapshot).snapshot ↔ snapshot.Distinct) ∧
    (snapshot.Distinct →
      (∀ p ∈ snapshot.entries, ∃ q, Filled p q ∧
        (Memory.ofSnapshot snapshot).getEntry p.partition p.object.name = .ok q.object) ∧
      (∀ p ∈ snapshot.exports, ∃ q, Filled p q ∧
        (Memory.ofSnapshot snapshot).getExport
          ⟨p.partition, p.object.metadata.nameSpace, p.object.metadata.name⟩ = .ok q.object) ∧
      (∀ p ∈ snapshot.bindings, ∃ q, Filled p q ∧
        (Memory.ofSnapshot snapshot).getBinding p.partition p.object.metadata.name =
          .ok q.object) ∧
      ∀ path content, load path content = .ok snapshot →
        ∃ s written, opened path content = .ok s ∧
          load path (persist path Disk.save s ⟨content, none⟩).2.content = .ok written ∧
          snapshot.KeptBy written) := by
  have kept := Memory.keptBy_ofSnapshot_iff snapshot
  have keyed := Memory.keyed_ofSnapshot snapshot
  refine ⟨kept, fun distinct => ⟨?_, ?_, ?_, ?_⟩⟩
  · intro p member
    obtain ⟨q, same, found⟩ :=
      Memory.get?_of_kept keyed.entries (kept.2 distinct).entries member
    exact ⟨q, same, Memory.getEntry_eq_ok.2 found⟩
  · intro p member
    obtain ⟨q, same, found⟩ :=
      Memory.get?_of_kept keyed.exports (kept.2 distinct).exports member
    exact ⟨q, same, Memory.getExport_ofSnapshot found⟩
  · intro p member
    obtain ⟨q, same, found⟩ :=
      Memory.get?_of_kept keyed.bindings (kept.2 distinct).bindings member
    exact ⟨q, same, Memory.getBinding_eq_ok.2 found⟩
  · intro path content loaded
    refine ⟨.ofSnapshot snapshot, _, ?_, load_document path _, kept.2 distinct⟩
    rw [opened, loaded]
    rfl

namespace Sample

def tools (nameSpace : Option String) (version : Version) : CatalogEntry :=
  ⟨⟨"tools", "", nameSpace, version⟩, [⟨"root", "widgets"⟩], "", ⟨[], [], .empty⟩⟩

def widgets (nameSpace : Option String) : ApiExport :=
  ⟨⟨"widgets", "", nameSpace, 0⟩, ["v1.widgets.example.io"], []⟩

/-- Two exports of one name in two namespaces. -/
def spaces : Snapshot :=
  ⟨[⟨.root, tools none 4⟩], [⟨.root, widgets (some "b")⟩, ⟨.root, widgets (some "a")⟩], []⟩

/-- Two entries of one name in two namespaces. -/
def twins : Snapshot := ⟨[⟨.root, tools (some "a") 1⟩, ⟨.root, tools (some "b") 2⟩], [], []⟩

end Sample

/-- The entry is found as it was, and both exports are in the file that is written. -/
theorem keeps_all_sample :
    (Memory.ofSnapshot Sample.spaces).getEntry .root "tools" = .ok (Sample.tools none 4) ∧
    ∃ s written, opened "state" (.ok (.document (encode Sample.spaces))) = .ok s ∧
      load "state" (persist "state" Disk.save s
        ⟨.ok (.document (encode Sample.spaces)), none⟩).2.content = .ok written ∧
      Sample.spaces.KeptBy written := by
  have distinct : Sample.spaces.Distinct := ⟨by decide, by decide, by decide⟩
  obtain ⟨entries, -, -, files⟩ := (keeps_all_iff Sample.spaces).2 distinct
  obtain ⟨q, filled, found⟩ := entries ⟨.root, Sample.tools none 4⟩ List.mem_cons_self
  refine ⟨?_, files "state" _ (load_document "state" Sample.spaces)⟩
  cases filled with
  | kept => exact found
  | numbered none => exact absurd none (by decide)

/-- The two entries differ in their namespace, and only the latter is in the store. -/
theorem namespaces_collide :
    (Sample.twins.entries.map fun p =>
      (p.partition, p.object.metadata.nameSpace, p.object.name)).Nodup ∧
    Sample.twins.exports = [] ∧ Sample.twins.bindings = [] ∧
    (Memory.ofSnapshot Sample.twins).snapshot.entries = [⟨.root, Sample.tools (some "b") 2⟩] ∧
    ¬Sample.twins.KeptBy (Memory.ofSnapshot Sample.twins).snapshot := by
  refine ⟨by decide, rfl, rfl, by decide +kernel, fun kept => ?_⟩
  have distinct := (Memory.keptBy_ofSnapshot_iff Sample.twins).1 kept
  exact absurd distinct.entries (by decide)

end FileStore
end ApiCatalog
