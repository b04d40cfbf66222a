import ApiCatalog.Proofs.Store.Version
import ApiCatalog.Proofs.Table.Equality

/-!
# Restoring a store from its snapshot

A snapshot of a store has no object without a version and none twice, and so opening it changes
nothing. Main statements: every object of a reachable store has a version (`numbered_ofSnapshot`,
`Stamps.numbered`), and a store opened from the snapshot of another one has the same objects
(`sameObjects_restored`).
-/
namespace ApiCatalog

theorem Version.next_ne_zero (v : Version) : v.next ≠ 0 := by
  unfold next
  grind

namespace Memory

/-- The two stores have the same objects, under the same keys and with the same versions. -/
structure SameObjects (s t : Memory) : Prop where
  entries : s.entries = t.entries
  exports : s.exports = t.exports
  bindings : s.bindings = t.bindings

namespace SameObjects

variable {s t u : Memory}

theorem refl (s : Memory) : SameObjects s s := ⟨rfl, rfl, rfl⟩

theorem trans (first : SameObjects s t) (second : SameObjects t u) : SameObjects s u :=
  ⟨first.entries.trans second.entries, first.exports.trans second.exports,
    first.bindings.trans second.bindings⟩

theorem symm (same : SameObjects s t) : SameObjects t s :=
  ⟨same.entries.symm, same.exports.symm, same.bindings.symm⟩

theorem keyed (same : SameObjects s t) (keyed : t.Keyed) : s.Keyed :=
  ⟨same.entries ▸ keyed.entries, same.exports ▸ keyed.exports, same.bindings ▸ keyed.bindings⟩

end SameObjects

section Numbers

/-- Every object has a version. -/
def Numbered (s : Memory) : Prop := ∀ o, s.Has o → o.version ≠ 0

theorem SameObjects.numbered {s t : Memory} (same : SameObjects s t) (numbered : t.Numbered) :
    s.Numbered :=
  fun o has => numbered o (has_of_eq same.entries same.exports same.bindings has)

/-- What an operation stores anew gets a version. -/
theorem Stamps.numbered {s s' : Memory} (stamps : Stamps s s') (numbered : s.Numbered) :
    s'.Numbered := by
  intro o has
  rcases stamps.object has with before | ⟨stamped, next⟩
  · exact numbered o before
  · rw [stamped, next]
    exact Version.next_ne_zero s.lastVersion

section Numbering

variable {α : Type} [Stored α]

theorem version_numberAll_ne_zero [LawfulStored α] (last : Version) (list : List (Placed α)) :
    ∀ placed ∈ (numberAll last list).1, Stored.version placed.object ≠ 0 := by
  induction list generalizing last with
  | nil => exact fun placed member => nomatch member
  | cons first rest ih =>
    intro placed member
    rcases List.mem_cons.1 member with rfl | inside
    · simp only [numbered]
      split
      · rw [LawfulStored.version_withVersion]
        exact Version.next_ne_zero last
      · assumption
    · exact ih _ placed inside

theorem version_tabulate_ne_zero [LawfulStored α] {last : Version} {list : List (Placed α)}
    {key : ObjectKey} {a : α} (found : (tabulate (numberAll last list).1).get? key = some a) :
    Stored.version a ≠ 0 := by
  obtain ⟨placed, member, row⟩ := List.mem_map.1 (Table.get?_ofRows_mem found)
  obtain ⟨-, rfl⟩ := Prod.mk.inj row
  exact version_numberAll_ne_zero last list placed member

/-- Objects that have versions keep them, and none is used up. -/
theorem numberAll_of_numbered {last : Version} {list : List (Placed α)}
    (numbered : ∀ placed ∈ list, Stored.version placed.object ≠ 0) :
    numberAll last list = (list, last) := by
  induction list with
  | nil => rfl
  | cons first rest ih =>
    obtain ⟨here, others⟩ := List.forall_mem_cons.1 numbered
    have kept : Memory.numbered last first.object = (first.object, last) := if_neg here
    simp only [numberAll, kept, ih others]

end Numbering

theorem numbered_ofSnapshot (snapshot : Snapshot) : (ofSnapshot snapshot).Numbered := by
  intro o has
  cases o with
  | entry key e => exact version_tabulate_ne_zero has
  | exported key e => exact version_tabulate_ne_zero has
  | binding key b => exact version_tabulate_ne_zero has

end Numbers

section Restoring

variable {α : Type} [Stored α] {t : Table ObjectKey α}

theorem numberAll_listing {last : Version}
    (numbered : ∀ key a, t.get? key = some a → Stored.version a ≠ 0) :
    numberAll last (listing t) = (listing t, last) := by
  refine numberAll_of_numbered fun placed listed => ?_
  obtain ⟨row, inside, rfl⟩ := List.mem_map.1 listed
  exact numbered row.1 row.2 (Table.mem_rows_iff.1 inside)

/-- A table is made anew from its listing, for each object is under its own key. -/
theorem tabulate_listing (keyed : KeyedBy t) : tabulate (listing t) = t := by
  have own : ∀ row ∈ t.rows, (Stored.key row.1.partition row.2, row.2) = row := by
    intro row inside
    rw [← keyed row.1 row.2 (Table.mem_rows_iff.1 inside)]
  have rows : (listing t).map (fun placed => (placed.key, placed.object)) = t.rows := by
    rw [listing, List.map_map]
    exact (List.map_congr_left own).trans (List.map_id t.rows)
  rw [tabulate, rows, Table.ofRows_rows]

/-- All objects have versions, and so none is used up when they are opened again. -/
theorem ofSnapshot_snapshot {s : Memory} (keyed : s.Keyed) (numbered : s.Numbered) :
    ofSnapshot s.snapshot =
      { empty with
        entries := s.entries
        exports := s.exports
        bindings := s.bindings
        lastVersion := s.snapshot.versions.foldl max 0 } := by
  have entries : ∀ last, numberAll last (listing s.entries) = (listing s.entries, last) :=
    fun _ => numberAll_listing fun key e found => numbered (.entry key e) found
  have exports : ∀ last, numberAll last (listing s.exports) = (listing s.exports, last) :=
    fun _ => numberAll_listing fun key e found => numbered (.exported key e) found
  have bindings : ∀ last, numberAll last (listing s.bindings) = (listing s.bindings, last) :=
    fun _ => numberAll_listing fun key b found => numbered (.binding key b) found
  simp only [ofSnapshot, snapshot, entries, exports, bindings, tabulate_listing keyed.entries,
    tabulate_listing keyed.exports, tabulate_listing keyed.bindings]

/-- The store that is opened from the snapshot of another one has the same objects. -/
theorem sameObjects_restored {s : Memory} (keyed : s.Keyed) (numbered : s.Numbered) :
    SameObjects (ofSnapshot s.snapshot) s := by
  rw [ofSnapshot_snapshot keyed numbered]
  exact ⟨rfl, rfl, rfl⟩

end Restoring
end Memory
end ApiCatalog
