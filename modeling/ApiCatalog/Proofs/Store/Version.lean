import ApiCatalog.Proofs.Store.Operation

/-!
# Versions

The counter of a store never falls, and every object that an operation stores anew has the value
that the counter then has. Main statements: no object of a snapshot has a version above the counter
of the store opened from it (`version_le_ofSnapshot`), and what each operation does to the objects
(`Operation.stamps`).
-/
namespace ApiCatalog

namespace Version

theorem lt_next {v : Version} (room : v < 0xffffffffffffffff) : v < v.next := by
  unfold next
  grind

theorem le_next (v : Version) : v ≤ v.next := by
  unfold next
  grind

theorem le_max (v w : Version) : v ≤ max v w ∧ w ≤ max v w := by
  simp only [max]
  grind

theorem le_foldl_max (list : List Version) (first : Version) :
    first ≤ list.foldl max first ∧ ∀ v ∈ list, v ≤ list.foldl max first := by
  induction list generalizing first with
  | nil => exact ⟨UInt64.le_refl first, fun v member => nomatch member⟩
  | cons head rest ih =>
    obtain ⟨above, others⟩ := ih (max first head)
    obtain ⟨left, right⟩ := le_max first head
    refine ⟨UInt64.le_trans left above, fun v member => ?_⟩
    rcases List.mem_cons.1 member with rfl | inside
    · exact UInt64.le_trans right above
    · exact others v inside

theorem foldl_max_mem (list : List Version) (first : Version) :
    list.foldl max first = first ∨ list.foldl max first ∈ list := by
  induction list generalizing first with
  | nil => exact .inl rfl
  | cons head rest ih =>
    rcases ih (max first head) with kept | inside
    · have either : max first head = first ∨ max first head = head := by
        simp only [max]
        grind
      rw [List.foldl_cons, kept]
      exact either.imp_right fun same => List.mem_cons.2 (.inl same)
    · exact .inr (List.mem_cons_of_mem head inside)

end Version

namespace Memory

section Numbering

variable {α : Type} [Stored α] [LawfulStored α]

omit [LawfulStored α] in
theorem le_numbered (last : Version) (a : α) : last ≤ (numbered last a).2 := by
  unfold numbered
  split
  · exact Version.le_next last
  · exact UInt64.le_refl last

theorem version_le_numbered {last : Version} {a : α} (bounded : Stored.version a ≤ last) :
    Stored.version (numbered last a).1 ≤ (numbered last a).2 := by
  unfold numbered
  split
  · rw [LawfulStored.version_withVersion]
    exact UInt64.le_refl _
  · exact bounded

omit [LawfulStored α] in
theorem le_numberAll (last : Version) (list : List (Placed α)) :
    last ≤ (numberAll last list).2 := by
  induction list generalizing last with
  | nil => exact UInt64.le_refl last
  | cons placed rest ih => exact UInt64.le_trans (le_numbered last placed.object) (ih _)

theorem version_le_numberAll {last : Version} {list : List (Placed α)}
    (bounded : ∀ placed ∈ list, Stored.version placed.object ≤ last) :
    ∀ placed ∈ (numberAll last list).1,
      Stored.version placed.object ≤ (numberAll last list).2 := by
  induction list generalizing last with
  | nil => intro placed member; cases member
  | cons first rest ih =>
    intro placed member
    rcases List.mem_cons.1 member with rfl | inside
    · have here := version_le_numbered (bounded first List.mem_cons_self)
      exact UInt64.le_trans here (le_numberAll _ rest)
    · refine ih (fun other member => ?_) placed inside
      exact UInt64.le_trans (bounded other (List.mem_cons_of_mem _ member)) (le_numbered last _)

end Numbering

section Objects

/-- An object with the key that it is under. -/
inductive Object where
  | entry (key : ObjectKey) (e : CatalogEntry)
  | exported (key : ObjectKey) (e : ApiExport)
  | binding (key : ObjectKey) (b : ApiBinding)

def Object.version : Object → Version
  | entry _ e => e.metadata.version
  | exported _ e => e.metadata.version
  | binding _ b => b.metadata.version

def Has (s : Memory) : Object → Prop
  | .entry key e => s.entries.get? key = some e
  | .exported key e => s.exports.get? key = some e
  | .binding key b => s.bindings.get? key = some b

instance (s : Memory) : (o : Object) → Decidable (s.Has o)
  | .entry key e => inferInstanceAs (Decidable (s.entries.get? key = some e))
  | .exported key e => inferInstanceAs (Decidable (s.exports.get? key = some e))
  | .binding key b => inferInstanceAs (Decidable (s.bindings.get? key = some b))

variable {s s' : Memory} {key : ObjectKey} {o : Object}

theorem has_of_eq (entries : s'.entries = s.entries) (exports : s'.exports = s.exports)
    (bindings : s'.bindings = s.bindings) (has : s'.Has o) : s.Has o := by
  cases o with
  | entry key e => simpa only [Has, entries] using has
  | exported key e => simpa only [Has, exports] using has
  | binding key b => simpa only [Has, bindings] using has

theorem has_insert_entry {e : CatalogEntry} (entries : s'.entries = s.entries.insert key e)
    (exports : s'.exports = s.exports) (bindings : s'.bindings = s.bindings) (has : s'.Has o) :
    o = .entry key e ∨ s.Has o := by
  cases o with
  | entry other found =>
    rw [Has, entries] at has
    exact (Table.get?_insert_cases has).imp_left fun ⟨same, equal⟩ => same ▸ equal ▸ rfl
  | exported other found => exact .inr (by simpa only [Has, exports] using has)
  | binding other found => exact .inr (by simpa only [Has, bindings] using has)

theorem has_insert_export {e : ApiExport} (entries : s'.entries = s.entries)
    (exports : s'.exports = s.exports.insert key e) (bindings : s'.bindings = s.bindings)
    (has : s'.Has o) : o = .exported key e ∨ s.Has o := by
  cases o with
  | entry other found => exact .inr (by simpa only [Has, entries] using has)
  | exported other found =>
    rw [Has, exports] at has
    exact (Table.get?_insert_cases has).imp_left fun ⟨same, equal⟩ => same ▸ equal ▸ rfl
  | binding other found => exact .inr (by simpa only [Has, bindings] using has)

theorem has_insert_binding {b : ApiBinding} (entries : s'.entries = s.entries)
    (exports : s'.exports = s.exports) (bindings : s'.bindings = s.bindings.insert key b)
    (has : s'.Has o) : o = .binding key b ∨ s.Has o := by
  cases o with
  | entry other found => exact .inr (by simpa only [Has, entries] using has)
  | exported other found => exact .inr (by simpa only [Has, exports] using has)
  | binding other found =>
    rw [Has, bindings] at has
    exact (Table.get?_insert_cases has).imp_left fun ⟨same, equal⟩ => same ▸ equal ▸ rfl

end Objects

section Opening

theorem version_le_tabulate {α : Type} [Stored α] [LawfulStored α] {last : Version}
    {list : List (Placed α)} (bounded : ∀ placed ∈ list, Stored.version placed.object ≤ last)
    {key : ObjectKey} {a : α} (found : (tabulate (numberAll last list).1).get? key = some a) :
    Stored.version a ≤ (numberAll last list).2 := by
  obtain ⟨placed, member, row⟩ := List.mem_map.1 (Table.get?_ofRows_mem found)
  obtain ⟨-, rfl⟩ := Prod.mk.inj row
  exact version_le_numberAll bounded placed member

/-- No object of a snapshot is above the counter. -/
theorem version_le_ofSnapshot {snapshot : Snapshot} {o : Object} (has : (ofSnapshot snapshot).Has o) :
    o.version ≤ (ofSnapshot snapshot).lastVersion := by
  have above := (Version.le_foldl_max snapshot.versions 0).2
  have entries := le_numberAll (snapshot.versions.foldl max 0) snapshot.entries
  have exports := le_numberAll (numberAll (snapshot.versions.foldl max 0) snapshot.entries).2
    snapshot.exports
  cases o with
  | entry key e =>
    refine UInt64.le_trans (version_le_tabulate (fun placed member => ?_) has) ?_
    · exact above _ (List.mem_append_left _ (List.mem_append_left _ (List.mem_map_of_mem member)))
    · exact UInt64.le_trans exports (le_numberAll _ snapshot.bindings)
  | exported key e =>
    refine UInt64.le_trans (version_le_tabulate (fun placed member => ?_) has)
      (le_numberAll _ snapshot.bindings)
    refine UInt64.le_trans (above _ (List.mem_append_left _ ?_)) entries
    exact List.mem_append_right _ (List.mem_map_of_mem member)
  | binding key b =>
    refine version_le_tabulate (fun placed member => ?_) has
    refine UInt64.le_trans (above _ ?_) (UInt64.le_trans entries exports)
    exact List.mem_append_right _ (List.mem_map_of_mem member)

end Opening

section Stamping

/-- From `s` to `s'` the counter goes up by at most one, and an object that is new or changed has
the version that the counter went up to. -/
structure Stamps (s s' : Memory) : Prop where
  counter : s'.lastVersion = s.lastVersion ∨ s'.lastVersion = s.lastVersion.next
  object : ∀ {o}, s'.Has o → s.Has o ∨
    o.version = s'.lastVersion ∧ s'.lastVersion = s.lastVersion.next

variable {s s' : Memory}

theorem Stamps.entry (stamps : Stamps s s') {key : ObjectKey} {e : CatalogEntry}
    (found : s'.entries.get? key = some e) : s.entries.get? key = some e ∨
      e.metadata.version = s'.lastVersion ∧ s'.lastVersion = s.lastVersion.next :=
  stamps.object (o := .entry key e) found

/-- Nothing is new. -/
theorem Stamps.of_has (had : ∀ {o}, s'.Has o → s.Has o)
    (counter : s'.lastVersion = s.lastVersion ∨ s'.lastVersion = s.lastVersion.next) :
    Stamps s s' where
  counter
  object has := .inl (had has)

/-- One object is new or changed. -/
theorem Stamps.of_put (put : Object) (others : ∀ {o}, s'.Has o → o = put ∨ s.Has o)
    (version : put.version = s'.lastVersion) (counter : s'.lastVersion = s.lastVersion.next) :
    Stamps s s' where
  counter := .inr counter
  object has := by
    rcases others has with rfl | before
    · exact .inr ⟨version, counter⟩
    · exact .inl before

theorem stamps_updateEntryStatus (s : Memory) (partition : Partition) (entry : CatalogEntry) :
    Stamps s (s.updateEntryStatus partition entry).2 := by
  unfold updateEntryStatus
  dsimp only
  split
  · exact .of_has (has_of_eq rfl rfl rfl) (.inr rfl)
  · split
    · exact .of_put _ (has_insert_entry rfl rfl rfl) rfl rfl
    · exact .of_has (has_of_eq rfl rfl rfl) (.inr rfl)

theorem Mutation.stamps (m : Mutation) (s : Memory) : Stamps s (m.apply s) := by
  cases m with
  | putEntry partition entry => exact .of_put _ (has_insert_entry rfl rfl rfl) rfl rfl
  | deleteEntry partition name =>
    simp only [apply, Memory.deleteEntry]
    split
    · refine .of_has (fun {o} has => ?_) (.inl rfl)
      cases o with
      | entry key e => exact (Table.get?_of_get?_erase has).2
      | exported key e => exact has
      | binding key b => exact has
    · exact .of_has id (.inl rfl)
  | putExport partition e => exact .of_put _ (has_insert_export rfl rfl rfl) rfl rfl
  | deleteExport key =>
    simp only [apply, Memory.deleteExport]
    split
    · refine .of_has (fun {o} has => ?_) (.inl rfl)
      cases o with
      | entry key e => exact has
      | exported key e => exact (Table.get?_of_get?_erase has).2
      | binding key b => exact has
    · exact .of_has id (.inl rfl)
  | putBinding partition binding => exact .of_put _ (has_insert_binding rfl rfl rfl) rfl rfl
  | setPhase partition name phase =>
    simp only [apply, Memory.setPhase]
    split
    · exact .of_has (has_of_eq rfl rfl rfl) (.inr rfl)
    · exact .of_put _ (has_insert_binding rfl rfl rfl) rfl rfl
  | createBinding suffix partition binding =>
    simp only [apply]
    rcases createBinding_cases s suffix partition binding with ⟨e, refused⟩ |
      ⟨created, done, -, version, -⟩
    · rw [refused]
      exact .of_has id (.inl rfl)
    · rw [done]
      exact .of_put (.binding _ created) (has_insert_binding rfl rfl rfl) version rfl
  | updateEntryStatus partition entry => exact stamps_updateEntryStatus s partition entry

theorem Operation.stamps (op : Operation) (s : Memory) : Stamps s (op.apply s) := by
  cases op with
  | mutate m => exact m.stamps s
  | failExport key e => exact .of_has (has_of_eq rfl rfl rfl) (.inl rfl)
  | clearFault key => exact .of_has (has_of_eq rfl rfl rfl) (.inl rfl)

theorem Stamps.le {s s' : Memory} (stamps : Stamps s s') : s.lastVersion ≤ s'.lastVersion := by
  rcases stamps.counter with same | next
  · rw [same]
    exact UInt64.le_refl _
  · rw [next]
    exact Version.le_next _

end Stamping
end Memory
end ApiCatalog
