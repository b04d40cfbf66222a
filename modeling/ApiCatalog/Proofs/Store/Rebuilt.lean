import ApiCatalog.Proofs.Store.Freshness
import ApiCatalog.Proofs.Store.Normal

/-!
# Versions after a restore

A snapshot does not have the version counter. The store opened from it counts on from the largest
version of the objects that are left, and so gives the versions of objects again that were deleted
or taken back after all others had been stored. Main statement: the versions that a restored store
gives are above all that were carried before exactly if the largest of these is still there, and
then nobody who has read an entry before the restore writes over a change made after it
(`fresh_after_restore_iff`).
-/
namespace ApiCatalog

namespace Memory

/-- Some operation gives the version to an object that it creates or changes. -/
def Gives (s : Memory) (v : Version) : Prop :=
  ∃ (op : Operation) (o : Object), (op.apply s).Has o ∧ ¬s.Has o ∧ o.version = v

/-- No version was carried above all those of the objects that are there now. -/
def KeepsLargest (s : Memory) (past : List Memory) : Prop :=
  ∀ v, Carried (s :: past) v → ∃ o, s.Has o ∧ v ≤ o.version

/-- The second store was opened from the snapshot of the first one, and has been in the states of
the list since then. -/
structure Restored (s t : Memory) (later : List Memory) : Prop where
  history : History t later
  opened : (t :: later).getLast? = some (ofSnapshot s.snapshot)

section Counter

variable {s t : Memory} {past later : List Memory} {v w : Version}

theorem exists_of_mem_listing {α : Type} [Stored α] {table : Table ObjectKey α}
    (listed : v ∈ (listing table).map (Stored.version ·.object)) :
    ∃ key a, table.get? key = some a ∧ Stored.version a = v := by
  obtain ⟨placed, inside, rfl⟩ := List.mem_map.1 listed
  obtain ⟨row, member, rfl⟩ := List.mem_map.1 inside
  exact ⟨row.1, row.2, Table.mem_rows_iff.1 member, rfl⟩

theorem has_of_mem_versions (listed : v ∈ s.snapshot.versions) :
    ∃ o, s.Has o ∧ o.version = v := by
  simp only [Snapshot.versions, List.mem_append] at listed
  rcases listed with (listed | listed) | listed
  · obtain ⟨key, e, found, version⟩ := exists_of_mem_listing listed
    exact ⟨.entry key e, found, version⟩
  · obtain ⟨key, e, found, version⟩ := exists_of_mem_listing listed
    exact ⟨.exported key e, found, version⟩
  · obtain ⟨key, b, found, version⟩ := exists_of_mem_listing listed
    exact ⟨.binding key b, found, version⟩

/-- The counter of a restored store is the largest version that is left. -/
theorem History.lastVersion_restored (history : History s past) :
    (ofSnapshot s.snapshot).lastVersion = 0 ∨
      ∃ o, s.Has o ∧ o.version = (ofSnapshot s.snapshot).lastVersion := by
  have keyed := (history.reachable s List.mem_cons_self).keyed
  rw [ofSnapshot_snapshot keyed (history.numbered s List.mem_cons_self)]
  exact (Version.foldl_max_mem s.snapshot.versions 0).imp_right has_of_mem_versions

theorem History.has_restored (history : History s past) {o : Object} (has : s.Has o) :
    (ofSnapshot s.snapshot).Has o :=
  have same := history.restored.symm
  has_of_eq same.entries same.exports same.bindings has

/-- The counter goes on from there. -/
theorem Restored.counter_le (restored : Restored s t later) :
    (ofSnapshot s.snapshot).lastVersion ≤ t.lastVersion := by
  obtain ⟨history, opened⟩ := restored
  induction history with
  | opened snapshot =>
    rw [← Option.some.inj opened]
    exact UInt64.le_refl _
  | @operated t later op _ ih => exact UInt64.le_trans (ih opened) (op.stamps t).le
  | statusUndone _ _ _ ih => exact ih opened
  | @bindingUndone t later partition name _ ih =>
    rw [(undoBinding_frame t partition name).2]
    exact ih opened

theorem History.carried_ne_zero (history : History s past) (carried : Carried (s :: past) v) :
    v ≠ 0 := by
  obtain ⟨t, member, o, has, rfl⟩ := carried
  exact history.numbered t member o has

theorem KeepsLargest.le_counter (kept : KeepsLargest s past) (history : History s past)
    (carried : Carried (s :: past) v) : v ≤ (ofSnapshot s.snapshot).lastVersion := by
  obtain ⟨o, has, above⟩ := kept v carried
  exact UInt64.le_trans above (version_le_ofSnapshot (history.has_restored has))

/-- What is given comes after the counter. -/
theorem Gives.eq_next (gives : t.Gives w) : w = t.lastVersion.next := by
  obtain ⟨op, o, now, changed, rfl⟩ := gives
  obtain ⟨stamped, counter⟩ := ((op.stamps t).object now).resolve_left changed
  rw [stamped, counter]

/-- An entry that is put gets the next version. -/
theorem gives_next (bounded : ∀ o, t.Has o → o.version ≤ t.lastVersion)
    (room : t.lastVersion < 0xffffffffffffffff) : t.Gives t.lastVersion.next := by
  let put := Stored.withVersion (default : CatalogEntry) t.lastVersion.next
  refine ⟨.mutate (.putEntry .root default), .entry (Stored.key .root put) put, ?_, ?_, rfl⟩
  · exact Table.get?_insert_self ..
  · intro before
    exact UInt64.not_le.2 (Version.lt_next room) (bounded _ before)

/-- A largest version that is gone is above the counter of the restored store, which then gives a
version that is not above it. -/
theorem History.keepsLargest_of_fresh (history : History s past)
    (fresh : (ofSnapshot s.snapshot).lastVersion < 0xffffffffffffffff →
      ∀ v w, Carried (s :: past) v → (ofSnapshot s.snapshot).Gives w → v < w) :
    KeepsLargest s past := by
  intro v carried
  by_contra none
  have above : (ofSnapshot s.snapshot).lastVersion < v := by
    rcases history.lastVersion_restored with zero | ⟨o, has, largest⟩
    · have nonzero := history.carried_ne_zero carried
      grind
    · exact largest ▸ UInt64.not_le.1 fun le => none ⟨o, has, le⟩
  have room : (ofSnapshot s.snapshot).lastVersion < 0xffffffffffffffff := by grind
  have later := fresh room v _ carried (gives_next (fun _ => version_le_ofSnapshot) room)
  unfold Version.next at later
  grind

end Counter

section Content

variable {s t : Memory} {past later : List Memory}

/-- The entries of the restored store are those of the store before. -/
theorem KeepsLargest.oneContent_restored (kept : KeepsLargest s past) (history : History s past)
    (room : s.lastVersion < 0xffffffffffffffff) :
    OneContent (ofSnapshot s.snapshot).lastVersion (ofSnapshot s.snapshot :: s :: past) := by
  have one := history.oneContent room
  have before : ∀ {key e}, Held (ofSnapshot s.snapshot :: s :: past) key e →
      Held (s :: past) key e := by
    intro key e held
    refine (held_cons.1 held).elim (fun here => held_cons.2 (.inl ?_)) id
    exact history.restored.entries ▸ here
  constructor
  · intro key e held
    obtain ⟨u, member, found⟩ := before held
    exact kept.le_counter history ⟨u, member, .entry key e, found, rfl⟩
  · exact fun first second same => one.content (before first) (before second) same

/-- Key and version of an entry determine the entry, over all states before and after. -/
theorem Restored.oneContent (restored : Restored s t later) (history : History s past)
    (room : s.lastVersion < 0xffffffffffffffff) (kept : KeepsLargest s past)
    (room' : t.lastVersion < 0xffffffffffffffff) :
    OneContent t.lastVersion (t :: (later ++ s :: past)) := by
  obtain ⟨since, opened⟩ := restored
  induction since with
  | opened snapshot =>
    have first : ofSnapshot snapshot = ofSnapshot s.snapshot := Option.some.inj opened
    rw [first]
    exact kept.oneContent_restored history room
  | @operated t later op _ ih =>
    have room' := UInt64.lt_of_le_of_lt (op.stamps t).le room'
    exact (ih room' opened).operated op room'
  | @statusUndone t u later partition previous since earlier read ih =>
    have keyed := (since.reachable u earlier).keyed
    exact (ih room' opened).statusUndone (List.mem_append_left _ earlier) keyed read
  | @bindingUndone t later partition name _ ih =>
    have counter := (undoBinding_frame t partition name).2
    exact (ih (counter ▸ room') opened).bindingUndone partition name

end Content

/-- A store is restored from its snapshot. The versions that it gives from then on are above all
that were carried before exactly if the largest of these is the version of an object that is still
there. In that case a status write with the version of an entry that was read before the restore
takes place only if the stored entry is the one that was read. -/
theorem fresh_after_restore_iff {s : Memory} {past : List Memory} (history : History s past)
    (room : s.lastVersion < lastPossible) :
    ((∀ t later, Restored s t later → t.lastVersion < lastPossible →
        ∀ v w, Carried (s :: past) v → t.Gives w → v < w) ↔ KeepsLargest s past) ∧
    (KeepsLargest s past → ∀ t later, Restored s t later → t.lastVersion < lastPossible →
      ∀ u ∈ s :: past, ∀ partition read write updated t', u.Reads partition read →
        Stored.key partition write = Stored.key partition read →
        write.metadata.version = read.metadata.version →
        t.updateEntryStatus partition write = (.ok updated, t') →
          t.entries.get? (Stored.key partition read) = some read) := by
  refine ⟨⟨fun fresh => ?_, fun kept => ?_⟩, fun kept => ?_⟩
  · exact history.keepsLargest_of_fresh (fresh _ [] ⟨.opened s.snapshot, rfl⟩)
  · intro t later restored room' v w carried gives
    have bound := UInt64.le_trans (kept.le_counter history carried) restored.counter_le
    rw [gives.eq_next]
    exact UInt64.lt_of_le_of_lt bound (Version.lt_next room')
  · intro t later restored room' u member partition read write updated t' found own version done
    have one := restored.oneContent history room kept room'
    have keyed := (history.reachable u member).keyed
    have held : Held (t :: (later ++ s :: past)) (Stored.key partition read) read :=
      ⟨u, List.mem_cons_of_mem _ (List.mem_append_right _ member), keyed.reads_iff.1 found⟩
    obtain ⟨stored, current, same, -⟩ := updateEntryStatus_done done
    rw [own] at current
    have now : Held (t :: (later ++ s :: past)) (Stored.key partition read) stored :=
      ⟨t, List.mem_cons_self, current⟩
    have equal : read = stored := one.content held now (version.symm.trans same)
    exact current.trans (congrArg some equal.symm)

namespace Sample

/-- The entry has the largest version, and it is still there. -/
theorem keepsLargest : KeepsLargest store past := by
  intro v carried
  have counter : store.lastVersion = stored.metadata.version := by decide +kernel
  have bound := course.carried_le carried
  rw [counter] at bound
  exact ⟨.entry (.cluster .root "tools") stored, by decide +kernel, bound⟩

def restored : Memory := ofSnapshot store.snapshot

theorem restored_again : Restored store restored [] := ⟨.opened store.snapshot, rfl⟩

def withoutTools : Memory := (store.deleteEntry .root "tools").2

/-- The entry is put again after the restore. -/
def rebuilt : Memory := change.apply (ofSnapshot withoutTools.snapshot)

end Sample

/-- The restored store gives only versions above 2, and takes a status for the entry that was read
before. -/
theorem fresh_after_restore_sample :
    (∀ w, Sample.restored.Gives w → 2 < w) ∧
      Sample.restored.entries.get? (.cluster .root "tools") = some Sample.stored := by
  have small : ∀ s : Memory, s.lastVersion = 2 → s.lastVersion < lastPossible := by
    intro s two
    rw [two]
    decide
  obtain ⟨fresh, same⟩ := fresh_after_restore_iff Sample.history (small _ (by decide +kernel))
  have room := small Sample.restored (by decide +kernel)
  constructor
  · intro w
    have carried : Carried (Sample.store :: Sample.past) 2 :=
      ⟨Sample.store, List.mem_cons_self, .entry (.cluster .root "tools") Sample.stored,
        by decide +kernel, rfl⟩
    exact fresh.2 Sample.keepsLargest _ [] Sample.restored_again room 2 w carried
  · have read : Sample.store.Reads .root Sample.stored := .inl ⟨"tools", Sample.getEntry_store⟩
    exact same Sample.keepsLargest _ [] Sample.restored_again room Sample.store List.mem_cons_self
      .root Sample.stored Sample.stored _ _ read rfl rfl rfl

/-- The entry with the largest version is deleted before the store is restored. Another one in its
place gets that version again, and a status derived from the former is written over the latter. -/
theorem deleted_version_given_again :
    let before := ofSnapshot Sample.withoutTools.snapshot
    let changed := Stored.withVersion Sample.edited 2
    History Sample.withoutTools (Sample.store :: Sample.past) ∧
      Sample.store.Reads .root Sample.stored ∧ before.Gives Sample.stored.metadata.version ∧
      Sample.rebuilt.getEntry .root "tools" = .ok changed ∧ changed ≠ Sample.stored ∧
      (Sample.rebuilt.updateEntryStatus .root Sample.stored).1 =
        .ok (Stored.withVersion Sample.edited 3) := by
  refine ⟨.operated (.mutate (.deleteEntry .root "tools")) Sample.history,
    .inl ⟨"tools", Sample.getEntry_store⟩, ?_, ?_, ?_, ?_⟩
  · exact ⟨.mutate Sample.change,
      .entry (.cluster .root "tools") (Stored.withVersion Sample.edited 2),
      by decide +kernel, by decide +kernel, rfl⟩
  · decide +kernel
  · decide +kernel
  · decide +kernel

end Memory
end ApiCatalog
