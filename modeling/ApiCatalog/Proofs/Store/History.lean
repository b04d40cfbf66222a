import ApiCatalog.Proofs.Store.Listing
import ApiCatalog.Proofs.Store.StatusWrite
import ApiCatalog.Proofs.Store.Version

/-!
# Histories of a store

A history is the state of a store with all states before it. It takes in everything that several
parties do to the store, and the writes of a state file that fail and are taken back at any later
moment. Main statement: as long as the version counter has room, key and version of an entry
determine the entry, over all states of a history (`History.oneContent`).
-/
namespace ApiCatalog
namespace Memory

section Reading

/-- A read of the store gives this entry of the partition. -/
def Reads (s : Memory) (partition : Partition) (entry : CatalogEntry) : Prop :=
  (∃ name, s.getEntry partition name = .ok entry) ∨ entry ∈ s.listEntries partition

theorem Keyed.reads_iff {s : Memory} (keyed : s.Keyed) {partition : Partition}
    {entry : CatalogEntry} :
    s.Reads partition entry ↔ s.entries.get? (Stored.key partition entry) = some entry := by
  constructor
  · rintro (⟨name, found⟩ | listed)
    · exact (keyed.getEntry_eq_ok_iff.1 found).2
    · exact (keyed.getEntry_eq_ok_iff.1 (keyed.mem_listEntries_iff.1 listed)).2
  · intro stored
    exact .inl ⟨entry.name, keyed.getEntry_eq_ok_iff.2 ⟨rfl, stored⟩⟩

end Reading

/-- A store that is now in the first state and was in the states of the list before, the latest one
first. What a failed write of the state file puts back was read at some time. -/
inductive History : Memory → List Memory → Prop where
  | opened (snapshot : Snapshot) : History (.ofSnapshot snapshot) []
  | operated {s : Memory} {past : List Memory} (op : Operation) :
      History s past → History (op.apply s) (s :: past)
  | statusUndone {s t : Memory} {past : List Memory} {partition : Partition}
      {previous : CatalogEntry} : History s past → t ∈ s :: past → t.Reads partition previous →
      History (s.undoStatus partition previous) (s :: past)
  | bindingUndone {s : Memory} {past : List Memory} (partition : Partition) (name : String) :
      History s past → History (s.undoBinding partition name) (s :: past)

def Sample.past : List Memory :=
  [((ofSnapshot .empty).putExport .root widgets).2, ofSnapshot .empty]

theorem Sample.history : History Sample.store past :=
  .operated (.mutate (.putEntry .root tools)) <|
    .operated (.mutate (.putExport .root widgets)) (.opened .empty)

theorem History.reachable {s : Memory} {past : List Memory} (history : History s past) :
    ∀ t ∈ s :: past, t.Reachable := by
  have cons : ∀ {s' : Memory} {states : List Memory}, s'.Reachable →
      (∀ t ∈ states, t.Reachable) → ∀ t ∈ s' :: states, t.Reachable := by
    intro s' states here before t member
    rcases List.mem_cons.1 member with rfl | member
    · exact here
    · exact before t member
  induction history with
  | opened snapshot => exact cons (.opened snapshot) fun t member => nomatch member
  | @operated s past op _ ih => exact cons (.operated op (ih s List.mem_cons_self)) ih
  | @statusUndone s _ past partition previous _ _ _ ih =>
    exact cons (.statusUndone partition previous (ih s List.mem_cons_self)) ih
  | @bindingUndone s past partition name _ ih =>
    exact cons (.bindingUndone partition name (ih s List.mem_cons_self)) ih

section Content

/-- In one of the states the entry was under the key. -/
def Held (states : List Memory) (key : ObjectKey) (entry : CatalogEntry) : Prop :=
  ∃ t ∈ states, t.entries.get? key = some entry

/-- No version was used above the counter, and none for two contents under one key. -/
structure OneContent (counter : Version) (states : List Memory) : Prop where
  bounded : ∀ {key a}, Held states key a → a.metadata.version ≤ counter
  content : ∀ {key a b}, Held states key a → Held states key b →
    a.metadata.version = b.metadata.version → a = b

theorem held_cons {s : Memory} {states : List Memory} {key : ObjectKey} {entry : CatalogEntry} :
    Held (s :: states) key entry ↔ s.entries.get? key = some entry ∨ Held states key entry := by
  simp [Held]

/-- A further state in which each entry was held before or has a version that none had. -/
theorem OneContent.cons {s : Memory} {states : List Memory} {counter : Version}
    (one : OneContent counter states) (grown : counter ≤ s.lastVersion)
    (fresh : ∀ {key e}, s.entries.get? key = some e →
      Held states key e ∨ e.metadata.version = s.lastVersion ∧ counter < s.lastVersion) :
    OneContent s.lastVersion (s :: states) := by
  have origin : ∀ {key e}, Held (s :: states) key e → Held states key e ∨
      s.entries.get? key = some e ∧ e.metadata.version = s.lastVersion ∧
        counter < s.lastVersion := by
    intro key e held
    rcases held_cons.1 held with here | before
    · exact (fresh here).imp id fun stamped => ⟨here, stamped⟩
    · exact .inl before
  -- A version that is new is above all that were there before.
  have apart : ∀ {key} {a b : CatalogEntry}, Held states key a →
      b.metadata.version = s.lastVersion → counter < s.lastVersion →
        a.metadata.version ≠ b.metadata.version := by
    intro key a b before stamped above same
    have bound := one.bounded before
    rw [same, stamped] at bound
    exact UInt64.not_le.2 above bound
  constructor
  · intro key e held
    rcases origin held with before | ⟨-, stamped, -⟩
    · exact UInt64.le_trans (one.bounded before) grown
    · rw [stamped]
      exact UInt64.le_refl _
  · intro key a b first second same
    rcases origin first with before | ⟨here, stamped, above⟩
    · rcases origin second with before' | ⟨-, stamped', above'⟩
      · exact one.content before before' same
      · exact absurd same (apart before stamped' above')
    · rcases origin second with before' | ⟨here', -, -⟩
      · exact absurd same.symm (apart before' stamped above)
      · exact Option.some.inj (here.symm.trans here')

theorem oneContent_ofSnapshot (snapshot : Snapshot) :
    OneContent (ofSnapshot snapshot).lastVersion [ofSnapshot snapshot] where
  bounded {key a} held := by
    obtain ⟨t, member, found⟩ := held
    rw [List.mem_singleton.1 member] at found
    exact version_le_ofSnapshot (o := .entry key a) found
  content {key a b} first second _ := by
    obtain ⟨t, member, found⟩ := first
    obtain ⟨u, member', found'⟩ := second
    rw [List.mem_singleton.1 member] at found
    rw [List.mem_singleton.1 member'] at found'
    exact Option.some.inj (found.symm.trans found')

theorem undoBinding_frame (s : Memory) (partition : Partition) (name : String) :
    (s.undoBinding partition name).entries = s.entries ∧
      (s.undoBinding partition name).lastVersion = s.lastVersion := by
  unfold undoBinding
  dsimp only
  split
  · exact ⟨rfl, rfl⟩
  · exact ⟨rfl, rfl⟩

section Steps

variable {s t : Memory} {states : List Memory}

theorem OneContent.operated (one : OneContent s.lastVersion (s :: states)) (op : Operation)
    (room : s.lastVersion < 0xffffffffffffffff) :
    OneContent (op.apply s).lastVersion (op.apply s :: s :: states) := by
  have stamps := op.stamps s
  refine one.cons stamps.le fun found => ?_
  rcases stamps.entry found with before | ⟨stamped, counter⟩
  · exact .inl (held_cons.2 (.inl before))
  · exact .inr ⟨stamped, counter ▸ Version.lt_next room⟩

/-- The counter stays where it is, and what is put back was there before. -/
theorem OneContent.statusUndone (one : OneContent s.lastVersion (s :: states))
    (earlier : t ∈ s :: states) (keyed : t.Keyed) {partition : Partition} {previous : CatalogEntry}
    (read : t.Reads partition previous) :
    OneContent (s.undoStatus partition previous).lastVersion
      (s.undoStatus partition previous :: s :: states) := by
  refine one.cons (UInt64.le_refl _) fun found => .inl ?_
  rcases Table.get?_insert_cases found with ⟨rfl, rfl⟩ | before
  · exact ⟨t, earlier, keyed.reads_iff.1 read⟩
  · exact held_cons.2 (.inl before)

theorem OneContent.bindingUndone (one : OneContent s.lastVersion (s :: states))
    (partition : Partition) (name : String) :
    OneContent (s.undoBinding partition name).lastVersion
      (s.undoBinding partition name :: s :: states) := by
  obtain ⟨entries, counter⟩ := undoBinding_frame s partition name
  refine one.cons (counter ▸ UInt64.le_refl _) fun found => ?_
  exact .inl (held_cons.2 (.inl (entries ▸ found)))

end Steps

/-- Key and version of an entry determine the entry, whichever state it was read in. -/
theorem History.oneContent {s : Memory} {past : List Memory} (history : History s past)
    (room : s.lastVersion < 0xffffffffffffffff) : OneContent s.lastVersion (s :: past) := by
  induction history with
  | opened snapshot => exact oneContent_ofSnapshot snapshot
  | @operated s past op _ ih =>
    have room := UInt64.lt_of_le_of_lt (op.stamps s).le room
    exact (ih room).operated op room
  | @statusUndone s t past partition previous history earlier read ih =>
    exact (ih room).statusUndone earlier (history.reachable t earlier).keyed read
  | @bindingUndone s past partition name _ ih =>
    have counter := (undoBinding_frame s partition name).2
    exact (ih (counter ▸ room)).bindingUndone partition name

end Content
end Memory
end ApiCatalog
