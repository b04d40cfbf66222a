import ApiCatalog.Proofs.Store.History

/-!
# Fresh versions

A change of an object is told from all earlier states of the store by the version that it gives.
Main statement: the version that a mutation gives to an object is above every version that was
carried before exactly as long as no object has carried the largest one, and then whoever has read
an earlier version cannot write over the change (`changed_version_fresh_iff`).
-/
namespace ApiCatalog
namespace Memory

/-- The largest 64-bit version. -/
def lastPossible : Version := 0xffffffffffffffff

/-- A store opened from a snapshot that only mutations have changed, with the states before, the
latest one first. -/
inductive Course : Memory → List Memory → Prop where
  | opened (snapshot : Snapshot) : Course (.ofSnapshot snapshot) []
  | mutated {s : Memory} {past : List Memory} (m : Mutation) :
      Course s past → Course (m.apply s) (s :: past)

/-- In one of the states an object had the version. -/
def Carried (states : List Memory) (v : Version) : Prop :=
  ∃ t ∈ states, ∃ o, t.Has o ∧ o.version = v

/-- The store after mutations, one after the other. -/
def mutate (s : Memory) (mutations : List Mutation) : Memory :=
  mutations.foldl (fun s m => m.apply s) s

section Counter

variable {s : Memory} {past : List Memory} {v : Version}

theorem Course.carried_le (course : Course s past) (carried : Carried (s :: past) v) :
    v ≤ s.lastVersion := by
  induction course generalizing v with
  | opened snapshot =>
    obtain ⟨t, member, o, has, rfl⟩ := carried
    rw [List.mem_singleton.1 member] at has
    exact version_le_ofSnapshot has
  | @mutated s past m _ ih =>
    have stamps := m.stamps s
    obtain ⟨t, member, o, has, rfl⟩ := carried
    rcases List.mem_cons.1 member with rfl | before
    · rcases stamps.object has with kept | ⟨stamped, -⟩
      · exact UInt64.le_trans (ih ⟨s, List.mem_cons_self, o, kept, rfl⟩) stamps.le
      · rw [stamped]
        exact UInt64.le_refl _
    · exact UInt64.le_trans (ih ⟨t, before, o, has, rfl⟩) stamps.le

theorem lt_of_ne_lastPossible (other : v ≠ lastPossible) : v < 0xffffffffffffffff := by
  unfold lastPossible at other
  grind

end Counter

section Later

variable {s s' : Memory} {key : ObjectKey} {v : Version}

/-- Whatever is stored under the key has a version above `v`, and so will all that comes later. -/
structure Beyond (key : ObjectKey) (v : Version) (s : Memory) : Prop where
  counter : v < s.lastVersion
  stored : ∀ e, s.entries.get? key = some e → v < e.metadata.version

theorem Beyond.stamps (beyond : Beyond key v s) (stamps : Stamps s s') : Beyond key v s' where
  counter := UInt64.lt_of_lt_of_le beyond.counter stamps.le
  stored e found := by
    rcases stamps.entry found with before | ⟨stamped, -⟩
    · exact beyond.stored e before
    · rw [stamped]
      exact UInt64.lt_of_lt_of_le beyond.counter stamps.le

theorem Beyond.mutate (beyond : Beyond key v s) (mutations : List Mutation) :
    Beyond key v (s.mutate mutations) := by
  induction mutations generalizing s with
  | nil => exact beyond
  | cons m rest ih => exact ih (beyond.stamps (m.stamps s))

/-- A write that carries the version is turned down. -/
theorem Beyond.refuses (beyond : Beyond key v s) {partition : Partition} {write : CatalogEntry}
    (own : Stored.key partition write = key) (version : write.metadata.version = v) :
    (s.updateEntryStatus partition write).1 = .error
      (match s.entries.get? key with
        | some stored => .conflict entryKind key.display v stored.metadata.version
        | none => .notFound entryKind key.display) := by
  subst own version
  cases found : s.entries.get? (Stored.key partition write) with
  | none => rw [updateEntryStatus_of_missing found]
  | some stored =>
    have stale : write.metadata.version ≠ stored.metadata.version := fun same =>
      UInt64.lt_irrefl _ (same ▸ beyond.stored stored found)
    rw [updateEntryStatus_of_stale found stale]

end Later

/-- A mutation gives an object that it creates or changes a version above all that were carried
before exactly if the largest one was not among them. In that case a status write over the entry
with a version carried before is turned down, after any further mutations: the entry has another
version, or it is gone. -/
theorem changed_version_fresh_iff {s : Memory} {past : List Memory} (course : Course s past)
    {m : Mutation} {o : Object} (now : (m.apply s).Has o) (changed : ¬s.Has o) :
    ((∀ v, Carried (s :: past) v → v < o.version) ↔ ¬Carried (s :: past) lastPossible) ∧
      (¬Carried (s :: past) lastPossible → ∀ key e, o = .entry key e →
        ∀ (more : List Mutation) (partition : Partition) (write : CatalogEntry),
          Stored.key partition write = key → Carried (s :: past) write.metadata.version →
          (((m.apply s).mutate more).updateEntryStatus partition write).1 = .error
            (match ((m.apply s).mutate more).entries.get? key with
              | some stored =>
                .conflict entryKind key.display write.metadata.version stored.metadata.version
              | none => .notFound entryKind key.display)) := by
  have stamps := m.stamps s
  obtain ⟨stamped, counter⟩ := (stamps.object now).resolve_left changed
  -- The new version is the next one, and no carried version is above the counter.
  have above : ¬Carried (s :: past) lastPossible →
      ∀ v, Carried (s :: past) v → v < (m.apply s).lastVersion := by
    intro none_last v carried
    have bound := course.carried_le carried
    have other : v ≠ lastPossible := fun same => none_last (same ▸ carried)
    rw [counter]
    by_cases full : s.lastVersion = lastPossible
    · rw [full]
      exact lt_of_ne_lastPossible other
    · exact UInt64.lt_of_le_of_lt bound (Version.lt_next (lt_of_ne_lastPossible full))
  refine ⟨⟨fun fresh last => ?_, fun none_last v carried => stamped ▸ above none_last v carried⟩, ?_⟩
  · have beyond : lastPossible < o.version := fresh _ last
    unfold lastPossible at beyond
    grind
  · rintro none_last key e rfl more partition write own carried
    have bound := above none_last _ carried
    have beyond : Beyond key write.metadata.version (m.apply s) := by
      refine ⟨bound, fun e' found => ?_⟩
      cases (Option.some.inj (found.symm.trans now) : e' = e)
      rw [show e.metadata.version = (m.apply s).lastVersion from stamped]
      exact bound
    exact (beyond.mutate more).refuses own rfl

namespace Sample

def edited : CatalogEntry := { tools with description := "Tools of all kinds" }

theorem course : Course store past :=
  .mutated (.putEntry .root tools) (.mutated (.putExport .root widgets) (.opened .empty))

/-- Whoever comes from before the change has the version 2. -/
def change : Mutation := .putEntry .root edited

def recreation : List Mutation := [.deleteEntry .root "tools", .putEntry .root edited]

/-- The state file gave the entry the largest version. -/
def worn : CatalogEntry := Stored.withVersion tools lastPossible

def full : Memory := ofSnapshot ⟨[⟨.root, worn⟩], [], []⟩

end Sample

/-- The entry is changed, deleted and created again. A writer that has read it before the change is
told of the version that it has by then. -/
theorem changed_version_fresh_sample :
    ((((Sample.change.apply Sample.store).mutate Sample.recreation).updateEntryStatus .root
      Sample.stored).1) = .error (.conflict "CatalogEntry" "root/tools" 2 4) := by
  have now : (Sample.change.apply Sample.store).Has
      (.entry (.cluster .root "tools") (Stored.withVersion Sample.edited 3)) := by
    decide +kernel
  have changed : ¬Sample.store.Has
      (.entry (.cluster .root "tools") (Stored.withVersion Sample.edited 3)) := by
    decide +kernel
  have none_last : ¬Carried (Sample.store :: Sample.past) lastPossible := fun last =>
    absurd (Sample.course.carried_le last) (by decide +kernel)
  have read : Carried (Sample.store :: Sample.past) Sample.stored.metadata.version :=
    ⟨Sample.store, List.mem_cons_self, .entry (.cluster .root "tools") Sample.stored,
      by decide +kernel, rfl⟩
  have refused := (changed_version_fresh_iff Sample.course now changed).2 none_last _ _ rfl
    Sample.recreation .root Sample.stored rfl read
  have stored : ((Sample.change.apply Sample.store).mutate Sample.recreation).entries.get?
      (.cluster .root "tools") = some (Stored.withVersion Sample.edited 4) := by
    decide +kernel
  rw [refused, stored]
  rfl

/-- An entry with the largest version keeps it when it is changed. So a status derived from the
entry before the change is written over the change. -/
theorem largest_version_given_again :
    let changed := Sample.change.apply Sample.full
    let key := ObjectKey.cluster .root "tools"
    Carried [Sample.full] Sample.worn.metadata.version ∧
      changed.Has (.entry key (Stored.withVersion Sample.edited Sample.worn.metadata.version)) ∧
      ¬Sample.full.Has
        (.entry key (Stored.withVersion Sample.edited Sample.worn.metadata.version)) ∧
      (changed.updateEntryStatus .root Sample.worn).1 =
        .ok (Stored.withVersion Sample.edited Sample.worn.metadata.version) := by
  have read : Sample.full.Has (.entry (.cluster .root "tools") Sample.worn) := by decide +kernel
  refine ⟨⟨Sample.full, List.mem_cons_self, _, read, rfl⟩, ?_, ?_, rfl⟩
  · decide +kernel
  · decide +kernel

end Memory
end ApiCatalog
