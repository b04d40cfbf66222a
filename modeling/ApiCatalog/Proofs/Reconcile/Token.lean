import ApiCatalog.Proofs.Program
import ApiCatalog.Proofs.Reconcile.Solo
import ApiCatalog.Proofs.Store.File

/-!
# The version as a token

Whoever writes a status says by the version which entry it was derived from. Main statement: a
status write takes place exactly if the store still has the entry that was read, so that neither
another party nor a pass overwrites a change it has not seen (`no_lost_update`).
-/
namespace ApiCatalog
namespace Memory

/-- What a write of a status over the entry `e` does, with its result and the store after it. -/
structure WritesOver (s : Memory) (partition : Partition) (e : CatalogEntry) (status : EntryStatus)
    (written : Except StoreError CatalogEntry × Memory) : Prop where
  succeeds : (∃ updated, written.1 = .ok updated) ↔
    ∃ stored, s.entries.get? (Stored.key partition e) = some stored ∧
      stored.metadata.version = e.metadata.version
  replaces : ∀ updated, written.1 = .ok updated →
    s.entries.get? (Stored.key partition e) = some e ∧
      updated = Stored.withVersion { e with status } written.2.lastVersion ∧
      written.2.entries = s.entries.insert (Stored.key partition e) updated ∧
      written.2.exports = s.exports ∧ written.2.bindings = s.bindings
  absent : s.entries.get? (Stored.key partition e) = none →
    written.1 = .error (.notFound entryKind (Stored.key partition e).display)
  stale : ∀ stored, s.entries.get? (Stored.key partition e) = some stored →
    stored.metadata.version ≠ e.metadata.version →
      written.1 = .error (.conflict entryKind (Stored.key partition e).display e.metadata.version
        stored.metadata.version)
  refused : ∀ error, written.1 = .error error →
    written.2.entries = s.entries ∧ written.2.exports = s.exports ∧ written.2.bindings = s.bindings

section Ends

variable {s : Memory} {partition : Partition} {e stored : CatalogEntry} {status : EntryStatus}

/-- A write that finds no entry. -/
theorem WritesOver.of_missing {s' : Memory}
    (missing : s.entries.get? (Stored.key partition e) = none)
    (frame : s'.entries = s.entries ∧ s'.exports = s.exports ∧ s'.bindings = s.bindings) :
    WritesOver s partition e status
      (.error (.notFound entryKind (Stored.key partition e).display), s') := by
  constructor
  · simp [missing]
  · intro updated done
    cases done
  · exact fun _ => rfl
  · intro stored found
    simp [missing] at found
  · exact fun _ _ => frame

/-- A write that finds another version. -/
theorem WritesOver.of_stale (found : s.entries.get? (Stored.key partition e) = some stored)
    (stale : e.metadata.version ≠ stored.metadata.version) :
    WritesOver s partition e status
      (.error (.conflict entryKind (Stored.key partition e).display e.metadata.version
        stored.metadata.version), s.bump) := by
  constructor
  · simp [found, stale.symm]
  · intro updated done
    cases done
  · simp [found]
  · intro other found'
    cases found.symm.trans found'
    exact fun _ => rfl
  · exact fun _ _ => ⟨rfl, rfl, rfl⟩

/-- A write that finds the very entry. -/
theorem WritesOver.of_current (found : s.entries.get? (Stored.key partition e) = some e) :
    WritesOver s partition e status
      (.ok (s.restamped e status), s.withStatus (Stored.key partition e) e status) := by
  constructor
  · simp [found]
  · rintro updated ⟨⟩
    exact ⟨found, rfl, rfl, rfl, rfl⟩
  · simp [found]
  · intro stored found' stale
    cases found.symm.trans found'
    exact absurd rfl stale
  · intro error done
    cases done

end Ends

section Token

variable {s t : Memory} {past : List Memory} {partition : Partition} {e write : CatalogEntry}

/-- Some state of the history has the entry, and so no other entry has its key and version. -/
theorem History.writesOver (history : History s past)
    (room : s.lastVersion < 0xffffffffffffffff) (earlier : t ∈ s :: past)
    (read : t.Reads partition e) (token : write.metadata = e.metadata) :
    WritesOver s partition e write.status (s.updateEntryStatus partition write) := by
  have held : Held (s :: past) (Stored.key partition e) e :=
    ⟨t, earlier, (history.reachable t earlier).keyed.reads_iff.1 read⟩
  obtain ⟨metadata, exports, description, status⟩ := write
  cases token
  cases found : s.entries.get? (Stored.key partition
      (CatalogEntry.mk e.metadata exports description status)) with
  | none =>
    rw [updateEntryStatus_of_missing found]
    exact .of_missing found ⟨rfl, rfl, rfl⟩
  | some stored =>
    by_cases same : e.metadata.version = stored.metadata.version
    · have equal : e = stored := (history.oneContent room).content held
        ⟨s, List.mem_cons_self, found⟩ same
      rw [updateEntryStatus_of_current found same, ← equal]
      exact .of_current (equal ▸ found)
    · rw [updateEntryStatus_of_stale found same]
      exact .of_stale found same

/-- The file is written only after the write in memory, and an entry that is missing is missed
before it. -/
theorem History.writesOver_file (history : History s past)
    (room : s.lastVersion < 0xffffffffffffffff) (earlier : t ∈ s :: past)
    (read : t.Reads partition e) (token : write.metadata = e.metadata) (path : String)
    {disk : FileStore.Disk} (writable : disk.refusal = none) :
    WritesOver s partition e write.status
      (FileStore.updateEntryStatus path FileStore.Disk.save partition write s disk).1 := by
  cases found : s.getEntry partition write.name with
  | ok previous =>
    rw [FileStore.updateEntryStatus_of_writable path s disk writable found]
    exact history.writesOver room earlier read token
  | error error =>
    obtain ⟨missing, rfl⟩ := getEntry_eq_error found
    rw [FileStore.updateEntryStatus_of_error path _ s disk found]
    rw [CatalogEntry.name, token] at missing ⊢
    exact .of_missing missing ⟨rfl, rfl, rfl⟩

end Token

section Passes

/-- What is left of a pass to do, in a store with its past, and the entry that the pass has fetched
if it has. Others may use the store between any two steps of the pass. -/
inductive Underway (policy : SchemaPolicy) (now : Instant) (request : Request) :
    Memory → List Memory → Option CatalogEntry →
      Program Pass.Step.Answer (Except PassError Outcome) → Prop where
  | begun {s past} : History s past → Underway policy now request s past none
      (reconcile policy now request)
  | elapsed {s past s' past' fetched rest} : Underway policy now request s past fetched rest →
      History s' past' → s :: past <:+ s' :: past' →
      Underway policy now request s' past' fetched rest
  | fetched {s past fetched partition name next} :
      Underway policy now request s past fetched (.ask (.fetch partition name) next) →
      Underway policy now request s past (s.getEntry partition name).toOption
        (next (s.getEntry partition name))
  | lookedUp {s past fetched reference nameSpace next} :
      Underway policy now request s past fetched (.ask (.lookup reference nameSpace) next) →
      Underway policy now request s past fetched (next (s.resolution nameSpace reference))

/-- After the fetch of an entry a pass fetches nothing more, and all that it commits is another
status of that entry. -/
def CommitsOnly (request : Request) (e : CatalogEntry) : Pass.Step → Prop
  | .fetch .. => False
  | .lookup .. => True
  | .commit partition entry => partition = request.partition ∧ ∃ status, entry = { e with status }

theorem asks_resolve {P : Pass.Step → Prop} (nameSpace : Option String)
    (references : List ExportReference) (lookups : ∀ reference, P (.lookup reference nameSpace)) :
    (Pass.resolve nameSpace references).Asks P := by
  induction references with
  | nil => exact trivial
  | cons reference rest ih =>
    refine ⟨lookups reference, fun resolution => ?_⟩
    exact ih.bind fun others => trivial

theorem asks_after_fetch (request : Request) (e : CatalogEntry) (policy : SchemaPolicy)
    (now : Instant) :
    (Pass.derive e request.nameSpace policy now >>= Pass.commit request e).Asks
      (CommitsOnly request e) := by
  have lookups : (Pass.resolve request.nameSpace e.exports).Asks (CommitsOnly request e) :=
    asks_resolve _ _ fun _ => trivial
  have derives : (Pass.derive e request.nameSpace policy now).Asks (CommitsOnly request e) :=
    lookups.bind fun contributions => trivial
  refine derives.bind fun d => ?_
  unfold Pass.commit
  split
  · exact trivial
  · refine ⟨⟨rfl, _, rfl⟩, fun answer => ?_⟩
    cases answer with
    | ok stored => exact trivial
    | error e => exact trivial

structure Stage (policy : SchemaPolicy) (now : Instant) (request : Request) (s : Memory)
    (past : List Memory) (fetched : Option CatalogEntry)
    (rest : Program Pass.Step.Answer (Except PassError Outcome)) : Prop where
  history : History s past
  before : fetched = none → rest = reconcile policy now request ∨ ∃ result, rest = .done result
  after : ∀ {e}, fetched = some e → rest.Asks (CommitsOnly request e) ∧
    ∃ t ∈ s :: past, t.getEntry request.partition request.name = .ok e

theorem Underway.stage {policy : SchemaPolicy} {now : Instant} {request : Request} {s : Memory}
    {past : List Memory} {fetched : Option CatalogEntry}
    {rest : Program Pass.Step.Answer (Except PassError Outcome)}
    (underway : Underway policy now request s past fetched rest) :
    Stage policy now request s past fetched rest := by
  induction underway with
  | begun history => exact ⟨history, fun _ => .inl rfl, fun h => by cases h⟩
  | elapsed _ history later ih =>
    refine ⟨history, ih.before, fun h => ?_⟩
    obtain ⟨asks, t, earlier, found⟩ := ih.after h
    exact ⟨asks, t, later.subset earlier, found⟩
  | @fetched s past fetched partition name next _ ih =>
    -- A pass that has fetched an entry never fetches again, so this one is at its beginning.
    cases fetched with
    | some e => exact absurd (ih.after rfl).1.1 id
    | none =>
      rcases ih.before rfl with fetching | ⟨result, ended⟩
      · rw [reconcile] at fetching
        cases fetching
        cases found : s.getEntry request.partition request.name with
        | ok e =>
          refine ⟨ih.history, (fun h => by cases h), fun {e'} h => ?_⟩
          cases h
          exact ⟨asks_after_fetch request e policy now, s, List.mem_cons_self, found⟩
        | error error => exact ⟨ih.history, fun _ => .inr ⟨_, rfl⟩, fun h => by cases h⟩
      · cases ended
  | @lookedUp s past fetched reference nameSpace next _ ih =>
    refine ⟨ih.history, fun h => ?_, fun h => ?_⟩
    · rcases ih.before h with fetching | ⟨result, ended⟩
      · cases fetching
      · cases ended
    · exact ⟨(ih.after h).1.2 _, (ih.after h).2⟩

end Passes

/-- Over an entry that was read at some time a status is written exactly if the store still has
that very entry, in memory as with a state file that can be written. So a pass that commits commits
over what it has fetched. -/
theorem no_lost_update {s : Memory} {past : List Memory} (history : History s past)
    (room : s.lastVersion < 0xffffffffffffffff) :
    (∀ t ∈ s :: past, ∀ partition e, t.Reads partition e →
      ∀ write : CatalogEntry, write.metadata = e.metadata →
        WritesOver s partition e write.status (s.updateEntryStatus partition write) ∧
          ∀ path (disk : FileStore.Disk), disk.refusal = none →
            WritesOver s partition e write.status
              (FileStore.updateEntryStatus path FileStore.Disk.save partition write s disk).1) ∧
    ∀ policy now request fetched partition write next,
      Underway policy now request s past fetched (.ask (.commit partition write) next) →
      ∀ updated, ((s.updateEntryStatus partition write).1 = .ok updated ∨
          ∃ path disk, (FileStore.updateEntryStatus path FileStore.Disk.save partition write
            s disk).1.1 = .ok updated) →
        ∃ e, fetched = some e ∧ s.getEntry request.partition request.name = .ok e ∧
          ∃ status, partition = request.partition ∧ write = { e with status } := by
  constructor
  · intro t earlier partition e read write token
    exact ⟨history.writesOver room earlier read token, fun path disk writable =>
      history.writesOver_file room earlier read token path writable⟩
  · intro policy now request fetched partition write next underway updated success
    have done : (s.updateEntryStatus partition write).1 = .ok updated := by
      rcases success with done | ⟨path, disk, done⟩
      · exact done
      · exact FileStore.updateEntryStatus_ok path _ s disk done
    have stage := underway.stage
    cases fetched with
    | none =>
      rcases stage.before rfl with fetching | ⟨result, ended⟩
      · cases fetching
      · cases ended
    | some e =>
      obtain ⟨⟨⟨rfl, status, rfl⟩, -⟩, t, earlier, found⟩ := stage.after rfl
      have token : ({ e with status } : CatalogEntry).metadata = e.metadata := rfl
      have writes := history.writesOver room earlier (.inl ⟨_, found⟩) token
      have name := ((history.reachable t earlier).keyed.getEntry_eq_ok_iff.1 found).1
      have stored := (writes.replaces updated done).1
      have keyed := (history.reachable s List.mem_cons_self).keyed
      exact ⟨e, rfl, keyed.getEntry_eq_ok_iff.2 ⟨name, stored⟩, status, rfl, rfl⟩

/-- Two parties have read the entry, and one of them has written a status. The other one is told
that its version is not the stored one. -/
theorem no_lost_update_sample :
    ((Sample.store.updateEntryStatus .root Sample.stored).2.updateEntryStatus .root
        Sample.stored).1 = .error (.conflict "CatalogEntry" "root/tools" 2 3) := by
  have history : History (Sample.store.updateEntryStatus .root Sample.stored).2
      (Sample.store :: Sample.past) :=
    .operated (.mutate (.updateEntryStatus .root Sample.stored)) Sample.history
  have read : Sample.store.Reads .root Sample.stored := .inl ⟨"tools", Sample.getEntry_store⟩
  have writes := (no_lost_update history (by decide +kernel)).1 Sample.store
    (List.mem_cons_of_mem _ List.mem_cons_self) .root Sample.stored read Sample.stored rfl
  refine (writes.1.stale (Stored.withVersion Sample.stored 3) ?_ ?_).trans ?_
  · decide +kernel
  · decide
  · rfl

end Memory
end ApiCatalog
