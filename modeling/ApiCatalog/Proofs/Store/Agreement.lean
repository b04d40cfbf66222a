import ApiCatalog.Proofs.Store.File
import ApiCatalog.Proofs.Store.Restore
import ApiCatalog.Proofs.Store.Snapshot

/-!
# A store and its state file

The file need not equal the memory: it may lack versions and repeat keys until it is written for the
first time. But opened again it always gives the objects that the memory has. Main statements: a
change that cannot be written is taken back exactly (`Keyed.sameObjects_undoStatus`,
`sameObjects_undoBinding`), and after any requests the file holds the objects of the store
(`file_holds_memory`).
-/
namespace ApiCatalog
namespace Memory

section TakingBack

variable {s s' : Memory} {partition : Partition} {entry previous updated : CatalogEntry}

theorem sameObjects_of_not_created {suffix : String} {binding : ApiBinding} {e : StoreError}
    (refused : s.createBinding suffix partition binding = (.error e, s')) : s'.SameObjects s := by
  rcases createBinding_cases s suffix partition binding with ⟨other, same⟩ | ⟨created, done, -⟩
  · rw [same] at refused
    cases refused
    exact .refl s
  · rw [done] at refused
    cases refused

theorem sameObjects_of_refused {e : StoreError}
    (refused : s.updateEntryStatus partition entry = (.error e, s')) : s'.SameObjects s := by
  unfold updateEntryStatus at refused
  dsimp only at refused
  split at refused
  · cases refused
    exact ⟨rfl, rfl, rfl⟩
  · split at refused
    · cases refused
    · cases refused
      exact ⟨rfl, rfl, rfl⟩

/-- The entry that was stored before a status write is put back in its place. -/
theorem Keyed.sameObjects_undoStatus (keyed : s.Keyed)
    (read : s.getEntry partition entry.name = .ok previous)
    (written : s.updateEntryStatus partition entry = (.ok updated, s')) :
    (s'.undoStatus partition previous).SameObjects s := by
  have found : s.entries.get? (Stored.key partition entry) = some previous :=
    getEntry_eq_ok.1 read
  have own : Stored.key partition previous = Stored.key partition entry :=
    (keyed.entries _ _ found).symm
  by_cases current : entry.metadata.version = previous.metadata.version
  · rw [updateEntryStatus_of_current found current] at written
    cases written
    refine ⟨?_, rfl, rfl⟩
    change ((s.entries.insert (Stored.key partition entry) _).insert (Stored.key partition previous)
      previous) = s.entries
    rw [own, Table.insert_insert, Table.insert_of_get? found]
  · rw [updateEntryStatus_of_stale found current] at written
    cases written

/-- A binding that was created under a free key leaves nothing behind when it is taken back. -/
theorem sameObjects_undoBinding {suffix : String} {binding created : ApiBinding}
    (done : s.createBinding suffix partition binding = (.ok created, s')) :
    (s'.undoBinding partition created.metadata.name).SameObjects s := by
  obtain ⟨rfl, free, -⟩ := createBinding_ok done
  have there : (s.bindings.insert (Stored.key partition created) created).contains
      (Stored.key partition created) = true := by
    simp [Table.contains]
  have undone : (s.bindings.insert (Stored.key partition created) created).erase
      (Stored.key partition created) = s.bindings :=
    Table.erase_insert free
  unfold undoBinding
  dsimp only
  split
  · exact ⟨rfl, rfl, undone⟩
  next absent => exact absurd there absent

end TakingBack
end Memory

namespace FileStore

/-- A file that was written holds the snapshot that it was written from. -/
theorem load_document (path : String) (snapshot : Snapshot) :
    load path (.ok (.document (encode snapshot))) = .ok snapshot := by
  have read : (document? (.document (encode snapshot))).bind Snapshot.ofDocument? =
      some snapshot :=
    snapshot.ofDocument?_ofJson
  simp only [load, isBlank, Bool.false_eq_true, if_false, read]

theorem opened_document (path : String) (snapshot : Snapshot) :
    opened path (.ok (.document (encode snapshot))) = .ok (.ofSnapshot snapshot) := by
  rw [opened, load_document]
  rfl

/-- What a state file may hold at first. -/
inductive Initial : Except FileFault Content → Prop where
  | missing : Initial (.error .missing)
  | blank {text : String} : Text.isAllBlank text = true → Initial (.ok (.text text))
  | snapshot (snapshot : Snapshot) : Initial (.ok (.document (encode snapshot)))

/-- Each of these can be opened; where there is nothing to read, as the empty store. -/
theorem Initial.opens {content : Except FileFault Content} (initial : Initial content)
    (path : String) : ∃ snapshot, opened path content = .ok (.ofSnapshot snapshot) := by
  cases initial with
  | missing => exact ⟨.empty, rfl⟩
  | blank blank =>
    refine ⟨.empty, ?_⟩
    simp only [opened, load, isBlank, blank, if_true]
    rfl
  | snapshot snapshot => exact ⟨snapshot, opened_document path snapshot⟩

/-- What is asked of a store with a state file; the suffix is for a binding without a name. -/
inductive Request where
  | call (suffix : String) (call : Call)
  | persist

/-- A request, and why the file cannot be written meanwhile, if so. -/
structure Turn where
  request : Request
  refusal : Option FileFault

/-- The store and its file after a request. -/
def Turn.run (path : String) (turn : Turn) (now : Memory × Disk) : Memory × Disk :=
  let disk := { now.2 with refusal := turn.refusal }
  match turn.request with
  | .call suffix call =>
    let after := answer path Disk.save (pure suffix) call now.1 disk
    (after.1.2, after.2)
  | .persist =>
    let after := persist path Disk.save now.1 disk
    (after.1.2, after.2)

/-- The file, opened again, gives the objects of the store. -/
def Agrees (path : String) (s : Memory) (disk : Disk) : Prop :=
  ∃ restored, opened path disk.content = .ok restored ∧ restored.SameObjects s

/-- The file agrees with a store whose objects have keys of their own and versions. -/
structure Faithful (path : String) (s : Memory) (disk : Disk) : Prop where
  keyed : s.Keyed
  numbered : s.Numbered
  agrees : Agrees path s disk

section Steps

variable {path : String} {s s' undone : Memory} {disk disk' : Disk}

/-- Nothing has happened to an object, nor to the file. -/
theorem Faithful.of_same (faithful : Faithful path s disk) (same : s'.SameObjects s)
    (kept : disk'.content = disk.content) : Faithful path s' disk' where
  keyed := same.keyed faithful.keyed
  numbered := same.numbered faithful.numbered
  agrees := by
    obtain ⟨restored, opens, objects⟩ := faithful.agrees
    exact ⟨restored, kept ▸ opens, objects.trans same.symm⟩

theorem faithful_written (keyed : s.Keyed) (numbered : s.Numbered) (refusal : Option FileFault) :
    Faithful path s ⟨.ok (.document (encode s.snapshot)), refusal⟩ where
  keyed
  numbered
  agrees := ⟨_, opened_document path s.snapshot, Memory.sameObjects_restored keyed numbered⟩

/-- A change is either written, or taken back and not written. -/
theorem Faithful.saved_or_undone (faithful : Faithful path s disk) (keyed : s'.Keyed)
    (numbered : s'.Numbered) (back : undone.SameObjects s) {outcome : Except FileFault Unit}
    (saved : Disk.save (.document (encode s'.snapshot)) disk = (outcome, disk')) :
    Faithful path (match outcome with | .ok () => s' | .error _ => undone) disk' := by
  obtain ⟨content, refusal⟩ := disk
  cases refusal with
  | none =>
    cases saved
    exact faithful_written keyed numbered none
  | some fault =>
    cases saved
    exact faithful.of_same back rfl

theorem Faithful.persisted (faithful : Faithful path s disk) :
    Faithful path (persist path Disk.save s disk).1.2 (persist path Disk.save s disk).2 := by
  rw [persist_apply]
  split
  next saved => exact faithful.saved_or_undone faithful.keyed faithful.numbered (.refl s) saved
  next saved => exact faithful.saved_or_undone faithful.keyed faithful.numbered (.refl s) saved

theorem Faithful.wroteStatus (faithful : Faithful path s disk) (partition : Partition)
    (entry : CatalogEntry) :
    let after := updateEntryStatus path Disk.save partition entry s disk
    Faithful path after.1.2 after.2 := by
  dsimp only
  rw [updateEntryStatus_apply]
  cases read : s.getEntry partition entry.name with
  | error e => exact faithful
  | ok previous =>
    have keyed := faithful.keyed.updateEntryStatus partition entry
    have numbered := (Memory.stamps_updateEntryStatus s partition entry).numbered faithful.numbered
    rcases written : s.updateEntryStatus partition entry with ⟨outcome, s'⟩
    rw [written] at keyed numbered
    cases outcome with
    | error e => exact faithful.of_same (Memory.sameObjects_of_refused written) rfl
    | ok updated =>
      have back := faithful.keyed.sameObjects_undoStatus read written
      dsimp only
      split
      next saved => exact faithful.saved_or_undone keyed numbered back saved
      next saved => exact faithful.saved_or_undone keyed numbered back saved

theorem Faithful.wroteBinding (faithful : Faithful path s disk) (suffix : String)
    (partition : Partition) (binding : ApiBinding) :
    let after := createBinding path Disk.save suffix partition binding s disk
    Faithful path after.1.2 after.2 := by
  dsimp only
  rw [createBinding_apply]
  let creation : Memory.Mutation := .createBinding suffix partition binding
  have keyed := faithful.keyed.mutate creation
  have numbered := (creation.stamps s).numbered faithful.numbered
  simp only [creation, Memory.Mutation.apply] at keyed numbered
  rcases written : s.createBinding suffix partition binding with ⟨outcome, s'⟩
  rw [written] at keyed numbered
  cases outcome with
  | error e => exact faithful.of_same (Memory.sameObjects_of_not_created written) rfl
  | ok created =>
    have back := Memory.sameObjects_undoBinding written
    dsimp only
    split
    next saved => exact faithful.saved_or_undone keyed numbered back saved
    next saved => exact faithful.saved_or_undone keyed numbered back saved

theorem Faithful.answered (faithful : Faithful path s disk) (suffix : String) (call : Call) :
    let after := answer path Disk.save (pure suffix) call s disk
    Faithful path after.1.2 after.2 := by
  cases call with
  | getEntry partition name => exact faithful
  | listEntries partition => exact faithful
  | getExport partition nameSpace name => exact faithful
  | updateEntryStatus partition entry => exact faithful.wroteStatus partition entry
  | listBindings partition => exact faithful
  | getBinding partition name => exact faithful
  | createBinding partition binding =>
    simp only [answer]
    split
    · exact faithful.wroteBinding suffix partition binding
    · exact faithful.wroteBinding "" partition binding

theorem Faithful.turned (faithful : Faithful path s disk) (turn : Turn) :
    Faithful path (turn.run path (s, disk)).1 (turn.run path (s, disk)).2 := by
  have ready : Faithful path s { disk with refusal := turn.refusal } :=
    faithful.of_same (.refl s) rfl
  obtain ⟨request, refusal⟩ := turn
  cases request with
  | call suffix call => exact ready.answered suffix call
  | persist => exact ready.persisted

end Steps

section Runs

variable {path : String}

/-- The store and its file after some requests, one after the other. -/
def run (path : String) (turns : List Turn) (now : Memory × Disk) : Memory × Disk :=
  turns.foldl (fun now turn => turn.run path now) now

theorem Faithful.ran {now : Memory × Disk} (faithful : Faithful path now.1 now.2)
    (turns : List Turn) : Faithful path (run path turns now).1 (run path turns now).2 := by
  induction turns generalizing now with
  | nil => exact faithful
  | cons turn rest ih => exact ih (faithful.turned turn)

theorem exists_snapshot_of_opened {content : Except FileFault Content} {s : Memory}
    (opens : opened path content = .ok s) : ∃ snapshot, s = .ofSnapshot snapshot := by
  unfold opened at opens
  cases loaded : load path content with
  | error e =>
    rw [loaded] at opens
    cases opens
  | ok snapshot =>
    rw [loaded] at opens
    cases opens
    exact ⟨snapshot, rfl⟩

theorem faithful_opened {s : Memory} {disk : Disk} (opens : opened path disk.content = .ok s) :
    Faithful path s disk := by
  have agrees : Agrees path s disk := ⟨s, opens, .refl s⟩
  obtain ⟨snapshot, rfl⟩ := exists_snapshot_of_opened opens
  exact ⟨Memory.keyed_ofSnapshot snapshot, Memory.numbered_ofSnapshot snapshot, agrees⟩

/-- A missing or blank state file and one with any snapshot can be opened. Whatever file a store was
opened from, and whichever writes of the file fail: at any time the file, opened again, gives the
entries, exports and bindings that the store has. -/
theorem file_holds_memory (path : String) (disk : Disk) :
    (Initial disk.content → ∃ s, opened path disk.content = .ok s) ∧
      ∀ s, opened path disk.content = .ok s → ∀ turns, ∃ restored,
        opened path (run path turns (s, disk)).2.content = .ok restored ∧
          restored.SameObjects (run path turns (s, disk)).1 := by
  constructor
  · intro initial
    obtain ⟨snapshot, opens⟩ := initial.opens path
    exact ⟨.ofSnapshot snapshot, opens⟩
  · intro s opens turns
    exact ((faithful_opened opens).ran turns).agrees

namespace Sample

/-- An entry stands twice in it, without a version. -/
def snapshot : Snapshot :=
  ⟨[⟨.root, Memory.Sample.tools⟩,
    ⟨.root, { Memory.Sample.tools with description := "the latter" }⟩], [], []⟩

def disk : Disk := ⟨.ok (.document (encode snapshot)), none⟩

/-- Claims what the export asks for. -/
def written : CatalogEntry :=
  { Memory.Sample.stored with status := ⟨Memory.Sample.widgets.claims, [], .empty⟩ }

/-- The same status is written twice, first in vain. -/
def turns : List Turn := [
  ⟨.call "" (.updateEntryStatus .root written), some .directory⟩,
  ⟨.call "x1" (.createBinding .root (.forReference ⟨"root", "widgets"⟩)), none⟩,
  ⟨.call "" (.updateEntryStatus .root written), none⟩]

end Sample

/-- Two of three writes reach the file, and each of them uses up a version. -/
theorem file_holds_memory_sample :
    let after := run "state" Sample.turns (.ofSnapshot Sample.snapshot, Sample.disk)
    (∃ s, opened "state" Sample.disk.content = .ok s) ∧
      (∃ restored, opened "state" after.2.content = .ok restored ∧
        restored.SameObjects after.1) ∧
      after.1.snapshot.versions = [5, 4] := by
  obtain ⟨opens, holds⟩ := file_holds_memory "state" Sample.disk
  have found : opened "state" Sample.disk.content = .ok (.ofSnapshot Sample.snapshot) :=
    opened_document "state" Sample.snapshot
  exact ⟨opens (.snapshot Sample.snapshot), holds _ found Sample.turns, by decide +kernel⟩

end Runs
end FileStore
end ApiCatalog
