import ApiCatalog.Proofs.Store.Agreement

/-!
# Writes that are taken back

A change that the state file does not take is undone in memory, where the version counter and the
feed have moved on. Main statement: nothing else is left of it, so that a status write can be made
again just as before, and the counter of status writes tells how many of them have ended well
(`failed_write_undone`).
-/
namespace ApiCatalog

/-- A call that ends well counts as one. -/
def tally {ε α : Type} : Except ε α → Nat
  | .ok _ => 1
  | .error _ => 0

namespace Memory

/-- Nothing differs but the version that comes next, and what was published. -/
structure AsBefore (s' s : Memory) : Prop where
  objects : s'.SameObjects s
  faults : s'.faults = s.faults
  statusWrites : s'.statusWrites = s.statusWrites

variable {s s' undone : Memory} {partition : Partition} {entry previous updated : CatalogEntry}

section TakingBack

theorem statusWrites_undoStatus
    (written : s.updateEntryStatus partition entry = (.ok updated, s')) :
    (s'.undoStatus partition previous).statusWrites = s.statusWrites := by
  obtain ⟨stored, -, -, rfl⟩ := updateEntryStatus_done written
  exact Nat.add_sub_cancel s.statusWrites 1

theorem Keyed.asBefore_undoStatus (keyed : s.Keyed)
    (read : s.getEntry partition entry.name = .ok previous)
    (written : s.updateEntryStatus partition entry = (.ok updated, s')) :
    (s'.undoStatus partition previous).AsBefore s where
  objects := keyed.sameObjects_undoStatus read written
  faults := by
    obtain ⟨stored, -, -, rfl⟩ := updateEntryStatus_done written
    rfl
  statusWrites := statusWrites_undoStatus written

theorem asBefore_undoBinding {suffix : String} {binding created : ApiBinding}
    (done : s.createBinding suffix partition binding = (.ok created, s')) :
    (s'.undoBinding partition created.metadata.name).AsBefore s where
  objects := sameObjects_undoBinding done
  faults := by
    obtain ⟨rfl, -⟩ := createBinding_ok done
    unfold undoBinding
    dsimp only
    split <;> rfl
  statusWrites := by
    obtain ⟨rfl, -⟩ := createBinding_ok done
    unfold undoBinding
    dsimp only
    split <;> rfl

/-- A status write that has succeeded once does so again where there are the same objects, and
gives the same entry under a version of its own. -/
theorem updateEntryStatus_again (same : undone.SameObjects s)
    (written : s.updateEntryStatus partition entry = (.ok updated, s')) :
    ∃ again s₂, undone.updateEntryStatus partition entry = (.ok again, s₂) ∧
      again = Stored.withVersion updated again.metadata.version ∧
      s₂.getEntry partition entry.name = .ok again ∧
      s₂.statusWrites = undone.statusWrites + 1 := by
  obtain ⟨stored, found, current, -⟩ := updateEntryStatus_done written
  rw [updateEntryStatus_of_current found current] at written
  cases written
  rw [← same.entries] at found
  exact ⟨_, _, updateEntryStatus_of_current found current, rfl,
    getEntry_eq_ok.2 (Table.get?_insert_self ..), rfl⟩

end TakingBack

section Counting

theorem statusWrites_updateEntryStatus (s : Memory) (partition : Partition)
    (entry : CatalogEntry) :
    (s.updateEntryStatus partition entry).2.statusWrites =
      s.statusWrites + tally (s.updateEntryStatus partition entry).1 := by
  unfold updateEntryStatus
  dsimp only
  split
  · rfl
  · split <;> rfl

/-- The status writes of an operation that end well, one or none. -/
def Operation.wrote : Operation → Memory → Nat
  | mutate (.updateEntryStatus partition entry), s =>
    tally (s.updateEntryStatus partition entry).1
  | _, _ => 0

theorem Operation.statusWrites_apply (op : Operation) (s : Memory) :
    (op.apply s).statusWrites = s.statusWrites + op.wrote s := by
  cases op with
  | failExport | clearFault => rfl
  | mutate m =>
    cases m with
    | putEntry | putExport | putBinding => rfl
    | deleteEntry | deleteExport | setPhase =>
      simp only [apply, Mutation.apply, deleteEntry, deleteExport, setPhase]
      split <;> rfl
    | createBinding suffix partition binding =>
      simp only [apply, Mutation.apply]
      rcases createBinding_cases s suffix partition binding with ⟨e, refused⟩ | ⟨created, done, -⟩
      · rw [refused]
        rfl
      · rw [done]
        rfl
    | updateEntryStatus partition entry => exact statusWrites_updateEntryStatus s partition entry

end Counting
end Memory

namespace FileStore

variable {δ : Type} (path : String) (save : Content → StateM δ (Except FileFault Unit))

section Failing

variable {s s' : Memory} {d d' : δ} {partition : Partition} {fault : FileFault}

/-- A status write whose file write fails. -/
theorem updateEntryStatus_undone (keyed : s.Keyed) {entry updated : CatalogEntry}
    (written : s.updateEntryStatus partition entry = (.ok updated, s'))
    (failed : save (.document (encode s'.snapshot)) d = (.error fault, d')) :
    ∃ undone, updateEntryStatus path save partition entry s d =
        ((.error (.io path fault.message), undone), d') ∧ undone.AsBefore s := by
  obtain ⟨previous, found, -⟩ := Memory.updateEntryStatus_done written
  have read : s.getEntry partition entry.name = .ok previous := Memory.getEntry_eq_ok.2 found
  refine ⟨s'.undoStatus partition previous, ?_, keyed.asBefore_undoStatus read written⟩
  rw [updateEntryStatus_apply, read]
  dsimp only
  rw [written]
  dsimp only
  rw [failed]

/-- A creation whose file write fails. -/
theorem createBinding_undone {suffix : String} {binding created : ApiBinding}
    (done : s.createBinding suffix partition binding = (.ok created, s'))
    (failed : save (.document (encode s'.snapshot)) d = (.error fault, d')) :
    ∃ undone, createBinding path save suffix partition binding s d =
        ((.error (.io path fault.message), undone), d') ∧ undone.AsBefore s := by
  refine ⟨s'.undoBinding partition created.metadata.name, ?_, Memory.asBefore_undoBinding done⟩
  rw [createBinding_apply, done]
  dsimp only
  rw [failed]

/-- The same status write, made again when the file can be written. -/
theorem updateEntryStatus_retried {undone : Memory} (before : undone.AsBefore s)
    {entry updated : CatalogEntry}
    (written : s.updateEntryStatus partition entry = (.ok updated, s'))
    (writable : ∀ content, (save content d).1 = .ok ()) :
    ∃ again s₂ d₂, updateEntryStatus path save partition entry undone d = ((.ok again, s₂), d₂) ∧
      again = Stored.withVersion updated again.metadata.version ∧
      s₂.getEntry partition entry.name = .ok again ∧ s₂.statusWrites = s'.statusWrites := by
  obtain ⟨again, s₂, rewritten, same, found, counted⟩ :=
    Memory.updateEntryStatus_again before.objects written
  have first := Memory.statusWrites_updateEntryStatus s partition entry
  rw [written] at first
  refine ⟨again, s₂, _, updateEntryStatus_of_saves path save undone d rewritten
    (Prod.ext (writable _) rfl), same, found, ?_⟩
  rw [counted, before.statusWrites]
  exact first.symm

end Failing

section Steps

variable (s : Memory) (d : δ) (partition : Partition)

theorem statusWrites_updateEntryStatus (entry : CatalogEntry) :
    (updateEntryStatus path save partition entry s d).1.2.statusWrites =
      s.statusWrites + tally (updateEntryStatus path save partition entry s d).1.1 := by
  rcases updateEntryStatus_ends path save s d partition entry with
    ⟨e, absent⟩ | ⟨d', ended⟩ | ⟨updated, s', previous, e, d', written, undone⟩
  · rw [absent]
    rfl
  · rw [ended]
    exact Memory.statusWrites_updateEntryStatus s partition entry
  · rw [undone]
    exact Memory.statusWrites_undoStatus written

theorem statusWrites_createBinding (suffix : String) (binding : ApiBinding) :
    (createBinding path save suffix partition binding s d).1.2.statusWrites = s.statusWrites := by
  rcases createBinding_ends path save s d partition suffix binding with
    ⟨d', ended⟩ | ⟨created, s', e, d', done, undone⟩
  · rw [ended]
    exact (Memory.Operation.mutate (.createBinding suffix partition binding)).statusWrites_apply s
  · rw [undone]
    exact (Memory.asBefore_undoBinding done).statusWrites

variable {s}

theorem reachable_updateEntryStatus (reachable : s.Reachable) (entry : CatalogEntry) :
    (updateEntryStatus path save partition entry s d).1.2.Reachable := by
  have wrote : (s.updateEntryStatus partition entry).2.Reachable :=
    reachable.operated (.mutate (.updateEntryStatus partition entry))
  rcases updateEntryStatus_ends path save s d partition entry with
    ⟨e, absent⟩ | ⟨d', ended⟩ | ⟨updated, s', previous, e, d', written, undone⟩
  · rw [absent]
    exact reachable
  · rw [ended]
    exact wrote
  · rw [undone]
    rw [written] at wrote
    exact wrote.statusUndone ..

theorem reachable_createBinding (reachable : s.Reachable) (suffix : String)
    (binding : ApiBinding) :
    (createBinding path save suffix partition binding s d).1.2.Reachable := by
  have bound : (s.createBinding suffix partition binding).2.Reachable :=
    reachable.operated (.mutate (.createBinding suffix partition binding))
  rcases createBinding_ends path save s d partition suffix binding with
    ⟨d', ended⟩ | ⟨created, s', e, d', done, undone⟩
  · rw [ended]
    exact bound
  · rw [undone]
    rw [done] at bound
    exact bound.bindingUndone ..

end Steps

section Runs

/-- What happens to a store with a state file: a request to it, or an operation on the store in
memory that is behind it. -/
inductive Incident where
  | request (turn : Turn)
  | operation (op : Memory.Operation)

namespace Incident

def run (path : String) : Incident → Memory × Disk → Memory × Disk
  | request turn, now => turn.run path now
  | operation op, now => (op.apply now.1, now.2)

/-- The status writes that end well with it, one or none. -/
def wrote (path : String) : Incident → Memory × Disk → Nat
  | request ⟨.call suffix (.updateEntryStatus partition entry), refusal⟩, (s, disk) =>
    tally (answer path Disk.save (pure suffix) (.updateEntryStatus partition entry) s
      { disk with refusal }).1.1
  | request _, _ => 0
  | operation op, (s, _) => op.wrote s

theorem statusWrites_run (incident : Incident) (now : Memory × Disk) :
    (incident.run path now).1.statusWrites = now.1.statusWrites + incident.wrote path now := by
  obtain ⟨s, disk⟩ := now
  cases incident with
  | operation op => exact op.statusWrites_apply s
  | request turn =>
    obtain ⟨request, refusal⟩ := turn
    cases request with
    | persist =>
      simp only [run, Turn.run, persist_apply]
      split <;> rfl
    | call suffix call =>
      cases call with
      | getEntry | listEntries | getExport | listBindings | getBinding => rfl
      | updateEntryStatus partition entry =>
        exact statusWrites_updateEntryStatus path Disk.save s { disk with refusal } partition entry
      | createBinding partition binding =>
        simp only [run, Turn.run, answer]
        split
        · exact statusWrites_createBinding ..
        · exact statusWrites_createBinding ..

theorem reachable_run (incident : Incident) {now : Memory × Disk} (reachable : now.1.Reachable) :
    (incident.run path now).1.Reachable := by
  obtain ⟨s, disk⟩ := now
  cases incident with
  | operation op => exact reachable.operated op
  | request turn =>
    obtain ⟨request, refusal⟩ := turn
    cases request with
    | persist =>
      simp only [run, Turn.run, persist_apply]
      split <;> exact reachable
    | call suffix call =>
      cases call with
      | getEntry | listEntries | getExport | listBindings | getBinding => exact reachable
      | updateEntryStatus partition entry =>
        exact reachable_updateEntryStatus path Disk.save _ partition reachable entry
      | createBinding partition binding =>
        simp only [run, Turn.run, answer]
        split
        · exact reachable_createBinding path Disk.save _ partition reachable suffix binding
        · exact reachable_createBinding path Disk.save _ partition reachable "" binding

end Incident

/-- The store and its file after all of that. -/
def after (path : String) (incidents : List Incident) (now : Memory × Disk) : Memory × Disk :=
  incidents.foldl (fun now incident => incident.run path now) now

/-- The status writes among it that end well. -/
def writes (path : String) : List Incident → Memory × Disk → Nat
  | [], _ => 0
  | incident :: rest, now => incident.wrote path now + writes path rest (incident.run path now)

theorem statusWrites_after (incidents : List Incident) (now : Memory × Disk) :
    (after path incidents now).1.statusWrites =
      now.1.statusWrites + writes path incidents now := by
  induction incidents generalizing now with
  | nil => rfl
  | cons incident rest ih =>
    calc (after path rest (incident.run path now)).1.statusWrites
      _ = (incident.run path now).1.statusWrites + writes path rest (incident.run path now) :=
        ih _
      _ = now.1.statusWrites + writes path (incident :: rest) now := by
        rw [incident.statusWrites_run, Nat.add_assoc, writes]

theorem reachable_after (incidents : List Incident) {now : Memory × Disk}
    (reachable : now.1.Reachable) : (after path incidents now).1.Reachable := by
  induction incidents generalizing now with
  | nil => exact reachable
  | cons incident rest ih => exact ih (incident.reachable_run path reachable)

/-- In a store that comes up: a change that is made in memory and then cannot be written to the file
fails with that error and leaves all objects with their versions, the faults and the counter of
status writes as they were. When the file can be written, the same status write succeeds, and gives
the entry that it would have given at first, but for the version. All that happens to a store that
was opened leads to such a store, and then the counter is the number of status writes that have
ended well, whichever writes of the file have failed. -/
theorem failed_write_undone (path : String) :
    (∀ {s : Memory}, s.Reachable → ∀ {δ : Type} (save : Content → StateM δ (Except FileFault Unit))
        {d d' : δ} {s' : Memory} {fault : FileFault},
      save (.document (encode s'.snapshot)) d = (.error fault, d') →
      (∀ {partition entry updated},
        s.updateEntryStatus partition entry = (.ok updated, s') → ∃ undone,
        updateEntryStatus path save partition entry s d =
          ((.error (.io path fault.message), undone), d') ∧ undone.AsBefore s ∧
        ∀ d, (∀ content, (save content d).1 = .ok ()) → ∃ again s₂ d₂,
          updateEntryStatus path save partition entry undone d = ((.ok again, s₂), d₂) ∧
          again = Stored.withVersion updated again.metadata.version ∧
          s₂.getEntry partition entry.name = .ok again ∧
          s₂.statusWrites = s'.statusWrites) ∧
      ∀ {suffix partition binding created},
        s.createBinding suffix partition binding = (.ok created, s') → ∃ undone,
        createBinding path save suffix partition binding s d =
          ((.error (.io path fault.message), undone), d') ∧ undone.AsBefore s) ∧
    ∀ {disk s}, opened path disk.content = .ok s → ∀ incidents,
      (after path incidents (s, disk)).1.Reachable ∧
      (after path incidents (s, disk)).1.statusWrites = writes path incidents (s, disk) := by
  constructor
  · intro s reachable δ save d d' s' fault failed
    constructor
    · intro partition entry updated written
      obtain ⟨undone, answered, before⟩ :=
        updateEntryStatus_undone path save reachable.keyed written failed
      exact ⟨undone, answered, before,
        fun d writable => updateEntryStatus_retried path save before written writable⟩
    · intro suffix partition binding created done
      exact createBinding_undone path save done failed
  · intro disk s opens incidents
    obtain ⟨snapshot, rfl⟩ := exists_snapshot_of_opened opens
    refine ⟨reachable_after path incidents (.opened snapshot), ?_⟩
    exact (statusWrites_after path incidents _).trans (Nat.zero_add _)

namespace Sample

/-- The same file while it cannot be written. -/
def broken : Disk := { disk with refusal := some .directory }

/-- What was stored last under the name. -/
def latter : CatalogEntry :=
  Stored.withVersion { Memory.Sample.tools with description := "the latter" } 2

theorem found : (Memory.ofSnapshot snapshot).entries.get? (Stored.key .root written) =
    some latter := by
  decide +kernel

end Sample

/-- The status write fails, and succeeds with the next file; of the two in the run one counts. -/
theorem failed_write_undone_sample :
    (∃ undone again s₂ d₂,
      updateEntryStatus "state" Disk.save .root Sample.written (.ofSnapshot Sample.snapshot)
        Sample.broken = ((.error (.io "state" FileFault.directory.message), undone),
          Sample.broken) ∧
      undone.AsBefore (.ofSnapshot Sample.snapshot) ∧
      updateEntryStatus "state" Disk.save .root Sample.written undone Sample.disk =
        ((.ok again, s₂), d₂) ∧
      again.status = Sample.written.status) ∧
    (after "state" (Sample.turns.map .request)
      (.ofSnapshot Sample.snapshot, Sample.disk)).1.statusWrites = 1 := by
  obtain ⟨undoes, counts⟩ := failed_write_undone "state"
  constructor
  · obtain ⟨status, -⟩ := undoes (.opened Sample.snapshot) Disk.save
      (show Disk.save _ Sample.broken = (.error .directory, Sample.broken) from rfl)
    obtain ⟨undone, failed, before, retry⟩ :=
      status (Memory.updateEntryStatus_of_current Sample.found rfl)
    obtain ⟨again, s₂, d₂, succeeds, same, -⟩ := retry Sample.disk fun _ => rfl
    exact ⟨undone, again, s₂, d₂, failed, before, succeeds, same ▸ rfl⟩
  · have opens : opened "state" Sample.disk.content = .ok (.ofSnapshot Sample.snapshot) :=
      opened_document "state" Sample.snapshot
    rw [(counts opens _).2]
    decide +kernel

end Runs
end FileStore
end ApiCatalog
