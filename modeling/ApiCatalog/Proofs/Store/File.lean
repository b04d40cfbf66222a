import ApiCatalog.Proofs.Store.History
import ApiCatalog.Store.File

/-!
# Histories of a store with a state file

The functions of the file store are spelled out for the case that saving has an effect on some
state of its own. Main statement: whatever becomes of the file, a call takes the store only through
states of a history (`History.answered`).
-/
namespace ApiCatalog
namespace FileStore

variable {δ : Type} (path : String) (save : Content → StateM δ (Except FileFault Unit))
variable (s : Memory) (d : δ)

section Sequence

variable {α β : Type}

theorem bind_apply (x : StateT Memory (StateM δ) α) (f : α → StateT Memory (StateM δ) β) :
    (x >>= f) s d = f (x s d).1.1 (x s d).1.2 (x s d).2 := rfl

theorem pure_apply (a : α) : (pure a : StateT Memory (StateM δ) α) s d = ((a, s), d) := rfl

theorem get_apply : (get : StateT Memory (StateM δ) Memory) s d = ((s, s), d) := rfl

theorem lift_apply (x : StateM δ α) :
    (liftM x : StateT Memory (StateM δ) α) s d = (((x d).1, s), (x d).2) := rfl

theorem modifyGet_apply (f : Memory → α × Memory) :
    (modifyGet f : StateT Memory (StateM δ) α) s d = (f s, d) := rfl

end Sequence

theorem persist_apply : persist path save s d =
    match save (.document (encode s.snapshot)) d with
    | (.ok (), d) => ((.ok (), s), d)
    | (.error fault, d) => ((.error (.io path fault.message), s), d) := by
  rcases saved : save (.document (encode s.snapshot)) d with ⟨outcome, d'⟩
  cases outcome with
  | ok done => simp only [persist, bind_apply, get_apply, lift_apply, saved, pure_apply]
  | error fault => simp only [persist, bind_apply, get_apply, lift_apply, saved, pure_apply]

theorem updateEntryStatus_apply (partition : Partition) (entry : CatalogEntry) :
    updateEntryStatus path save partition entry s d =
      match s.getEntry partition entry.name with
      | .error e => ((.error e, s), d)
      | .ok previous =>
        match s.updateEntryStatus partition entry with
        | (.error e, s') => ((.error e, s'), d)
        | (.ok updated, s') =>
          match save (.document (encode s'.snapshot)) d with
          | (.ok (), d) => ((.ok updated, s'), d)
          | (.error fault, d) =>
            ((.error (.io path fault.message), s'.undoStatus partition previous), d) := by
  unfold updateEntryStatus
  cases read : s.getEntry partition entry.name with
  | error e => simp only [bind_apply, get_apply, read, pure_apply]
  | ok previous =>
    rcases written : s.updateEntryStatus partition entry with ⟨outcome, s'⟩
    cases outcome with
    | error e => simp only [bind_apply, get_apply, read, modifyGet_apply, written, pure_apply]
    | ok updated =>
      simp only [bind_apply, get_apply, read, modifyGet_apply, written, persist_apply]
      rcases saved : save (.document (encode s'.snapshot)) d with ⟨outcome, d'⟩
      cases outcome with
      | ok done => rfl
      | error fault => rfl

theorem createBinding_apply (suffix : String) (partition : Partition) (binding : ApiBinding) :
    createBinding path save suffix partition binding s d =
      match s.createBinding suffix partition binding with
      | (.error e, s') => ((.error e, s'), d)
      | (.ok created, s') =>
        match save (.document (encode s'.snapshot)) d with
        | (.ok (), d) => ((.ok created, s'), d)
        | (.error fault, d) =>
          ((.error (.io path fault.message),
            s'.undoBinding partition created.metadata.name), d) := by
  unfold createBinding
  rcases written : s.createBinding suffix partition binding with ⟨outcome, s'⟩
  cases outcome with
  | error e => simp only [bind_apply, modifyGet_apply, written, pure_apply]
  | ok created =>
    simp only [bind_apply, modifyGet_apply, written, persist_apply]
    rcases saved : save (.document (encode s'.snapshot)) d with ⟨outcome, d'⟩
    cases outcome with
    | ok done => rfl
    | error fault => rfl

/-- A status write finds no entry, or ends as it does in memory, or is taken back. -/
theorem updateEntryStatus_ends (partition : Partition) (entry : CatalogEntry) :
    (∃ e, updateEntryStatus path save partition entry s d = ((.error e, s), d)) ∨
    (∃ d', updateEntryStatus path save partition entry s d =
      (s.updateEntryStatus partition entry, d')) ∨
    ∃ updated s' previous e d', s.updateEntryStatus partition entry = (.ok updated, s') ∧
      updateEntryStatus path save partition entry s d =
        ((.error e, s'.undoStatus partition previous), d') := by
  rw [updateEntryStatus_apply]
  cases read : s.getEntry partition entry.name with
  | error e => exact .inl ⟨e, rfl⟩
  | ok previous =>
    rcases written : s.updateEntryStatus partition entry with ⟨e | updated, s'⟩
    · exact .inr (.inl ⟨d, rfl⟩)
    · dsimp only
      split
      · exact .inr (.inl ⟨_, rfl⟩)
      · exact .inr (.inr ⟨updated, s', previous, _, _, rfl, rfl⟩)

/-- A creation ends as it does in memory, or is taken back. -/
theorem createBinding_ends (partition : Partition) (suffix : String) (binding : ApiBinding) :
    (∃ d', createBinding path save suffix partition binding s d =
      (s.createBinding suffix partition binding, d')) ∨
    ∃ created s' e d', s.createBinding suffix partition binding = (.ok created, s') ∧
      createBinding path save suffix partition binding s d =
        ((.error e, s'.undoBinding partition created.metadata.name), d') := by
  rw [createBinding_apply]
  rcases done : s.createBinding suffix partition binding with ⟨e | created, s'⟩
  · exact .inl ⟨d, rfl⟩
  · dsimp only
    split
    · exact .inl ⟨_, rfl⟩
    · exact .inr ⟨created, s', _, _, rfl, rfl⟩

theorem Disk.save_of_writable {disk : Disk} (writable : disk.refusal = none) (content : Content) :
    Disk.save content disk = (.ok (), { disk with content := .ok content }) := by
  obtain ⟨before, refusal⟩ := disk
  cases writable
  rfl

/-- A file that can be written does not show in the result of a status write. -/
theorem updateEntryStatus_of_writable (disk : Disk) (writable : disk.refusal = none)
    {partition : Partition} {entry : CatalogEntry} {previous : CatalogEntry}
    (found : s.getEntry partition entry.name = .ok previous) :
    (updateEntryStatus path Disk.save partition entry s disk).1 =
      s.updateEntryStatus partition entry := by
  rw [updateEntryStatus_apply, found]
  rcases s.updateEntryStatus partition entry with ⟨outcome, s'⟩
  cases outcome with
  | error e => rfl
  | ok updated => simp only [Disk.save_of_writable writable]

theorem updateEntryStatus_of_error {partition : Partition} {entry : CatalogEntry} {e : StoreError}
    (missing : s.getEntry partition entry.name = .error e) :
    updateEntryStatus path save partition entry s d = ((.error e, s), d) := by
  rw [updateEntryStatus_apply, missing]

/-- A status write that ends well is made in memory, and then the file is written. -/
theorem updateEntryStatus_saved {partition : Partition} {entry updated : CatalogEntry}
    {s' : Memory} {d' : δ}
    (done : updateEntryStatus path save partition entry s d = ((.ok updated, s'), d')) :
    s.updateEntryStatus partition entry = (.ok updated, s') ∧
      save (.document (encode s'.snapshot)) d = (.ok (), d') := by
  rw [updateEntryStatus_apply] at done
  split at done
  · cases done
  · split at done
    · cases done
    next written =>
      split at done
      next saved =>
        cases done
        exact ⟨written, saved⟩
      · cases done

/-- A status write that is made in memory ends well if the file can be written. -/
theorem updateEntryStatus_of_saves {partition : Partition} {entry updated : CatalogEntry}
    {s' : Memory} (written : s.updateEntryStatus partition entry = (.ok updated, s')) {d' : δ}
    (saved : save (.document (encode s'.snapshot)) d = (.ok (), d')) :
    updateEntryStatus path save partition entry s d = ((.ok updated, s'), d') := by
  obtain ⟨stored, found, -⟩ := Memory.updateEntryStatus_done written
  have read : s.getEntry partition entry.name = .ok stored := Memory.getEntry_eq_ok.2 found
  rw [updateEntryStatus_apply, read]
  dsimp only
  rw [written]
  dsimp only
  rw [saved]

theorem updateEntryStatus_ok {partition : Partition} {entry updated : CatalogEntry}
    (done : (updateEntryStatus path save partition entry s d).1.1 = .ok updated) :
    (s.updateEntryStatus partition entry).1 = .ok updated := by
  rcases ended : updateEntryStatus path save partition entry s d with ⟨⟨reply, s'⟩, d'⟩
  rw [ended] at done
  cases done
  rw [(updateEntryStatus_saved path save s d ended).1]

end FileStore

namespace Memory

variable {s : Memory} {past : List Memory}

/-- From `s` with its past the store has come to `s'`. -/
def CameTo (s : Memory) (past : List Memory) (s' : Memory) : Prop :=
  ∃ past', History s' past' ∧ s :: past <:+ s' :: past'

theorem History.stayed (history : History s past) : CameTo s past s :=
  ⟨past, history, List.suffix_rfl⟩

theorem History.mutated (history : History s past) (m : Mutation) : CameTo s past (m.apply s) :=
  ⟨s :: past, .operated (.mutate m) history, List.suffix_cons _ _⟩

variable {δ : Type} (path : String) (save : Content → StateM δ (Except FileFault Unit)) (d : δ)

theorem History.wroteStatus (history : History s past) (partition : Partition)
    (entry : CatalogEntry) :
    CameTo s past (FileStore.updateEntryStatus path save partition entry s d).1.2 := by
  rw [FileStore.updateEntryStatus_apply]
  cases read : s.getEntry partition entry.name with
  | error e => exact history.stayed
  | ok previous =>
    have step := history.mutated (.updateEntryStatus partition entry)
    simp only [Mutation.apply] at step
    generalize s.updateEntryStatus partition entry = written at step ⊢
    obtain ⟨outcome, s'⟩ := written
    cases outcome with
    | error e => exact step
    | ok updated =>
      dsimp only
      rcases save (.document (encode s'.snapshot)) d with ⟨outcome, d'⟩
      cases outcome with
      | ok done => exact step
      | error fault =>
        obtain ⟨past', history', later⟩ := step
        have before : s ∈ s' :: past' := later.subset List.mem_cons_self
        exact ⟨s' :: past', .statusUndone history' before (.inl ⟨_, read⟩),
          later.trans (List.suffix_cons _ _)⟩

theorem History.wroteBinding (history : History s past) (suffix : String) (partition : Partition)
    (binding : ApiBinding) :
    CameTo s past (FileStore.createBinding path save suffix partition binding s d).1.2 := by
  rw [FileStore.createBinding_apply]
  have step := history.mutated (.createBinding suffix partition binding)
  simp only [Mutation.apply] at step
  generalize s.createBinding suffix partition binding = written at step ⊢
  obtain ⟨outcome, s'⟩ := written
  cases outcome with
  | error e => exact step
  | ok created =>
    dsimp only
    rcases save (.document (encode s'.snapshot)) d with ⟨outcome, d'⟩
    cases outcome with
    | ok done => exact step
    | error fault =>
      obtain ⟨past', history', later⟩ := step
      exact ⟨s' :: past', .bindingUndone _ _ history', later.trans (List.suffix_cons _ _)⟩

/-- Every call to a store with a state file goes on with its history, whether or not the file can
be written. -/
theorem History.answered (history : History s past) (fresh : StateM δ String) (call : Call) :
    CameTo s past (FileStore.answer path save fresh call s d).1.2 := by
  cases call with
  | getEntry partition name => exact history.stayed
  | listEntries partition => exact history.stayed
  | getExport partition nameSpace name => exact history.stayed
  | updateEntryStatus partition entry => exact history.wroteStatus path save d partition entry
  | listBindings partition => exact history.stayed
  | getBinding partition name => exact history.stayed
  | createBinding partition binding =>
    simp only [FileStore.answer]
    split
    · exact history.wroteBinding path save _ _ partition binding
    · exact history.wroteBinding path save _ _ partition binding

end Memory
end ApiCatalog
