import ApiCatalog.Proofs.Store.Operation

/-!
# Conditional status writes

A status write has three ends: there is no such entry, the entry has another version, or the write
takes place. Each has one lemma; what becomes of the store is `updateEntryStatus_store`.
-/
namespace ApiCatalog
namespace Memory

/-- A stored entry with another status, under the next version. -/
def restamped (s : Memory) (stored : CatalogEntry) (status : EntryStatus) : CatalogEntry :=
  Stored.withVersion { stored with status } s.lastVersion.next

/-- The store in which the entry under a key has another status. -/
def withStatus (s : Memory) (key : ObjectKey) (stored : CatalogEntry) (status : EntryStatus) :
    Memory :=
  { s.bump with
    entries := s.entries.insert key (s.restamped stored status)
    statusWrites := s.statusWrites + 1 }.publish .entryChanged key

section Fields

variable (s : Memory) (key : ObjectKey) (stored : CatalogEntry) (status : EntryStatus)

@[simp] theorem withStatus_statusWrites :
    (s.withStatus key stored status).statusWrites = s.statusWrites + 1 := rfl

@[simp] theorem withStatus_published :
    (s.withStatus key stored status).published = s.published ++ [⟨.entryChanged, key⟩] := rfl

theorem getEntry_withStatus (partition : Partition) :
    (s.withStatus (Stored.key partition stored) stored status).getEntry partition stored.name =
      .ok (s.restamped stored status) :=
  getEntry_eq_ok.2 (Table.get?_insert_self s.entries (Stored.key partition stored) _)

theorem Keyed.withStatus {s : Memory} (keyed : s.Keyed) (partition : Partition) :
    (s.withStatus (Stored.key partition stored) stored status).Keyed :=
  ⟨keyed.entries.insert partition rfl, keyed.exports, keyed.bindings⟩

end Fields

variable {s : Memory} {partition : Partition} {entry stored : CatalogEntry}

theorem updateEntryStatus_of_missing
    (missing : s.entries.get? (Stored.key partition entry) = none) :
    s.updateEntryStatus partition entry =
      (.error (.notFound entryKind (Stored.key partition entry).display), s.bump) := by
  unfold updateEntryStatus
  dsimp only [bump]
  rw [missing]

theorem updateEntryStatus_of_stale
    (found : s.entries.get? (Stored.key partition entry) = some stored)
    (stale : entry.metadata.version ≠ stored.metadata.version) :
    s.updateEntryStatus partition entry =
      (.error (.conflict entryKind (Stored.key partition entry).display entry.metadata.version
        stored.metadata.version), s.bump) := by
  unfold updateEntryStatus
  dsimp only [bump]
  rw [found]
  exact if_neg stale

theorem updateEntryStatus_of_current
    (found : s.entries.get? (Stored.key partition entry) = some stored)
    (current : entry.metadata.version = stored.metadata.version) :
    s.updateEntryStatus partition entry =
      (.ok (s.restamped stored entry.status),
        s.withStatus (Stored.key partition entry) stored entry.status) := by
  unfold updateEntryStatus
  dsimp only [bump]
  rw [found]
  exact if_pos current

/-- A status written over the stored entry itself. -/
theorem updateEntryStatus_self {status : EntryStatus}
    (found : s.entries.get? (Stored.key partition entry) = some entry) :
    s.updateEntryStatus partition { entry with status } =
      (.ok (s.restamped entry status), s.withStatus (Stored.key partition entry) entry status) :=
  updateEntryStatus_of_current found rfl

/-- Only over the version that the entry has a status is written. -/
theorem updateEntryStatus_done {s' : Memory} {updated : CatalogEntry}
    (done : s.updateEntryStatus partition entry = (.ok updated, s')) :
    ∃ stored, s.entries.get? (Stored.key partition entry) = some stored ∧
      entry.metadata.version = stored.metadata.version ∧
      s' = s.withStatus (Stored.key partition entry) stored entry.status := by
  cases found : s.entries.get? (Stored.key partition entry) with
  | none =>
    rw [updateEntryStatus_of_missing found] at done
    cases done
  | some stored =>
    by_cases current : entry.metadata.version = stored.metadata.version
    · rw [updateEntryStatus_of_current found current] at done
      cases done
      exact ⟨stored, rfl, current, rfl⟩
    · rw [updateEntryStatus_of_stale found current] at done
      cases done

/-- A write that fails uses up a version and does nothing else. -/
theorem updateEntryStatus_store (s : Memory) (partition : Partition) (entry : CatalogEntry) :
    (s.updateEntryStatus partition entry).2 = s.bump ∨
      ∃ stored, s.entries.get? (Stored.key partition entry) = some stored ∧
        (s.updateEntryStatus partition entry).2 =
          s.withStatus (Stored.key partition entry) stored entry.status := by
  cases found : s.entries.get? (Stored.key partition entry) with
  | none =>
    rw [updateEntryStatus_of_missing found]
    exact .inl rfl
  | some stored =>
    by_cases current : entry.metadata.version = stored.metadata.version
    · rw [updateEntryStatus_of_current found current]
      exact .inr ⟨stored, rfl, rfl⟩
    · rw [updateEntryStatus_of_stale found current]
      exact .inl rfl

end Memory
end ApiCatalog
