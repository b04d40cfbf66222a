import ApiCatalog.Proofs.Program
import ApiCatalog.Proofs.Store.StatusWrite
import ApiCatalog.Reconcile.Pass

/-!
# A pass that is alone with the store

While nobody else uses the store and nothing cancels the pass, its steps are answered by one store
after the other. Main statement: a pass over an entry that is there either leaves the store as it is
or writes the derived status, and never fails (`pass_of_found`).
-/
namespace ApiCatalog
namespace Memory

/-- Answers a step of a pass. No step makes up a name. -/
def perform (step : Pass.Step) : StateM Memory step.Answer :=
  (step.calls lookup).run (answer (pure ""))

/-- One pass, which nothing cancels and nobody comes in between. -/
def pass (policy : SchemaPolicy) (now : Instant) (request : Request) :
    StateM Memory (Except PassError Outcome) :=
  (reconcile policy now request).run perform

/-- What a reference resolves to in the store. -/
def resolution (s : Memory) (nameSpace : Option String) (reference : ExportReference) :
    Resolution :=
  match Partition.ofString reference.path with
  | .error e => .failed e.message
  | .ok partition => .ofAnswer (s.getExport ⟨partition, nameSpace, reference.exportName⟩)

def contribution (s : Memory) (nameSpace : Option String) (reference : ExportReference) :
    Contribution :=
  (s.resolution nameSpace reference).contribution reference

/-- What a pass derives for an entry that it has fetched. -/
def derivation (s : Memory) (policy : SchemaPolicy) (now : Instant) (nameSpace : Option String)
    (entry : CatalogEntry) : Derivation :=
  .ofContributions policy (entry.exports.map (s.contribution nameSpace)) entry.status.conditions now

section Steps

variable (s : Memory)

@[simp] theorem perform_fetch (partition : Partition) (name : String) :
    perform (.fetch partition name) s = (s.getEntry partition name, s) := rfl

@[simp] theorem perform_lookup (reference : ExportReference) (nameSpace : Option String) :
    perform (.lookup reference nameSpace) s = (s.resolution nameSpace reference, s) := by
  change (lookup reference nameSpace).run (answer (pure "")) s = _
  unfold lookup resolution
  cases Partition.ofString reference.path with
  | error e => rfl
  | ok partition => rfl

@[simp] theorem perform_commit (partition : Partition) (entry : CatalogEntry) :
    perform (.commit partition entry) s = s.updateEntryStatus partition entry := rfl

theorem perform_announces (step : Pass.Step) : ∃ news, Announces s (perform step s).2 news := by
  cases step with
  | fetch partition name => exact ⟨[], .of_eq (List.append_nil _).symm rfl rfl rfl⟩
  | lookup reference nameSpace =>
    rw [perform_lookup]
    exact ⟨[], .of_eq (List.append_nil _).symm rfl rfl rfl⟩
  | commit partition entry => exact announces_updateEntryStatus s partition entry

/-- All that a step can do to the store. -/
theorem perform_store (step : Pass.Step) :
    (perform step s).2 = s ∨ (perform step s).2 = s.bump ∨
      ∃ key stored status, key.nameSpace = none ∧ s.entries.get? key = some stored ∧
        (perform step s).2 = s.withStatus key stored status := by
  cases step with
  | fetch partition name => exact .inl rfl
  | lookup reference nameSpace =>
    rw [perform_lookup]
    exact .inl rfl
  | commit partition entry =>
    rcases updateEntryStatus_store s partition entry with refused | ⟨stored, found, written⟩
    · exact .inr (.inl refused)
    · exact .inr (.inr ⟨_, stored, entry.status, rfl, found, written⟩)

variable {s} in
theorem Keyed.perform (keyed : s.Keyed) (step : Pass.Step) : (perform step s).2.Keyed := by
  cases step with
  | fetch partition name => exact keyed
  | lookup reference nameSpace =>
    rw [perform_lookup]
    exact keyed
  | commit partition entry => exact keyed.updateEntryStatus partition entry

theorem run_resolve (nameSpace : Option String) (references : List ExportReference) :
    (Pass.resolve nameSpace references).run perform s =
      (references.map (s.contribution nameSpace), s) := by
  induction references with
  | nil => rfl
  | cons reference rest ih =>
    rw [Pass.resolve, Program.run_ask_apply, perform_lookup, Program.run_bind_apply, ih]
    rfl

theorem run_derive (policy : SchemaPolicy) (now : Instant) (nameSpace : Option String)
    (entry : CatalogEntry) :
    (Pass.derive entry nameSpace policy now).run perform s =
      (s.derivation policy now nameSpace entry, s) := by
  rw [Pass.derive, Program.run_bind_apply, run_resolve]
  rfl

end Steps

section Passes

variable {s : Memory} {policy : SchemaPolicy} {now : Instant} {request : Request}

theorem pass_of_missing {key : String}
    (missing : s.getEntry request.partition request.name = .error (.notFound entryKind key)) :
    s.pass policy now request = (.ok .entryGone, s) := by
  rw [pass, reconcile, Program.run_ask_apply, perform_fetch, missing]
  rfl

/-- The end of a pass: the derived status is the stored one, or it is written. -/
theorem run_commit {entry : CatalogEntry} (d : Derivation)
    (stored : s.entries.get? (Stored.key request.partition entry) = some entry) :
    (Pass.commit request entry d).run perform s =
      if d.status = entry.status then (.ok (.unchanged d.invalidReferences), s)
      else (.ok (.statusUpdated s.lastVersion.next d.invalidReferences),
        s.withStatus (Stored.key request.partition entry) entry d.status) := by
  unfold Pass.commit
  split
  · rfl
  · rw [Program.run_ask_apply, perform_commit, updateEntryStatus_self stored]
    rfl

/-- A pass that finds the entry comes down to its commit. -/
theorem pass_eq_commit {entry : CatalogEntry}
    (found : s.getEntry request.partition request.name = .ok entry) :
    s.pass policy now request =
      (Pass.commit request entry (s.derivation policy now request.nameSpace entry)).run
        perform s := by
  rw [pass, reconcile, Program.run_ask_apply, perform_fetch, found]
  simp only [Program.run_bind_apply, run_derive]

/-- A pass over an entry that is there. The write cannot fail, since the entry still has the version
with which it was fetched. -/
theorem pass_of_found (keyed : s.Keyed) {entry : CatalogEntry}
    (found : s.getEntry request.partition request.name = .ok entry) :
    s.pass policy now request =
      let d := s.derivation policy now request.nameSpace entry
      if d.status = entry.status then (.ok (.unchanged d.invalidReferences), s)
      else (.ok (.statusUpdated s.lastVersion.next d.invalidReferences),
        s.withStatus (Stored.key request.partition entry) entry d.status) := by
  have stored := (keyed.getEntry_eq_ok_iff.1 found).2
  rw [pass_eq_commit found, run_commit _ stored]

/-- A pass leaves the store as it is, or it writes one status. -/
theorem pass_store (keyed : s.Keyed) (policy : SchemaPolicy) (now : Instant) (request : Request) :
    (s.pass policy now request).2 = s ∨ ∃ entry status, (s.pass policy now request).2 =
      s.withStatus (Stored.key request.partition entry) entry status := by
  cases found : s.getEntry request.partition request.name with
  | ok entry =>
    rw [pass_of_found keyed found]
    dsimp only
    split
    · exact .inl rfl
    · exact .inr ⟨entry, _, rfl⟩
  | error e =>
    obtain ⟨-, rfl⟩ := getEntry_eq_error found
    rw [pass_of_missing found]
    exact .inl rfl

theorem keyed_pass (keyed : s.Keyed) (policy : SchemaPolicy) (now : Instant) (request : Request) :
    (s.pass policy now request).2.Keyed := by
  rcases pass_store keyed policy now request with same | ⟨entry, status, written⟩
  · rw [same]
    exact keyed
  · rw [written]
    exact keyed.withStatus entry status request.partition

end Passes

namespace Sample

def request : Request := ⟨.root, none, "tools"⟩

theorem found : store.getEntry request.partition request.name = .ok stored := getEntry_store

end Sample
end Memory
end ApiCatalog
