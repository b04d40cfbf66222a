import ApiCatalog.Proofs.Reconcile.Guard
import ApiCatalog.Proofs.Reconcile.Stage

/-!
# Passes that are cancelled

Nothing is left of a step that the store has not begun to serve, and what it does for a step it does
in one go. Main statement: a pass whose signal comes up is given up with the store as it was before,
or it does all that it does without a signal (`cancellation_all_or_nothing`).
-/
namespace ApiCatalog
namespace Memory

open Pass (Onset Underway)

/-- The store does the steps. A step that is given up while it waits has no effect. -/
def service : Pass.Service Memory := ⟨perform, fun _ s => s⟩

theorem serve_service : service.serve = perform := rfl

/-- A pass whose signal comes up at some time, with its result, the store after it and the steps
that were started. -/
def guardedPass (s : Memory) (onset : Onset) (policy : SchemaPolicy) (now : Instant)
    (request : Request) : Except PassError Outcome × Underway Memory :=
  service.guardedPass onset (reconcile policy now request) s

section Steps

variable (s : Memory) (policy : SchemaPolicy) (now : Instant) (request : Request)
variable (entry : CatalogEntry)

/-- The commit of a pass, if it makes one. -/
def commitSteps (status : EntryStatus) : List Pass.Step :=
  if status = entry.status then [] else [.commit request.partition { entry with status }]

theorem stepsOf_commit (d : Derivation) :
    service.stepsOf (Pass.commit request entry d) s = commitSteps request entry d.status := by
  unfold Pass.commit commitSteps
  split
  · rfl
  · rw [service.stepsOf_ask, serve_service, perform_commit]
    rcases s.updateEntryStatus request.partition { entry with status := d.status } with
      ⟨stored | e, s'⟩ <;> rfl

theorem writesLast_commit (d : Derivation) :
    service.WritesLast (Pass.commit request entry d) s := by
  unfold Pass.commit
  split
  · exact trivial
  · rw [service.writesLast_ask, serve_service, perform_commit]
    refine .inl ?_
    rcases s.updateEntryStatus request.partition { entry with status := d.status } with
      ⟨stored | e, s'⟩
    · exact ⟨_, rfl⟩
    · exact ⟨_, rfl⟩

/-- A pass that has fetched the entry looks its references up and then comes to its commit. -/
theorem stepsOf_resolving (known : List Contribution) (references : List ExportReference) :
    service.stepsOf (resolving policy now request entry known references) s =
      references.map (.lookup · request.nameSpace) ++
        commitSteps request entry (Derivation.ofContributions policy
          (known ++ references.map (s.contribution request.nameSpace))
          entry.status.conditions now).status := by
  induction references generalizing known with
  | nil =>
    rw [resolving_nil, stepsOf_commit, List.map_nil, List.map_nil, List.append_nil]
    rfl
  | cons reference rest ih =>
    rw [resolving_cons, service.stepsOf_ask, serve_service, perform_lookup, ih, List.append_assoc]
    rfl

theorem writesLast_resolving (known : List Contribution) (references : List ExportReference) :
    service.WritesLast (resolving policy now request entry known references) s := by
  induction references generalizing known with
  | nil =>
    rw [resolving_nil]
    exact writesLast_commit s request entry _
  | cons reference rest ih =>
    rw [resolving_cons, service.writesLast_ask, serve_service, perform_lookup]
    exact .inr ⟨rfl, ih _⟩

/-- The guarded steps of a pass: the fetch, the look-up of each reference, and the commit if the
status is another one. -/
def passSteps : List Pass.Step :=
  .fetch request.partition request.name ::
    match s.getEntry request.partition request.name with
    | .error _ => []
    | .ok entry => entry.exports.map (.lookup · request.nameSpace) ++
        commitSteps request entry (s.meaning request.nameSpace now entry)

theorem stepsOf_reconcile :
    service.stepsOf (reconcile policy now request) s = s.passSteps now request := by
  rw [reconcile, service.stepsOf_ask, serve_service, perform_fetch, passSteps]
  cases found : s.getEntry request.partition request.name with
  | error e => rfl
  | ok entry =>
    dsimp only
    rw [derive_commit_eq, stepsOf_resolving, List.nil_append]
    have status := (derivation_eq s policy now request.nameSpace entry).1
    rw [derivation] at status
    rw [status]

theorem writesLast_reconcile : service.WritesLast (reconcile policy now request) s := by
  rw [reconcile, service.writesLast_ask, serve_service, perform_fetch]
  cases found : s.getEntry request.partition request.name with
  | error e => exact .inl ⟨_, rfl⟩
  | ok entry =>
    refine .inr ⟨rfl, ?_⟩
    dsimp only
    rw [derive_commit_eq]
    exact writesLast_resolving s policy now request entry [] entry.exports

end Steps

/-- All that differs is the status and the version of the entry of the request. -/
structure OnlyStatus (request : Request) (s s' : Memory) : Prop where
  exports : s'.exports = s.exports
  bindings : s'.bindings = s.bindings
  faults : s'.faults = s.faults
  others : ∀ key, key ≠ .cluster request.partition request.name →
    s'.entries.get? key = s.entries.get? key
  own : s'.getEntry request.partition request.name = s.getEntry request.partition request.name ∨
    ∃ entry status version, s.getEntry request.partition request.name = .ok entry ∧
      s'.getEntry request.partition request.name =
        .ok (Stored.withVersion { entry with status } version)

theorem OnlyStatus.refl (request : Request) (s : Memory) : OnlyStatus request s s :=
  ⟨rfl, rfl, rfl, fun _ _ => rfl, .inl rfl⟩

theorem onlyStatus_pass {s : Memory} (keyed : s.Keyed) (policy : SchemaPolicy) (now : Instant)
    (request : Request) : OnlyStatus request s (s.pass policy now request).2 := by
  cases found : s.getEntry request.partition request.name with
  | error e =>
    obtain ⟨-, rfl⟩ := getEntry_eq_error found
    rw [pass_of_missing found]
    exact .refl request s
  | ok entry =>
    obtain ⟨name, -⟩ := keyed.getEntry_eq_ok_iff.1 found
    have own : Stored.key request.partition entry = .cluster request.partition request.name :=
      name ▸ rfl
    rw [pass_of_stored keyed found]
    split
    · exact .refl request s
    · have written := getEntry_withStatus s entry (s.meaning request.nameSpace now entry)
        request.partition
      refine ⟨rfl, rfl, rfl, fun key other => ?_, .inr ⟨entry, _, _, found, name ▸ written⟩⟩
      exact Table.get?_insert_ne (own ▸ other)

section Passes

variable {s : Memory} {policy : SchemaPolicy} {now : Instant} {request : Request} {onset : Onset}

theorem guardedPass_of_inTime (inTime : onset.InTime (s.passSteps now request).length) :
    s.guardedPass onset policy now request =
      (.error .cancelled, ⟨s, (s.passSteps now request).take onset.started⟩) := by
  rw [← stepsOf_reconcile s policy] at inTime ⊢
  obtain ⟨s', given, kept⟩ := service.pass_of_inTime inTime
  obtain rfl := kept (fun _ _ => rfl) (writesLast_reconcile s policy now request)
  exact given

theorem guardedPass_of_late (late : ¬onset.InTime (s.passSteps now request).length) :
    s.guardedPass onset policy now request =
      ((s.pass policy now request).1,
        ⟨(s.pass policy now request).2, s.passSteps now request⟩) := by
  rw [← stepsOf_reconcile s policy] at late ⊢
  exact service.pass_of_late late

end Passes

/-- A pass whose signal comes up in time is cancelled, starts no further step and leaves the store
as it is. A pass whose signal comes up later or never is like one without a signal. In neither case
more changes than status and version of the entry. -/
theorem cancellation_all_or_nothing {s : Memory} (reachable : s.Reachable) (policy : SchemaPolicy)
    (now : Instant) (request : Request) (onset : Onset) :
    let steps := s.passSteps now request
    let ended := s.guardedPass onset policy now request
    (onset.InTime steps.length →
        ended = (.error .cancelled, ⟨s, steps.take onset.started⟩)) ∧
      (¬onset.InTime steps.length →
        ended = ((s.pass policy now request).1, ⟨(s.pass policy now request).2, steps⟩)) ∧
      OnlyStatus request s ended.2.state := by
  intro steps ended
  refine ⟨guardedPass_of_inTime, guardedPass_of_late, ?_⟩
  by_cases inTime : onset.InTime steps.length
  · have cancelled : ended = _ := guardedPass_of_inTime inTime
    rw [cancelled]
    exact .refl request s
  · have whole : ended = _ := guardedPass_of_late inTime
    rw [whole]
    exact onlyStatus_pass reachable.keyed policy now request

namespace Sample

theorem four_steps : (store.passSteps .epoch request).length = 4 := by rfl

end Sample

/-- The signal comes up while the third of four steps is served. The commit is not started. -/
theorem cancellation_all_or_nothing_sample :
    Sample.store.guardedPass (.serving 2) .drop .epoch Sample.request =
      (.error .cancelled, ⟨Sample.store, [.fetch .root "tools",
        .lookup ⟨"root", "widgets"⟩ none, .lookup ⟨"root", "gadgets"⟩ none]⟩) := by
  have inTime : (Onset.serving 2).InTime (Sample.store.passSteps .epoch Sample.request).length :=
    Sample.four_steps ▸ (by decide : 2 + 1 < 4)
  have ended :=
    cancellation_all_or_nothing Sample.reachable .drop .epoch Sample.request (.serving 2)
  rw [ended.1 inTime]
  rfl

/-- The signal comes up before the last step, the commit, has ended. But the store serves it in one
go, and the pass ends with its write. -/
theorem served_commit_not_cancelled :
    let ended := Sample.store.guardedPass (.serving 3) .drop .epoch Sample.request
    (Onset.serving 3).PrecedesEnd (Sample.store.passSteps .epoch Sample.request).length ∧
      ended.1 = .ok (.statusUpdated 3 ["root/gadgets"]) ∧
      ended.2.state.statusWrites = Sample.store.statusWrites + 1 := by
  intro ended
  have late : ¬(Onset.serving 3).InTime (Sample.store.passSteps .epoch Sample.request).length :=
    Sample.four_steps ▸ (by decide : ¬3 + 1 < 4)
  have whole : ended = _ := guardedPass_of_late late
  rw [whole]
  refine ⟨Sample.four_steps ▸ (by decide : 3 < 4), ?_, ?_⟩
  · rfl
  · decide +kernel

end Memory
end ApiCatalog
