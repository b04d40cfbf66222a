import ApiCatalog.Proofs.Reconcile.Meaning

/-!
# When a pass writes

A pass writes exactly if the entry is outdated, which does not depend on the clock. What was written
is not outdated, so that a second pass finds nothing to do (`pass_settles`).
-/
namespace ApiCatalog
namespace Memory

/-- Something that a pass derives for the entry is not what is stored: the resources, the claims, or
the first condition about references, in other than its time. -/
def Outdated (s : Memory) (nameSpace : Option String) (entry : CatalogEntry) : Prop :=
  entry.status.resources ≠
      (s.resolvedExports nameSpace entry).flatMap (fun e => served e.schemas) ∨
    entry.status.claims ≠ (s.resolvedExports nameSpace entry).flatMap (·.claims) ∨
    entry.status.conditions.get? "APIExportValid" = none ∨
    ∃ old, entry.status.conditions.get? "APIExportValid" = some old ∧
      let derived := verdict (s.unresolved nameSpace entry) old.lastTransition
      (old.status ≠ derived.status ∨ old.severity ≠ derived.severity ∨
        old.reason ≠ derived.reason ∨ old.message ≠ derived.message)

theorem verdict_state (unresolved : List String) (now later : Instant) :
    (verdict unresolved now).state = (verdict unresolved later).state := by
  rw [← verdict_withTime unresolved now later]
  rfl

theorem judged_eq_self_iff (prior : List Condition) (unresolved : List String) (now : Instant) :
    judged prior unresolved now = prior ↔
      ∃ old, prior.find? (·.type == "APIExportValid") = some old ∧
        old.state = (verdict unresolved old.lastTransition).state := by
  rw [judged_eq_put, Conditions.put_eq_self_iff, verdict_type]
  refine exists_congr fun old => and_congr_right fun _ => ?_
  rw [verdict_state unresolved now old.lastTransition]

theorem judged_judged (prior : List Condition) (unresolved : List String) (now later : Instant) :
    judged (judged prior unresolved now) unresolved later = judged prior unresolved now := by
  simp only [judged_eq_put]
  exact Conditions.put_put (verdict_state unresolved now later) prior

theorem not_outdated_iff {s : Memory} {nameSpace : Option String} {entry : CatalogEntry} :
    ¬Outdated s nameSpace entry ↔
      entry.status.resources =
          (s.resolvedExports nameSpace entry).flatMap (fun e => served e.schemas) ∧
        entry.status.claims = (s.resolvedExports nameSpace entry).flatMap (·.claims) ∧
        ∃ old, entry.status.conditions.get? "APIExportValid" = some old ∧
          old.state = (verdict (s.unresolved nameSpace entry) old.lastTransition).state := by
  simp only [Outdated, not_or, ne_eq, Decidable.not_not]
  refine and_congr_right fun _ => and_congr_right fun _ => ?_
  cases found : entry.status.conditions.get? "APIExportValid" with
  | none => simp
  | some old =>
    have type : old.type = "APIExportValid" := by simpa using List.find?_some found
    simp [Condition.state, type]

theorem meaning_eq_status_iff {s : Memory} {nameSpace : Option String} {entry : CatalogEntry}
    (now : Instant) :
    s.meaning nameSpace now entry = entry.status ↔ ¬Outdated s nameSpace entry := by
  rw [not_outdated_iff, Conditions.get?,
    ← judged_eq_self_iff entry.status.conditions.slots (s.unresolved nameSpace entry) now]
  constructor
  · intro same
    exact ⟨(congrArg EntryStatus.resources same).symm, (congrArg EntryStatus.claims same).symm,
      congrArg (·.conditions.slots) same⟩
  · rintro ⟨resources, claims, conditions⟩
    rw [meaning, ← resources, ← claims, conditions]

theorem pass_of_not_outdated {s : Memory} (keyed : s.Keyed) (request : Request)
    {entry : CatalogEntry} (found : s.getEntry request.partition request.name = .ok entry)
    (fine : ¬Outdated s request.nameSpace entry) (policy : SchemaPolicy) (now : Instant) :
    s.pass policy now request =
      (.ok (.unchanged (s.unresolved request.nameSpace entry)), s) := by
  rw [pass_of_stored keyed found, if_pos ((meaning_eq_status_iff now).2 fine)]

/-- Once an entry has its meaning as status, it keeps it at any earlier or later time. A status
write does not disturb what references resolve to. -/
theorem meaning_restamped (s : Memory) (key : ObjectKey) (stored : CatalogEntry)
    (nameSpace : Option String) (now later : Instant) :
    let status := s.meaning nameSpace now stored
    (s.withStatus key stored status).meaning nameSpace later (s.restamped stored status) =
      status := by
  have slots := judged_judged stored.status.conditions.slots (s.unresolved nameSpace stored) now
    later
  exact congrArg (fun slots => { s.meaning nameSpace now stored with conditions := ⟨slots⟩ }) slots

theorem pass_withStatus {s : Memory} (keyed : s.Keyed) {request : Request} {entry : CatalogEntry}
    (found : s.getEntry request.partition request.name = .ok entry) (policy : SchemaPolicy)
    (now later : Instant) :
    let s' := s.withStatus (Stored.key request.partition entry) entry
      (s.meaning request.nameSpace now entry)
    s'.pass policy later request =
      (.ok (.unchanged (s.unresolved request.nameSpace entry)), s') := by
  intro s'
  have keyed' : s'.Keyed := keyed.withStatus entry _ request.partition
  have found' : s'.getEntry request.partition request.name =
      .ok (s.restamped entry (s.meaning request.nameSpace now entry)) :=
    (keyed.getEntry_eq_ok_iff.1 found).1 ▸ getEntry_withStatus s entry _ request.partition
  rw [pass_of_stored keyed' found']
  exact if_pos (meaning_restamped s _ entry _ now later)

/-- A pass over an entry writes exactly if the entry is outdated, whatever the time. A second pass,
at whatever time, finds the same references invalid and leaves the store as it is. -/
theorem pass_settles {s : Memory} (reachable : s.Reachable) {request : Request}
    {entry : CatalogEntry} (found : s.getEntry request.partition request.name = .ok entry)
    (policy : SchemaPolicy) (now later : Instant) :
    ∃ outcome s', s.pass policy now request = (.ok outcome, s') ∧
      (outcome.wroteStatus = true ↔ Outdated s request.nameSpace entry) ∧
      (s'.statusWrites = s.statusWrites + 1 ↔ Outdated s request.nameSpace entry) ∧
      (s' = s ↔ ¬Outdated s request.nameSpace entry) ∧
      s'.pass policy later request = (.ok (.unchanged outcome.invalidReferences), s') := by
  have keyed := reachable.keyed
  by_cases outdated : Outdated s request.nameSpace entry
  · have first := pass_of_stored keyed found policy now
    rw [if_neg fun same => (meaning_eq_status_iff now).1 same outdated] at first
    refine ⟨_, _, first, ?_, ?_, ?_, pass_withStatus keyed found policy now later⟩
    · simp [Outcome.wroteStatus, outdated]
    · simp [outdated]
    · have more : s.statusWrites + 1 ≠ s.statusWrites := Nat.succ_ne_self _
      simp only [outdated, not_true_eq_false, iff_false]
      exact fun same => more (congrArg statusWrites same)
  · have idle := pass_of_not_outdated keyed request found outdated policy
    refine ⟨_, s, idle now, ?_, ?_, ?_, idle later⟩
    · simp [Outcome.wroteStatus, outdated]
    · simp [outdated]
    · simp [outdated]

/-- The entry has no status yet. The second pass takes place before the first by its clock. -/
theorem pass_settles_sample :
    ∃ outcome s', Sample.store.pass .drop .epoch Sample.request = (.ok outcome, s') ∧
      outcome.wroteStatus = true ∧ s'.statusWrites = Sample.store.statusWrites + 1 ∧
      s'.pass .drop ⟨⟨1969, 12, 31, 23, 59, 60, 0⟩, by decide⟩ Sample.request =
        (.ok (.unchanged outcome.invalidReferences), s') := by
  have outdated : Outdated Sample.store Sample.request.nameSpace Sample.stored :=
    .inl (by decide +kernel)
  obtain ⟨outcome, s', first, wrote, counted, -, second⟩ :=
    pass_settles Sample.reachable Sample.found .drop .epoch _
  exact ⟨outcome, s', first, wrote.2 outdated, counted.2 outdated, second⟩

end Memory
end ApiCatalog
