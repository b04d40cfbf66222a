import ApiCatalog.Proofs.Condition
import ApiCatalog.Proofs.Partition
import ApiCatalog.Proofs.Reconcile.Solo
import ApiCatalog.Proofs.Schema

/-!
# What a pass stores

The status of an entry is said here without the pass: which exports the references resolve to, which
resources and claims these add up to, and which condition tells about the references that do not
resolve. Main statement: whatever a pass does, the entry has exactly this status afterwards
(`pass_gives_meaning`).
-/
namespace ApiCatalog

namespace Memory

/-- The export that a reference resolves to. Its path has to be that of a partition, its look-up may
not fail, and it has to be there. -/
def resolved? (s : Memory) (nameSpace : Option String) (reference : ExportReference) :
    Option ApiExport :=
  if valid : IsPath reference.path then
    let key : ObjectKey := ⟨⟨reference.path, valid⟩, nameSpace, reference.exportName⟩
    if s.faults.contains key then none else s.exports.get? key
  else none

/-- The exports that the references of an entry resolve to, in their order. -/
def resolvedExports (s : Memory) (nameSpace : Option String) (entry : CatalogEntry) :
    List ApiExport :=
  entry.exports.filterMap (s.resolved? nameSpace)

/-- The references of an entry that do not resolve, in their order. -/
def unresolved (s : Memory) (nameSpace : Option String) (entry : CatalogEntry) : List String :=
  (entry.exports.filter fun reference => (s.resolved? nameSpace reference).isNone).map
    fun reference => reference.path ++ "/" ++ reference.exportName

/-- The resources that the readable ones among some identifiers name. -/
def served (schemas : List String) : List GroupResource :=
  (schemas.filter (2 ≤ SchemaId.dots ·)).map SchemaId.named

/-- The condition about references that do not resolve. -/
def verdict (unresolved : List String) (time : Instant) : Condition :=
  if unresolved = [] then ⟨"APIExportValid", .yes, .unset, none, none, time⟩
  else ⟨"APIExportValid", .no, .error, some "InvalidExports",
    some ("invalid export(s): " ++ String.intercalate ", " unresolved), time⟩

/-- The conditions with the verdict in the first slot of its type, or at the end if there is none. A
slot that says the same already keeps its time. -/
def judged (prior : List Condition) (unresolved : List String) (now : Instant) : List Condition :=
  match prior.findIdx? (·.type == "APIExportValid") with
  | some i => prior.modify i fun old =>
      verdict unresolved
        (if old.state = (verdict unresolved now).state then old.lastTransition else now)
  | none => prior ++ [verdict unresolved now]

/-- The status that an entry should have. -/
def meaning (s : Memory) (nameSpace : Option String) (now : Instant) (entry : CatalogEntry) :
    EntryStatus where
  claims := (s.resolvedExports nameSpace entry).flatMap (·.claims)
  resources := (s.resolvedExports nameSpace entry).flatMap fun e => served e.schemas
  conditions := ⟨judged entry.status.conditions.slots (s.unresolved nameSpace entry) now⟩

section Derivation

theorem exportsValid_eq (unresolved : List String) (now : Instant) :
    exportsValid unresolved now = verdict unresolved now := by
  cases unresolved with
  | nil => rfl
  | cons first rest => rfl

@[simp] theorem verdict_type (unresolved : List String) (time : Instant) :
    (verdict unresolved time).type = "APIExportValid" := by
  unfold verdict
  split <;> rfl

theorem verdict_withTime (unresolved : List String) (now time : Instant) :
    { verdict unresolved now with lastTransition := time } = verdict unresolved time := by
  unfold verdict
  split <;> rfl

theorem after_verdict (unresolved : List String) (now : Instant) :
    (verdict unresolved now).after = fun old => verdict unresolved
      (if old.state = (verdict unresolved now).state then old.lastTransition else now) := by
  funext old
  simp only [Condition.after, Condition.sameState_iff, verdict_withTime]
  split <;> rfl

theorem judged_eq_put (prior : List Condition) (unresolved : List String) (now : Instant) :
    judged prior unresolved now = Conditions.put (verdict unresolved now) prior := by
  rw [Conditions.put_eq_modify, verdict_type, after_verdict]
  rfl

theorem set_exportsValid (prior : Conditions) (unresolved : List String) (now : Instant) :
    prior.set (exportsValid unresolved now) = ⟨judged prior.slots unresolved now⟩ := by
  rw [Conditions.set, exportsValid_eq, judged_eq_put]

theorem resourcesOf_eq (schemas : List String) :
    Derivation.resourcesOf schemas = served schemas := by
  unfold Derivation.resourcesOf served
  simp only [SchemaId.ofString?_map_groupResource]
  induction schemas with
  | nil => rfl
  | cons identifier rest ih =>
    by_cases readable : 2 ≤ SchemaId.dots identifier <;> simp [readable, ih]

theorem contribution_ofAnswer (reference : ExportReference) (reply : Except StoreError ApiExport) :
    (Resolution.ofAnswer reply).contribution reference = match reply.toOption with
      | some e => .resolved e
      | none => .unresolved reference := by
  cases reply with
  | ok e => rfl
  | error e =>
    simp only [Resolution.ofAnswer]
    split <;> rfl

theorem getExport_toOption (s : Memory) (key : ObjectKey) :
    (s.getExport key).toOption = if s.faults.contains key then none else s.exports.get? key := by
  unfold getExport Table.contains
  cases s.faults.get? key with
  | some fault => rfl
  | none => cases s.exports.get? key <;> rfl

theorem contribution_eq (s : Memory) (nameSpace : Option String) (reference : ExportReference) :
    s.contribution nameSpace reference = match s.resolved? nameSpace reference with
      | some e => .resolved e
      | none => .unresolved reference := by
  unfold contribution resolution resolved?
  by_cases valid : IsPath reference.path
  · rw [Partition.ofString_of_isPath valid, dif_pos valid]
    simp only [contribution_ofAnswer, getExport_toOption]
  · obtain ⟨e, refused⟩ := Partition.ofString_of_not_isPath valid
    rw [refused, dif_neg valid]
    rfl

section Aggregation

variable (s : Memory) (nameSpace : Option String) (references : List ExportReference)

/-- Only resolved references add to a list, each what its export adds. -/
theorem flatMap_contribution {β : Type} {f : Contribution → List β}
    (empty : ∀ reference, f (.unresolved reference) = []) :
    (references.map (s.contribution nameSpace)).flatMap f =
      (references.filterMap (s.resolved? nameSpace)).flatMap fun e => f (.resolved e) := by
  induction references with
  | nil => rfl
  | cons reference rest ih =>
    rw [List.map_cons, List.flatMap_cons, ih, contribution_eq]
    cases found : s.resolved? nameSpace reference with
    | some e => simp [found]
    | none => simp [found, empty]

theorem filterMap_contribution :
    (references.map (s.contribution nameSpace)).filterMap Contribution.invalid? =
      (references.filter fun reference => (s.resolved? nameSpace reference).isNone).map
        ExportReference.display := by
  induction references with
  | nil => rfl
  | cons reference rest ih =>
    rw [List.map_cons, List.filterMap_cons, ih, contribution_eq]
    cases found : s.resolved? nameSpace reference with
    | some e => simp [found, Contribution.invalid?]
    | none => simp [found, Contribution.invalid?]

theorem served_flatMap {α : Type} (list : List α) (f : α → List String) :
    served (list.flatMap f) = list.flatMap fun a => served (f a) := by
  simp only [served, List.filter_flatMap, List.map_flatMap]

end Aggregation

/-- What a pass derives, whatever it does with unreadable identifiers. -/
theorem derivation_eq (s : Memory) (policy : SchemaPolicy) (now : Instant)
    (nameSpace : Option String) (entry : CatalogEntry) :
    (s.derivation policy now nameSpace entry).status = s.meaning nameSpace now entry ∧
      (s.derivation policy now nameSpace entry).invalidReferences =
        s.unresolved nameSpace entry := by
  have invalid : (entry.exports.map (s.contribution nameSpace)).filterMap Contribution.invalid? =
      s.unresolved nameSpace entry := filterMap_contribution s nameSpace entry.exports
  constructor
  · simp only [derivation, Derivation.ofContributions, invalid, set_exportsValid, resourcesOf_eq,
      flatMap_contribution s nameSpace entry.exports (f := Contribution.claims) fun _ => rfl,
      flatMap_contribution s nameSpace entry.exports (f := Contribution.schemas) fun _ => rfl,
      served_flatMap]
    rfl
  · exact invalid

end Derivation

/-- A pass over an entry, in terms of what it should have as status. -/
theorem pass_of_stored {s : Memory} (keyed : s.Keyed) {request : Request} {entry : CatalogEntry}
    (found : s.getEntry request.partition request.name = .ok entry) (policy : SchemaPolicy)
    (now : Instant) :
    s.pass policy now request =
      if s.meaning request.nameSpace now entry = entry.status then
        (.ok (.unchanged (s.unresolved request.nameSpace entry)), s)
      else
        (.ok (.statusUpdated s.lastVersion.next (s.unresolved request.nameSpace entry)),
          s.withStatus (Stored.key request.partition entry) entry
            (s.meaning request.nameSpace now entry)) := by
  obtain ⟨status, invalid⟩ := derivation_eq s policy now request.nameSpace entry
  rw [pass_of_found keyed found]
  simp only [status, invalid]

/-- A pass over an entry that is there ends well, and afterwards the status of the entry is its
meaning, written by the pass or there before. -/
theorem pass_gives_meaning {s : Memory} (reachable : s.Reachable) {request : Request}
    {entry : CatalogEntry} (found : s.getEntry request.partition request.name = .ok entry)
    (policy : SchemaPolicy) (now : Instant) :
    ∃ outcome s' stored, s.pass policy now request = (.ok outcome, s') ∧
      (outcome = .unchanged (s.unresolved request.nameSpace entry) ∨
        ∃ version, outcome = .statusUpdated version (s.unresolved request.nameSpace entry)) ∧
      s'.getEntry request.partition request.name = .ok stored ∧
      stored.status = s.meaning request.nameSpace now entry := by
  have keyed := reachable.keyed
  have name := (keyed.getEntry_eq_ok_iff.1 found).1
  rw [pass_of_stored keyed found]
  split
  next same => exact ⟨_, s, entry, rfl, .inl rfl, found, same.symm⟩
  · exact ⟨_, _, _, rfl, .inr ⟨_, rfl⟩, name ▸ getEntry_withStatus s entry _ request.partition, rfl⟩

/-- Of the two references of the entry one resolves, and the condition names the other. -/
theorem pass_gives_meaning_sample :
    ∃ entry, (Sample.store.pass .drop .epoch Sample.request).2.getEntry .root "tools" = .ok entry ∧
      entry.status = ⟨[⟨"", "secrets", ""⟩], [⟨"example.io", "widgets"⟩],
        ⟨[⟨"APIExportValid", .no, .error, some "InvalidExports",
          some "invalid export(s): root/gadgets", .epoch⟩]⟩⟩ := by
  obtain ⟨outcome, s', entry, done, -, found, status⟩ :=
    pass_gives_meaning Sample.reachable Sample.found .drop .epoch
  rw [done]
  exact ⟨entry, found, status.trans (by decide +kernel)⟩

end Memory
end ApiCatalog
