import ApiCatalog.Proofs.Reconcile.Cancellation
import ApiCatalog.Proofs.Reconcile.Stage

/-!
# What a pass depends on

A pass reads one entry and what the references of that entry resolve to. Main statements: from equal
resolutions it derives the same (`SameResolutions.derivation`), and in two stores that agree on what
it reads it ends alike and leaves the same entry, but for the version (`Alike.passes`). It ends with
a status write, or the store is as it was (`pass_ends`).
-/
namespace ApiCatalog

namespace Outcome

/-- The outcome without the version that was written. -/
def unversioned : Outcome → Outcome
  | statusUpdated _ invalid => statusUpdated 0 invalid
  | other => other

@[simp] theorem wroteStatus_unversioned (outcome : Outcome) :
    outcome.unversioned.wroteStatus = outcome.wroteStatus := by
  cases outcome <;> rfl

end Outcome

namespace CatalogEntry

/-- The entry without its version. -/
def unversioned (e : CatalogEntry) : CatalogEntry := Stored.withVersion e 0

end CatalogEntry

namespace Memory

/-- What a pass for the request reads is the same in both stores. -/
structure Alike (request : Request) (s t : Memory) : Prop where
  entry : t.getEntry request.partition request.name = s.getEntry request.partition request.name
  resolutions : ∀ entry, s.getEntry request.partition request.name = .ok entry →
    SameResolutions s t request.nameSpace entry

section Reads

variable {s t : Memory} {partition : Partition} {name : String}

theorem getEntry_congr (same : t.entries.get? (.cluster partition name) =
    s.entries.get? (.cluster partition name)) :
    t.getEntry partition name = s.getEntry partition name := by
  simp only [getEntry, same]

theorem toOption_map_getEntry {β : Type} (f : CatalogEntry → β) :
    ((s.getEntry partition name).map f).toOption =
      (s.entries.get? (.cluster partition name)).map f := by
  unfold getEntry
  dsimp only
  split
  next found => rw [found]; rfl
  next missing => rw [missing]; rfl

end Reads

section Derivations

variable {s t : Memory} {nameSpace : Option String} {entry : CatalogEntry}

theorem SameResolutions.derivation (same : SameResolutions s t nameSpace entry)
    (policy : SchemaPolicy) (now : Instant) :
    t.derivation policy now nameSpace entry = s.derivation policy now nameSpace entry := by
  have contributions : entry.exports.map (t.contribution nameSpace) =
      entry.exports.map (s.contribution nameSpace) :=
    List.map_congr_left fun _ member => same.contribution member
  rw [Memory.derivation, Memory.derivation, contributions]

/-- Look-ups depend on the exports and their faults alone. -/
theorem sameResolutions_of_exports (exports : t.exports = s.exports) (faults : t.faults = s.faults)
    (nameSpace : Option String) (entry : CatalogEntry) : SameResolutions s t nameSpace entry := by
  intro reference _
  simp only [resolved?, exports, faults]

end Derivations

section Passes

variable {s t : Memory} {request : Request} (policy : SchemaPolicy) (now : Instant)

/-- In two stores that are alike to a pass it ends alike, and leaves the same entry but for the
version. -/
theorem Alike.passes (alike : Alike request s t) (keyed : s.Keyed) (keyed' : t.Keyed) :
    (t.pass policy now request).1.map Outcome.unversioned =
        (s.pass policy now request).1.map Outcome.unversioned ∧
      ((t.pass policy now request).2.getEntry request.partition request.name).map
          CatalogEntry.unversioned =
        ((s.pass policy now request).2.getEntry request.partition request.name).map
          CatalogEntry.unversioned := by
  have read := alike.entry
  cases found : s.getEntry request.partition request.name with
  | error e =>
    obtain ⟨-, rfl⟩ := getEntry_eq_error found
    rw [found] at read
    rw [pass_of_missing found, pass_of_missing read, read, found]
    exact ⟨rfl, rfl⟩
  | ok entry =>
    rw [found] at read
    have name := (keyed.getEntry_eq_ok_iff.1 found).1
    rw [pass_of_found keyed found, pass_of_found keyed' read,
      (alike.resolutions entry found).derivation]
    dsimp only
    split
    · exact ⟨rfl, by rw [read, found]⟩
    · refine ⟨rfl, ?_⟩
      rw [← name, getEntry_withStatus, getEntry_withStatus]
      rfl

/-- Whether the pass ends with a status write. -/
def writes (s : Memory) (policy : SchemaPolicy) (now : Instant) (request : Request) : Bool :=
  (s.pass policy now request).1.toOption.any Outcome.wroteStatus

theorem writes_congr {now : Instant}
    (same : (t.pass policy now request).1.map Outcome.unversioned =
      (s.pass policy now request).1.map Outcome.unversioned) :
    t.writes policy now request = s.writes policy now request := by
  have wrote : ∀ result : Except PassError Outcome, result.toOption.any Outcome.wroteStatus =
      (result.map Outcome.unversioned).toOption.any Outcome.wroteStatus := by
    intro result
    cases result with
    | ok outcome => exact outcome.wroteStatus_unversioned.symm
    | error e => rfl
  rw [writes, writes, wrote, wrote (s.pass policy now request).1, same]

/-- A pass always ends well. It counts a status write or leaves the store as it is. -/
theorem pass_ends (keyed : s.Keyed) (request : Request) :
    (∃ outcome, (s.pass policy now request).1 = .ok outcome) ∧
      if s.writes policy now request then
        (s.pass policy now request).2.statusWrites = s.statusWrites + 1
      else (s.pass policy now request).2 = s := by
  unfold writes
  cases found : s.getEntry request.partition request.name with
  | error e =>
    obtain ⟨-, rfl⟩ := getEntry_eq_error found
    rw [pass_of_missing found]
    exact ⟨⟨_, rfl⟩, rfl⟩
  | ok entry =>
    rw [pass_of_found keyed found]
    dsimp only
    split
    · exact ⟨⟨_, rfl⟩, rfl⟩
    · exact ⟨⟨_, rfl⟩, rfl⟩

end Passes
end Memory
end ApiCatalog
