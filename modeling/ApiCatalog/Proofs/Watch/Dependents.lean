import ApiCatalog.Proofs.Reconcile.Locality
import ApiCatalog.Proofs.Store.History
import ApiCatalog.Proofs.Watch.Delivery

/-!
# The entries that depend on an export

A change of an export is forwarded to the entries that refer to it by path and name, and a pass
looks an export up by partition, namespace and name. Main statements: what the change does not
concern resolves to the same as before (`Mutation.sameResolutions`), so that a pass over an entry
that is not requested is none the wiser (`dependents_complete`).
-/
namespace ApiCatalog

namespace CatalogEntry

/-- One of the references of the entry names the partition and the name of the key. -/
def RefersTo (entry : CatalogEntry) (key : ObjectKey) : Prop :=
  ∃ reference ∈ entry.exports,
    reference.path = key.partition.path ∧ reference.exportName = key.name

theorem refersTo_iff {entry : CatalogEntry} {key : ObjectKey} :
    Trigger.refersTo key entry = true ↔ entry.RefersTo key := by
  simp [Trigger.refersTo, RefersTo]

end CatalogEntry

namespace Memory

/-- The key of the export that a mutation puts or deletes. -/
def Mutation.exportKey? : Mutation → Option ObjectKey
  | putExport partition e => some (Stored.key partition e)
  | deleteExport key => some key
  | _ => none

section Mutations

variable {m : Mutation} {key : ObjectKey}

/-- A mutation of an export leaves entries, faults and all other exports as they are. -/
theorem Mutation.frame_of_export (changes : m.exportKey? = some key) (s : Memory) :
    (m.apply s).entries = s.entries ∧ (m.apply s).faults = s.faults ∧
      ∀ other, other ≠ key → (m.apply s).exports.get? other = s.exports.get? other := by
  cases m with
  | putExport partition e =>
    cases changes
    exact ⟨rfl, rfl, fun other apart => Table.get?_insert_ne apart⟩
  | deleteExport removed =>
    cases changes
    simp only [apply, Memory.deleteExport]
    split
    · exact ⟨rfl, rfl, fun other apart => (Table.get?_erase ..).trans (if_neg apart)⟩
    · exact ⟨rfl, rfl, fun _ _ => rfl⟩
  | _ => cases changes

theorem Mutation.sameResolutions (changes : m.exportKey? = some key) (s : Memory)
    {entry : CatalogEntry} (apart : ¬entry.RefersTo key) (nameSpace : Option String) :
    SameResolutions s (m.apply s) nameSpace entry := by
  obtain ⟨-, faults, others⟩ := Mutation.frame_of_export changes s
  intro reference member
  unfold resolved?
  split
  next valid =>
    -- The partition of a path has that path, so the key that is looked up is another one.
    have other :
        (⟨⟨reference.path, valid⟩, nameSpace, reference.exportName⟩ : ObjectKey) ≠ key := by
      rintro rfl
      exact apart ⟨reference, member, rfl, rfl⟩
    simp only [faults, others _ other]
  next => rfl

/-- What a pass does not look up it cannot notice. -/
theorem Mutation.alike (changes : m.exportKey? = some key) (s : Memory) {request : Request}
    (apart : ∀ entry, s.getEntry request.partition request.name = .ok entry →
      ¬entry.RefersTo key) : Alike request s (m.apply s) where
  entry := by
    obtain ⟨entries, -, -⟩ := Mutation.frame_of_export changes s
    simp only [getEntry, entries]
  resolutions entry found := Mutation.sameResolutions changes s (apart entry found) _

end Mutations

end Memory

namespace Watch

open Memory

/-- The names of the entries of a partition that refer to the export, in order. -/
def dependentNames (s : Memory) (key : ObjectKey) (partition : Partition) : List String :=
  ((s.listEntries partition).filter (Trigger.refersTo key)).map CatalogEntry.name

theorem run_dependents (s : Memory) (key : ObjectKey) (watched : List Partition) :
    (Trigger.dependents key watched).run respond s =
      (watched.flatMap fun partition =>
        (dependentNames s key partition).map fun name => ⟨partition, none, name⟩, s) := by
  induction watched with
  | nil => rfl
  | cons partition rest ih =>
    have here : ((s.listEntries partition).filter (Trigger.refersTo key)).map
        (Request.forEntry partition) =
          (dependentNames s key partition).map fun name => ⟨partition, none, name⟩ := by
      rw [dependentNames, List.map_map]
      rfl
    have asked : (Trigger.dependents key (partition :: rest)).run respond s =
        (Trigger.dependents key rest >>= fun others => pure
          (((s.listEntries partition).filter (Trigger.refersTo key)).map
            (Request.forEntry partition) ++ others)).run respond s := rfl
    rw [asked, Program.run_bind, here]
    change ((_ ++ ((Trigger.dependents key rest).run respond s).1,
      ((Trigger.dependents key rest).run respond s).2) : List Request × Memory) = _
    rw [ih]
    rfl

variable {s : Memory} {key : ObjectKey} {partition : Partition} {name : String}

theorem mem_dependentNames_iff (keyed : s.Keyed) : name ∈ dependentNames s key partition ↔
    ∃ entry, s.getEntry partition name = .ok entry ∧ entry.RefersTo key := by
  simp only [dependentNames, List.mem_map, List.mem_filter, CatalogEntry.refersTo_iff,
    keyed.mem_listEntries_iff]
  constructor
  · rintro ⟨entry, ⟨found, refers⟩, rfl⟩
    exact ⟨entry, found, refers⟩
  · rintro ⟨entry, found, refers⟩
    obtain ⟨rfl, -⟩ := keyed.getEntry_eq_ok_iff.1 found
    exact ⟨entry, ⟨found, refers⟩, rfl⟩

theorem dependentNames_sorted (keyed : s.Keyed) :
    (dependentNames s key partition).Pairwise fun a b => compare a b = .lt :=
  List.pairwise_map.2 (keyed.listEntries_sorted.filter _)

/-- A change of an export gives rise to requests, found in the store before it as after it, for
exactly the entries of the watched partitions that refer to the export by path and name: once for
each time that the partition is watched, in the order of the partitions and then of the names. To an
entry of a watched partition that gets no request the change makes no difference: a pass over it,
in any namespace and at any time, derives the same status, invalid references and malformed
identifiers as before the change, and ends alike. -/
theorem dependents_complete {s : Memory} (reachable : s.Reachable) {m : Mutation}
    {key : ObjectKey} (changes : m.exportKey? = some key) (watched : List Partition) :
    ∃ (names : Partition → List String) (requests : List Request),
      (Trigger.dependents key watched).run respond s = (requests, s) ∧
      (Trigger.dependents key watched).run respond (m.apply s) = (requests, m.apply s) ∧
      (requests = watched.flatMap fun partition =>
        (names partition).map fun name => ⟨partition, none, name⟩) ∧
      (∀ partition, (names partition).Pairwise (fun a b => compare a b = .lt) ∧
        ∀ name, name ∈ names partition ↔
          ∃ entry, s.getEntry partition name = .ok entry ∧ entry.RefersTo key) ∧
      ∀ partition ∈ watched, ∀ name entry, s.getEntry partition name = .ok entry →
        ⟨partition, none, name⟩ ∉ requests →
        (m.apply s).getEntry partition name = .ok entry ∧
        ∀ nameSpace policy now,
          ((Pass.derive entry nameSpace policy now).run perform (m.apply s)).1 =
            ((Pass.derive entry nameSpace policy now).run perform s).1 ∧
          ((m.apply s).pass policy now ⟨partition, nameSpace, name⟩).1.map Outcome.unversioned =
            (s.pass policy now ⟨partition, nameSpace, name⟩).1.map Outcome.unversioned ∧
          (((m.apply s).pass policy now ⟨partition, nameSpace, name⟩).2.getEntry partition
              name).map CatalogEntry.unversioned =
            ((s.pass policy now ⟨partition, nameSpace, name⟩).2.getEntry partition name).map
              CatalogEntry.unversioned := by
  have keyed := reachable.keyed
  have keyed' := keyed.mutate m
  obtain ⟨entries, -, -⟩ := Mutation.frame_of_export changes s
  have names : dependentNames (m.apply s) key = dependentNames s key := by
    funext partition
    simp only [dependentNames, listEntries, entries]
  refine ⟨dependentNames s key, _, run_dependents s key watched, ?_, rfl,
    fun partition => ⟨dependentNames_sorted keyed, fun name => mem_dependentNames_iff keyed⟩, ?_⟩
  · rw [run_dependents, names]
  · intro partition watching name entry found unrequested
    have apart : ¬entry.RefersTo key := by
      intro refers
      refine unrequested (List.mem_flatMap.2 ⟨partition, watching, List.mem_map_of_mem ?_⟩)
      exact (mem_dependentNames_iff keyed).2 ⟨entry, found, refers⟩
    have alike : ∀ nameSpace, Alike ⟨partition, nameSpace, name⟩ s (m.apply s) := by
      refine fun nameSpace => Mutation.alike changes s fun other found' => ?_
      cases found.symm.trans found'
      exact apart
    refine ⟨(alike none).entry.trans found, fun nameSpace policy now => ⟨?_, ?_⟩⟩
    · rw [run_derive, run_derive, ((alike nameSpace).resolutions entry found).derivation]
    · exact (alike nameSpace).passes policy now keyed keyed'

namespace Sample

/-- Refers to exports of the name `gadgets`, in another partition and by no path at all. -/
def guides : CatalogEntry :=
  ⟨.named "guides", [⟨"root:spare", "gadgets"⟩, ⟨"Root", "gadgets"⟩], "", .empty⟩

def catalog : Memory := (Memory.Sample.store.putEntry .root guides).2

theorem reachable_catalog : catalog.Reachable :=
  .operated (.mutate (.putEntry .root guides)) Memory.Sample.reachable

/-- Creates the export that the other entry of the store waits for. -/
def creation : Mutation := .putExport .root ⟨.named "gadgets", ["v1.gadgets.example.io"], []⟩

end Sample

/-- The partition is watched twice. One of its two entries is requested for it each time, and to the
other one it makes no difference that the export is there. -/
theorem dependents_complete_sample :
    ((Trigger.dependents ⟨.root, none, "gadgets"⟩ [.root, .root]).run respond
        (Sample.creation.apply Sample.catalog)).1 =
      [⟨.root, none, "tools"⟩, ⟨.root, none, "tools"⟩] ∧
    ((Sample.creation.apply Sample.catalog).pass .drop .epoch ⟨.root, none, "guides"⟩).1.map
        Outcome.unversioned =
      (Sample.catalog.pass .drop .epoch ⟨.root, none, "guides"⟩).1.map Outcome.unversioned := by
  obtain ⟨names, requests, before, after, -, -, indifferent⟩ :=
    dependents_complete Sample.reachable_catalog (m := Sample.creation) rfl [.root, .root]
  have listed : requests = [⟨.root, none, "tools"⟩, ⟨.root, none, "tools"⟩] :=
    (congrArg Prod.fst before).symm.trans (by decide +kernel)
  have found : Sample.catalog.getEntry .root "guides" =
      .ok (Stored.withVersion Sample.guides 3) :=
    getEntry_eq_ok.2 (by decide +kernel)
  obtain ⟨-, same⟩ := indifferent .root List.mem_cons_self "guides" _ found
    (listed ▸ by decide +kernel)
  exact ⟨(congrArg Prod.fst after).trans listed, (same none .drop .epoch).2.1⟩

end Watch
end ApiCatalog
