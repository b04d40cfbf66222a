import ApiCatalog.Proofs.Program
import ApiCatalog.Proofs.Store.Operation
import ApiCatalog.Reconcile.Trigger

/-!
# What triggers a pass over an entry

An event that concerns an entry, and the enqueueing of its partition, give rise to a request for it,
whatever happens to other entries while the partitions are listed (`ensures_requests`,
`ensures_enqueueAll`).
-/
namespace ApiCatalog

namespace Feed

variable {published : List Event} {position : Nat}

theorem receive_event {e : Event} {next : Nat}
    (received : receive published position = .event e next) :
    published[position]? = some e ∧ next = position + 1 := by
  unfold receive at received
  dsimp only at received
  split at received
  · cases received
  · split at received
    next found =>
      cases received
      exact ⟨found, rfl⟩
    · cases received

theorem receive_lagged {missed next : Nat}
    (received : receive published position = .lagged missed next) :
    0 < missed ∧ position < next ∧ next ≤ published.length := by
  unfold receive at received
  dsimp only at received
  split at received
  · cases received
    omega
  · split at received
    · cases received
    · cases received

/-- A subscriber that has not read to the end gets on. -/
theorem receive_of_lt (unread : position < published.length) :
    (∃ e, receive published position = .event e (position + 1) ∧
      published[position]? = some e) ∨
    ∃ missed next, receive published position = .lagged missed next ∧ position < next ∧
      next ≤ published.length := by
  cases received : receive published position with
  | event e next =>
    obtain ⟨found, rfl⟩ := receive_event received
    exact .inl ⟨e, rfl, found⟩
  | lagged missed next => exact .inr ⟨missed, next, rfl, (receive_lagged received).2⟩
  | nothing =>
    unfold receive at received
    dsimp only at received
    split at received
    · cases received
    · rw [List.getElem?_eq_getElem unread] at received
      cases received

theorem receive_of_le (read : published.length ≤ position) :
    receive published position = .nothing := by
  have kept : ¬position < published.length - capacity := by omega
  simp only [receive, kept, if_false, List.getElem?_eq_none read]

theorem receive_of_near {e : Event} (near : published.length ≤ position + capacity)
    (found : published[position]? = some e) :
    receive published position = .event e (position + 1) := by
  have kept : ¬position < published.length - capacity := by omega
  simp only [receive, kept, if_false, found]

end Feed

namespace Trigger

/-- An event of the entry, or of an export that it refers to. -/
def Concerns (partition : Partition) (entry : CatalogEntry) (e : Event) : Prop :=
  e = ⟨.entryChanged, Stored.key partition entry⟩ ∨
    e.change = .exportChanged ∧ refersTo e.key entry = true

def IsListing : Call → Prop
  | .listEntries _ => True
  | _ => False

/-- What is known of the answer to a call as long as the entry is stored. -/
def Shows (partition : Partition) (entry : CatalogEntry) : (call : Call) → call.Answer → Prop
  | .listEntries listed, answer =>
    listed = partition → ∃ entries, answer = .ok entries ∧ entry ∈ entries
  | _, _ => True

section Asking

theorem asks_dependents (key : ObjectKey) (partitions : List Partition) :
    (dependents key partitions).Asks IsListing := by
  induction partitions with
  | nil => exact trivial
  | cons partition rest ih =>
    refine ⟨trivial, fun answer => ?_⟩
    exact ih.bind fun others => trivial

theorem asks_requests (watched : List Partition) (e : Event) :
    (requests watched e).Asks IsListing := by
  unfold requests
  split
  · exact trivial
  · exact trivial
  · exact asks_dependents e.key watched
  · exact trivial

theorem asks_enqueueAll (partition : Partition) (queue : Queue) :
    (enqueueAll partition queue).Asks IsListing := by
  refine ⟨trivial, fun answer => ?_⟩
  cases answer with
  | ok entries => exact trivial
  | error e => exact trivial

end Asking

section Ensuring

variable {partition : Partition} {entry : CatalogEntry}

theorem ensures_dependents {key : ObjectKey} (refers : refersTo key entry = true)
    {partitions : List Partition} (listed : partition ∈ partitions) :
    (dependents key partitions).Ensures (Shows partition entry)
      (Request.forEntry partition entry ∈ ·) := by
  induction partitions with
  | nil => cases listed
  | cons first rest ih =>
    intro answer fits
    by_cases here : first = partition
    · obtain ⟨entries, rfl, member⟩ := fits here
      cases here
      refine (dependents key rest).ensures_true.bind fun others _ => ?_
      have chosen : entry ∈ entries.filter (refersTo key) := List.mem_filter.2 ⟨member, refers⟩
      exact List.mem_append_left others (List.mem_map_of_mem chosen)
    · have inside := (List.mem_cons.1 listed).resolve_left (Ne.symm here)
      refine (ih inside).bind fun others found => ?_
      exact List.mem_append_right _ found

/-- An event that concerns an entry of a watched partition is forwarded to a pass over it. -/
theorem ensures_requests {watched : List Partition} (listed : partition ∈ watched) {e : Event}
    (concerns : Concerns partition entry e) :
    (requests watched e).Ensures (Shows partition entry)
      (Request.forEntry partition entry ∈ ·) := by
  rcases concerns with rfl | ⟨change, refers⟩
  · have counts : (watched.isEmpty || watched.contains partition) = true := by simp [listed]
    have forwarded : requests watched ⟨.entryChanged, Stored.key partition entry⟩ =
        .done (if watched.isEmpty || watched.contains partition then
          [Request.forEntry partition entry] else []) := rfl
    rw [forwarded, if_pos counts]
    exact List.mem_singleton.2 rfl
  · unfold requests
    rw [change]
    exact ensures_dependents refers listed

theorem ensures_enqueueAll {queue : Queue} (taking : queue.closed = false) :
    (enqueueAll partition queue).Ensures (Shows partition entry)
      fun done => Request.forEntry partition entry ∈ done.2.waiting := by
  intro answer fits
  obtain ⟨entries, rfl, member⟩ := fits rfl
  simp only [Queue.send?, taking, Bool.false_and]
  exact List.mem_append_right _ (List.mem_map_of_mem member)

end Ensuring
end Trigger
end ApiCatalog
