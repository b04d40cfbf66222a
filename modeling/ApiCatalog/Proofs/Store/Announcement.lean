import ApiCatalog.Proofs.Store.Edit

/-!
# What the feed tells of a run

The feed of a run is the list of its edits. An address holds what the last edit of it has left there
(`at?_after`). Main statement: whoever reads the feed knows which objects are no longer what they
were, and which entries were deleted last (`feed_tells_changes`).
-/
namespace ApiCatalog
namespace Memory

/-- The store after some accesses, one after the other. -/
def after (s : Memory) (accesses : List Access) : Memory :=
  accesses.foldl (fun s access => access.apply s) s

/-- The edits that are made meanwhile, the first one first. -/
def edits (s : Memory) : List Access → List Edit
  | [] => []
  | access :: rest => (access.edit? s).toList ++ (access.apply s).edits rest

section Runs

variable (s : Memory)

theorem edits_append (before later : List Access) :
    s.edits (before ++ later) = s.edits before ++ (s.after before).edits later := by
  induction before generalizing s with
  | nil => rfl
  | cons access rest ih =>
    rw [List.cons_append, edits, edits, ih, List.append_assoc]
    rfl

theorem published_after (accesses : List Access) :
    (s.after accesses).published = s.published ++ (s.edits accesses).map Edit.event := by
  induction accesses generalizing s with
  | nil => exact (List.append_nil _).symm
  | cons access rest ih =>
    rw [edits, List.map_append, ← List.append_assoc, ← (access.edits s).published]
    exact ih (access.apply s)

theorem at?_after (accesses : List Access) :
    (s.after accesses).at? = (s.edits accesses).foldl (fun found edit => edit.on found) s.at? := by
  induction accesses generalizing s with
  | nil => rfl
  | cons access rest ih =>
    rw [edits, List.foldl_append]
    refine (ih (access.apply s)).trans ?_
    rw [(access.edits s).objects]
    cases access.edit? s with
    | none => rfl
    | some edit => rfl

end Runs

/-- The last edit of what is at the address. -/
def lastEdit? (edits : List Edit) (address : Address) : Option Edit :=
  (edits.filter (·.address = address)).getLast?

section LastEdits

variable {address : Address}

theorem lastEdit?_append (before later : List Edit) (address : Address) :
    lastEdit? (before ++ later) address =
      (lastEdit? later address).or (lastEdit? before address) := by
  rw [lastEdit?, List.filter_append, List.getLast?_append]
  rfl

theorem address_of_lastEdit? {edits : List Edit} {edit : Edit}
    (last : lastEdit? edits address = some edit) : edit.address = address := by
  have member := (List.mem_filter.1 (List.mem_of_getLast? last)).2
  simpa using member

theorem lastEdit?_eq_none_iff {edits : List Edit} :
    lastEdit? edits address = none ↔ ∀ edit ∈ edits, edit.address ≠ address := by
  simp [lastEdit?]

/-- Each address holds what the last edit of it has left there. -/
theorem foldl_on (edits : List Edit) (found : Address → Option Object) (address : Address) :
    edits.foldl (fun found edit => edit.on found) found address =
      match lastEdit? edits address with
      | some edit => edit.object?
      | none => found address := by
  induction edits generalizing found with
  | nil => rfl
  | cons edit rest ih =>
    rw [List.foldl_cons, ih, ← List.singleton_append, lastEdit?_append]
    cases lastEdit? rest address with
    | some later => rfl
    | none =>
      by_cases here : edit.address = address
      · simp [lastEdit?, here, Edit.on]
      · simp [lastEdit?, here, Edit.on, Function.update_of_ne (Ne.symm here)]

/-- The last event about an address is that of the last edit of it. -/
theorem getLast?_events (edits : List Edit) (address : Address) :
    ((edits.map Edit.event).filter (·.address = address)).getLast? =
      (lastEdit? edits address).map Edit.event := by
  rw [List.filter_map, List.getLast?_map, lastEdit?]
  simp only [Function.comp_def, Edit.address_event]

end LastEdits

section Deletions

variable {s : Memory} {key : ObjectKey}

/-- The access deletes an entry that was there. -/
def Deletes (s : Memory) (key : ObjectKey) (access : Access) : Prop :=
  ∃ partition name, access = .operate (.mutate (.deleteEntry partition name)) ∧
    key = .cluster partition name ∧ (s.deleteEntry partition name).1 = true

/-- Nothing else takes an entry away. -/
theorem edit?_eq_remove_iff {access : Access} :
    access.edit? s = some (.remove (.entry key)) ↔ Deletes s key access := by
  constructor
  · intro removed
    cases access with
    | operate op =>
      cases op with
      | mutate m =>
        cases m <;> simp [Access.edit?, Mutation.edit?] at removed
        next partition name => exact ⟨partition, name, rfl, removed.2.symm, removed.1⟩
      | failExport key e => cases removed
      | clearFault key => cases removed
    | undoStatus partition previous => cases removed
    | undoBinding partition name => simp [Access.edit?] at removed
    | call suffix c =>
      cases c <;> simp [Access.edit?, mutation?, Mutation.edit?] at removed
  · rintro ⟨partition, name, rfl, rfl, there⟩
    simp [Access.edit?, Mutation.edit?, there]

/-- The last edit of a run is made by one of its accesses, and none edits the object after it. -/
theorem lastEdit?_edits {accesses : List Access} {address : Address} {edit : Edit} :
    lastEdit? (s.edits accesses) address = some edit ↔
      edit.address = address ∧ ∃ before access later, accesses = before ++ access :: later ∧
        access.edit? (s.after before) = some edit ∧
        ∀ other ∈ (s.after (before ++ [access])).edits later, other.address ≠ address := by
  constructor
  · intro last
    refine ⟨address_of_lastEdit? last, ?_⟩
    induction accesses generalizing s with
    | nil => cases last
    | cons first rest ih =>
      rw [edits, lastEdit?_append] at last
      cases later : lastEdit? ((first.apply s).edits rest) address with
      | some other =>
        rw [later] at last
        cases last
        obtain ⟨before, access, after, rfl, made, quiet⟩ := ih later
        exact ⟨first :: before, access, after, rfl, made, quiet⟩
      | none =>
        rw [later, Option.none_or] at last
        refine ⟨[], first, rest, rfl, ?_, lastEdit?_eq_none_iff.1 later⟩
        change first.edit? s = some edit
        cases here : first.edit? s with
        | none =>
          rw [here] at last
          cases last
        | some made =>
          rw [here] at last
          have only := (List.mem_filter.1 (List.mem_of_getLast? last)).1
          rw [List.mem_singleton.1 only]
  · rintro ⟨here, before, access, later, rfl, made, quiet⟩
    rw [List.append_cons, edits_append, lastEdit?_append, lastEdit?_eq_none_iff.2 quiet,
      Option.none_or, edits_append, lastEdit?_append, edits, made]
    simp [lastEdit?, here, edits]

end Deletions

/-- Each access makes the edit that its answer tells of: one event is published, of the kind and
with the key of the object, and no other object is changed. With an error, where there is nothing to
remove and in a read it makes none; then nothing is published or changed. So after any run every
object that is no longer what it was has an event in between, and the last event of an entry says
that it was deleted exactly if the last access that edited it deleted it, which is exactly if it is
no longer there. -/
theorem feed_tells_changes (s : Memory) :
    (∀ access : Access, Edits s (access.apply s) (access.edit? s)) ∧
    (∀ edit : Edit, edit.event.address = edit.address ∧
      (edit.event.change = .entryDeleted ↔ ∃ key, edit = .remove (.entry key))) ∧
    ∀ accesses, ∃ news, (s.after accesses).published = s.published ++ news ∧
      (∀ address, (s.after accesses).at? address ≠ s.at? address →
        ∃ event ∈ news, event.address = address) ∧
      ∀ key event, (news.filter (·.address = .entry key)).getLast? = some event →
        (event.change = .entryDeleted ↔ ∃ before access later,
          accesses = before ++ access :: later ∧ Deletes (s.after before) key access ∧
            ∀ edit ∈ (s.after (before ++ [access])).edits later, edit.address ≠ .entry key) ∧
        (event.change = .entryDeleted ↔ (s.after accesses).at? (.entry key) = none) := by
  refine ⟨fun access => access.edits s, fun edit => ⟨edit.address_event, ?_⟩, fun accesses =>
    ⟨_, published_after s accesses, fun address changed => ?_, fun key event last => ?_⟩⟩
  · rcases edit with (_ | _ | _) | (_ | _ | _) <;> simp [Edit.event]
  · cases found : lastEdit? (s.edits accesses) address with
    | none =>
      refine absurd ?_ changed
      rw [at?_after, foldl_on, found]
    | some edit =>
      have made := List.mem_filter.1 (List.mem_of_getLast? found)
      exact ⟨_, List.mem_map_of_mem made.1, edit.address_event.trans (address_of_lastEdit? found)⟩
  · rw [getLast?_events] at last
    obtain ⟨edit, found, rfl⟩ := Option.map_eq_some_iff.1 last
    have here := address_of_lastEdit? found
    rw [Edit.change_event_iff here]
    constructor
    · constructor
      · rintro rfl
        obtain ⟨-, before, access, later, split, made, quiet⟩ := lastEdit?_edits.1 found
        exact ⟨before, access, later, split, edit?_eq_remove_iff.1 made, quiet⟩
      · rintro ⟨before, access, later, split, deletes, quiet⟩
        have removal := lastEdit?_edits.2
          ⟨rfl, before, access, later, split, edit?_eq_remove_iff.2 deletes, quiet⟩
        exact Option.some.inj (found.symm.trans removal)
    · rw [at?_after, foldl_on, found]
      exact (Edit.object?_eq_none_iff here).symm

namespace Sample

/-- The entry is put anew and deleted. Then it is asked for, and a binding is moved that is not
there. -/
def accesses : List Access := [
  .operate (.mutate (.putEntry .root tools)),
  .operate (.mutate (.deleteEntry .root "tools")),
  .call "" (.getEntry .root "tools"),
  .operate (.mutate (.setPhase .root "tools" .bound))]

end Sample

/-- Two of the four accesses are published. The last event says that the entry was deleted, and so
it is gone. -/
theorem feed_tells_changes_sample :
    let key := ObjectKey.cluster .root "tools"
    (Sample.store.after Sample.accesses).published =
        Sample.store.published ++ [⟨.entryChanged, key⟩, ⟨.entryDeleted, key⟩] ∧
      (Sample.store.after Sample.accesses).at? (.entry key) = none := by
  obtain ⟨-, -, runs⟩ := feed_tells_changes Sample.store
  obtain ⟨news, published, -, last⟩ := runs Sample.accesses
  have known : (Sample.store.after Sample.accesses).published = Sample.store.published ++
      [⟨.entryChanged, .cluster .root "tools"⟩, ⟨.entryDeleted, .cluster .root "tools"⟩] := by
    decide +kernel
  cases List.append_cancel_left (published.symm.trans known)
  exact ⟨known, (last (.cluster .root "tools") ⟨.entryDeleted, .cluster .root "tools"⟩
    (by decide)).2.1 rfl⟩

end Memory
end ApiCatalog
