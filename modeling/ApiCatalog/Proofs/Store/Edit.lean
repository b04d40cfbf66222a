import ApiCatalog.Proofs.Store.Version
import Mathlib.Logic.Function.Basic

/-!
# Edits of a store

Whatever is done to a store puts one object, removes one, or edits nothing, and the answer says
which of these it was. Main statement: each edit is published as one event of its kind and key, and
all other objects stay as they are (`Access.edits`).
-/
namespace ApiCatalog

namespace Memory

/-- Where a store keeps an object: its kind and its key. -/
inductive Address where
  | entry (key : ObjectKey)
  | exported (key : ObjectKey)
  | binding (key : ObjectKey)
  deriving DecidableEq

def Object.address : Object → Address
  | entry key _ => .entry key
  | exported key _ => .exported key
  | binding key _ => .binding key

/-- The object that is stored there. -/
def at? (s : Memory) : Address → Option Object
  | .entry key => (s.entries.get? key).map (.entry key)
  | .exported key => (s.exports.get? key).map (.exported key)
  | .binding key => (s.bindings.get? key).map (.binding key)

/-- What was done to one object. -/
inductive Edit where
  | put (o : Object)
  | remove (address : Address)

namespace Edit

def address : Edit → Address
  | put o => o.address
  | remove address => address

/-- The object that is there afterwards. -/
def object? : Edit → Option Object
  | put o => some o
  | remove _ => none

/-- What the feed says of the edit. Only for entries it tells a removal from other changes. -/
def event : Edit → Event
  | put (.entry key _) => ⟨.entryChanged, key⟩
  | remove (.entry key) => ⟨.entryDeleted, key⟩
  | put (.exported key _) => ⟨.exportChanged, key⟩
  | remove (.exported key) => ⟨.exportChanged, key⟩
  | put (.binding key _) => ⟨.bindingChanged, key⟩
  | remove (.binding key) => ⟨.bindingChanged, key⟩

/-- What is found at each address after the edit. -/
def on (edit : Edit) (found : Address → Option Object) : Address → Option Object :=
  Function.update found edit.address edit.object?

end Edit
end Memory

/-- The address of the object that an event is about. -/
def Event.address (event : Event) : Memory.Address :=
  match event.change with
  | .entryChanged => .entry event.key
  | .entryDeleted => .entry event.key
  | .exportChanged => .exported event.key
  | .bindingChanged => .binding event.key

namespace Memory

namespace Edit

@[simp] theorem address_event (edit : Edit) : edit.event.address = edit.address := by
  rcases edit with (_ | _ | _) | (_ | _ | _) <;> rfl

/-- Of all edits of an entry only its removal is published as a deletion. -/
theorem change_event_iff {edit : Edit} {key : ObjectKey} (here : edit.address = .entry key) :
    edit.event.change = .entryDeleted ↔ edit = .remove (.entry key) := by
  rcases edit with (_ | _ | _) | (_ | _ | _) <;> cases here <;> simp [event]

theorem object?_eq_none_iff {edit : Edit} {address : Address} (here : edit.address = address) :
    edit.object? = none ↔ edit = .remove address := by
  cases edit with
  | put o => simp [object?]
  | remove other =>
    cases here
    simp [object?, Edit.address]

end Edit

/-- The edit that a mutation has made by its own answer: the object that it gives back is stored,
what it says was there is removed, and with an error nothing is done. -/
def Mutation.edit? : Mutation → Memory → Option Edit
  | putEntry partition entry, s =>
    some (.put (.entry (Stored.key partition entry) (s.putEntry partition entry).1))
  | deleteEntry partition name, s =>
    if (s.deleteEntry partition name).1 then some (.remove (.entry (.cluster partition name)))
    else none
  | putExport partition e, s =>
    some (.put (.exported (Stored.key partition e) (s.putExport partition e).1))
  | deleteExport key, s =>
    if (s.deleteExport key).1 then some (.remove (.exported key)) else none
  | putBinding partition binding, s =>
    some (.put (.binding (Stored.key partition binding) (s.putBinding partition binding).1))
  | setPhase partition name phase, s =>
    (s.setPhase partition name phase).1.toOption.map fun moved =>
      .put (.binding (.cluster partition name) moved)
  | createBinding suffix partition binding, s =>
    (s.createBinding suffix partition binding).1.toOption.map fun created =>
      .put (.binding (Stored.key partition created) created)
  | updateEntryStatus partition entry, s =>
    (s.updateEntryStatus partition entry).1.toOption.map fun updated =>
      .put (.entry (Stored.key partition entry) updated)

/-- All that is done to a store: operations, taking back what could not be saved, and calls. -/
inductive Access where
  | operate (op : Operation)
  | undoStatus (partition : Partition) (previous : CatalogEntry)
  | undoBinding (partition : Partition) (name : String)
  /-- The suffix is for a binding without a name. -/
  | call (suffix : String) (call : Call)

/-- The mutation that a call asks for, unless it is a read. -/
def mutation? (suffix : String) : Call → Option Mutation
  | .updateEntryStatus partition entry => some (.updateEntryStatus partition entry)
  | .createBinding partition binding =>
    some (.createBinding (if needsName binding then suffix else "") partition binding)
  | _ => none

namespace Access

def apply : Access → Memory → Memory
  | operate op, s => op.apply s
  | undoStatus partition previous, s => s.undoStatus partition previous
  | undoBinding partition name, s => s.undoBinding partition name
  | call suffix c, s => ((answer (pure suffix) c : StateM Memory c.Answer) s).2

/-- The edit that is made, if any. Setting faults and reading edit nothing. -/
def edit? : Access → Memory → Option Edit
  | operate (.mutate m), s => m.edit? s
  | operate (.failExport ..), _ => none
  | operate (.clearFault _), _ => none
  | undoStatus partition previous, _ =>
    some (.put (.entry (Stored.key partition previous) previous))
  | undoBinding partition name, s =>
    if s.bindings.contains (.cluster partition name) then
      some (.remove (.binding (.cluster partition name)))
    else none
  | call suffix c, s => (mutation? suffix c).bind (·.edit? s)

end Access

/-- From `s` to `s'` that edit was made and published, and nothing else. -/
structure Edits (s s' : Memory) (edit : Option Edit) : Prop where
  published : s'.published = s.published ++ edit.toList.map Edit.event
  objects : s'.at? = edit.elim s.at? fun edit => edit.on s.at?
  existed : ∀ {address}, edit = some (.remove address) → (s.at? address).isSome

section Tables

variable {s s' : Memory}

theorem at?_congr (entries : s'.entries = s.entries) (exports : s'.exports = s.exports)
    (bindings : s'.bindings = s.bindings) : s'.at? = s.at? := by
  funext address
  cases address <;> simp only [at?, entries, exports, bindings]

theorem Edits.of_same (published : s'.published = s.published) (entries : s'.entries = s.entries)
    (exports : s'.exports = s.exports) (bindings : s'.bindings = s.bindings) :
    Edits s s' none where
  published := published.trans (List.append_nil _).symm
  objects := at?_congr entries exports bindings
  existed := nofun

theorem at?_of_entry {key : ObjectKey} {e : Option CatalogEntry}
    (entries : ∀ k, s'.entries.get? k = if k = key then e else s.entries.get? k)
    (exports : s'.exports = s.exports) (bindings : s'.bindings = s.bindings) :
    s'.at? = Function.update s.at? (.entry key) (e.map (.entry key)) := by
  funext address
  rw [Function.update_apply]
  cases address with
  | entry k =>
    by_cases same : k = key
    · simp [at?, entries, same]
    · simp [at?, entries, same]
  | exported k => simp [at?, exports]
  | binding k => simp [at?, bindings]

theorem at?_of_export {key : ObjectKey} {e : Option ApiExport}
    (entries : s'.entries = s.entries)
    (exports : ∀ k, s'.exports.get? k = if k = key then e else s.exports.get? k)
    (bindings : s'.bindings = s.bindings) :
    s'.at? = Function.update s.at? (.exported key) (e.map (.exported key)) := by
  funext address
  rw [Function.update_apply]
  cases address with
  | entry k => simp [at?, entries]
  | exported k =>
    by_cases same : k = key
    · simp [at?, exports, same]
    · simp [at?, exports, same]
  | binding k => simp [at?, bindings]

theorem at?_of_binding {key : ObjectKey} {b : Option ApiBinding}
    (entries : s'.entries = s.entries) (exports : s'.exports = s.exports)
    (bindings : ∀ k, s'.bindings.get? k = if k = key then b else s.bindings.get? k) :
    s'.at? = Function.update s.at? (.binding key) (b.map (.binding key)) := by
  funext address
  rw [Function.update_apply]
  cases address with
  | entry k => simp [at?, entries]
  | exported k => simp [at?, exports]
  | binding k =>
    by_cases same : k = key
    · simp [at?, bindings, same]
    · simp [at?, bindings, same]

section Puts

variable {key : ObjectKey}

theorem Edits.of_put {o : Object}
    (published : s'.published = s.published ++ [(Edit.put o).event])
    (objects : s'.at? = (Edit.put o).on s.at?) : Edits s s' (some (.put o)) where
  published
  objects
  existed := nofun

theorem Edits.of_entryPut {e : CatalogEntry}
    (published : s'.published = s.published ++ [⟨.entryChanged, key⟩])
    (entries : s'.entries = s.entries.insert key e) (exports : s'.exports = s.exports)
    (bindings : s'.bindings = s.bindings) : Edits s s' (some (.put (.entry key e))) :=
  have placed := at?_of_entry (e := some e) (fun k => by rw [entries, Table.get?_insert])
    exports bindings
  .of_put published placed

theorem Edits.of_exportPut {e : ApiExport}
    (published : s'.published = s.published ++ [⟨.exportChanged, key⟩])
    (entries : s'.entries = s.entries) (exports : s'.exports = s.exports.insert key e)
    (bindings : s'.bindings = s.bindings) : Edits s s' (some (.put (.exported key e))) :=
  have placed := at?_of_export (e := some e) entries
    (fun k => by rw [exports, Table.get?_insert]) bindings
  .of_put published placed

theorem Edits.of_bindingPut {b : ApiBinding}
    (published : s'.published = s.published ++ [⟨.bindingChanged, key⟩])
    (entries : s'.entries = s.entries) (exports : s'.exports = s.exports)
    (bindings : s'.bindings = s.bindings.insert key b) :
    Edits s s' (some (.put (.binding key b))) :=
  have placed := at?_of_binding (b := some b) entries exports
    fun k => by rw [bindings, Table.get?_insert]
  .of_put published placed

end Puts

section Removals

variable {key : ObjectKey}

theorem Edits.of_removed {address : Address} (there : (s.at? address).isSome)
    (published : s'.published = s.published ++ [(Edit.remove address).event])
    (objects : s'.at? = (Edit.remove address).on s.at?) :
    Edits s s' (some (.remove address)) where
  published
  objects
  existed := by
    rintro address ⟨⟩
    exact there

theorem Edits.of_entryRemoved (there : s.entries.contains key = true)
    (published : s'.published = s.published ++ [⟨.entryDeleted, key⟩])
    (entries : s'.entries = s.entries.erase key) (exports : s'.exports = s.exports)
    (bindings : s'.bindings = s.bindings) : Edits s s' (some (.remove (.entry key))) :=
  have cleared := at?_of_entry (e := none) (fun k => by rw [entries, Table.get?_erase])
    exports bindings
  .of_removed (by simpa [at?, Table.contains] using there) published cleared

theorem Edits.of_exportRemoved (there : s.exports.contains key = true)
    (published : s'.published = s.published ++ [⟨.exportChanged, key⟩])
    (entries : s'.entries = s.entries) (exports : s'.exports = s.exports.erase key)
    (bindings : s'.bindings = s.bindings) : Edits s s' (some (.remove (.exported key))) :=
  have cleared := at?_of_export (e := none) entries
    (fun k => by rw [exports, Table.get?_erase]) bindings
  .of_removed (by simpa [at?, Table.contains] using there) published cleared

theorem Edits.of_bindingRemoved (there : s.bindings.contains key = true)
    (published : s'.published = s.published ++ [⟨.bindingChanged, key⟩])
    (entries : s'.entries = s.entries) (exports : s'.exports = s.exports)
    (bindings : s'.bindings = s.bindings.erase key) :
    Edits s s' (some (.remove (.binding key))) :=
  have cleared := at?_of_binding (b := none) entries exports
    fun k => by rw [bindings, Table.get?_erase]
  .of_removed (by simpa [at?, Table.contains] using there) published cleared

end Removals

end Tables

section Each

variable (s : Memory)

theorem edits_updateEntryStatus (partition : Partition) (entry : CatalogEntry) :
    Edits s (s.updateEntryStatus partition entry).2
      ((Mutation.updateEntryStatus partition entry).edit? s) := by
  unfold Mutation.edit? updateEntryStatus
  dsimp only
  split
  · exact .of_same rfl rfl rfl rfl
  · split
    · exact .of_entryPut rfl rfl rfl rfl
    · exact .of_same rfl rfl rfl rfl

/-- A mutation does what its answer says. -/
theorem Mutation.edits (m : Mutation) : Edits s (m.apply s) (m.edit? s) := by
  cases m with
  | putEntry partition entry => exact .of_entryPut rfl rfl rfl rfl
  | deleteEntry partition name =>
    simp only [apply, edit?, Memory.deleteEntry]
    split
    next there => exact .of_entryRemoved there rfl rfl rfl rfl
    · exact .of_same rfl rfl rfl rfl
  | putExport partition e => exact .of_exportPut rfl rfl rfl rfl
  | deleteExport key =>
    simp only [apply, edit?, Memory.deleteExport]
    split
    next there => exact .of_exportRemoved there rfl rfl rfl rfl
    · exact .of_same rfl rfl rfl rfl
  | putBinding partition binding => exact .of_bindingPut rfl rfl rfl rfl
  | setPhase partition name phase =>
    simp only [apply, edit?, Memory.setPhase]
    split
    · exact .of_same rfl rfl rfl rfl
    · exact .of_bindingPut rfl rfl rfl rfl
  | createBinding suffix partition binding =>
    simp only [apply, edit?]
    rcases createBinding_cases s suffix partition binding with ⟨e, refused⟩ | ⟨created, done, -⟩
    · rw [refused]
      exact .of_same rfl rfl rfl rfl
    · rw [done]
      exact .of_bindingPut rfl rfl rfl rfl
  | updateEntryStatus partition entry => exact edits_updateEntryStatus s partition entry

theorem apply_call (suffix : String) (c : Call) :
    (Access.call suffix c).apply s = ((mutation? suffix c).map fun m => m.apply s).getD s := by
  cases c with
  | createBinding partition binding =>
    simp only [Access.apply, mutation?, answer]
    split <;> rfl
  | getEntry => rfl
  | listEntries => rfl
  | getExport => rfl
  | updateEntryStatus => rfl
  | listBindings => rfl
  | getBinding => rfl

/-- Whatever is done to a store does what its answer says. -/
theorem Access.edits (access : Access) : Edits s (access.apply s) (access.edit? s) := by
  cases access with
  | operate op =>
    cases op with
    | mutate m => exact m.edits s
    | failExport key e => exact .of_same rfl rfl rfl rfl
    | clearFault key => exact .of_same rfl rfl rfl rfl
  | undoStatus partition previous => exact .of_entryPut rfl rfl rfl rfl
  | undoBinding partition name =>
    simp only [apply, edit?, Memory.undoBinding]
    split
    next there => exact .of_bindingRemoved there rfl rfl rfl rfl
    · exact .of_same rfl rfl rfl rfl
  | call suffix c =>
    rw [apply_call]
    change Edits s _ ((mutation? suffix c).bind (·.edit? s))
    cases mutation? suffix c with
    | none => exact .of_same rfl rfl rfl rfl
    | some m => exact m.edits s

end Each
end Memory
end ApiCatalog
