import ApiCatalog.Proofs.Store.Edit
import ApiCatalog.Proofs.Store.Listing
import ApiCatalog.Proofs.Store.StatusWrite

/-!
# A store as maps

A store reads like one finite map for each kind of object. Main statement: an operation shows in the
reads of its own key alone, where it shows as what the operation has given back; one that fails
shows nowhere; and the lists of a partition have what its reads find, in the order of the names
(`reads_follow_operations`).
-/
namespace ApiCatalog
namespace Memory

/-- What a read asks for: an object of a kind, by its partition and its name. -/
inductive Site where
  | entry (partition : Partition) (name : String)
  | exported (partition : Partition) (nameSpace : Option String) (name : String)
  | binding (partition : Partition) (name : String)
  deriving DecidableEq

namespace Site

def address : Site → Address
  | entry partition name => .entry (.cluster partition name)
  | exported partition nameSpace name => .exported ⟨partition, nameSpace, name⟩
  | binding partition name => .binding (.cluster partition name)

/-- The site of an export by its key. -/
def ofKey (key : ObjectKey) : Site := exported key.partition key.nameSpace key.name

/-- What a read of the site fails with if nothing is there. -/
def missing : Site → StoreError
  | entry partition name => .notFound entryKind (ObjectKey.cluster partition name).display
  | exported partition nameSpace name =>
    .notFound exportKind (ObjectKey.mk partition nameSpace name).display
  | binding partition name => .notFound bindingKind (ObjectKey.cluster partition name).display

@[simp] theorem address_ofKey (key : ObjectKey) : (ofKey key).address = .exported key := rfl

theorem address_inj {a b : Site} : a.address = b.address ↔ a = b := by
  constructor
  · intro same
    cases a <;> cases b <;> simp_all [address, ObjectKey.cluster]
  · exact congrArg address

end Site

section Reads

/-- Reads one object. -/
def read (s : Memory) : Site → Except StoreError Object
  | .entry partition name => (s.getEntry partition name).map (.entry (.cluster partition name))
  | .exported partition nameSpace name =>
    (s.getExport ⟨partition, nameSpace, name⟩).map (.exported ⟨partition, nameSpace, name⟩)
  | .binding partition name =>
    (s.getBinding partition name).map (.binding (.cluster partition name))

/-- The fault that a read of the site meets. Only look-ups of exports are made to fail. -/
def fault? (s : Memory) : Site → Option StoreError
  | .exported partition nameSpace name => s.faults.get? ⟨partition, nameSpace, name⟩
  | _ => none

variable {s s' : Memory} {site : Site}

theorem read_eq (s : Memory) (site : Site) :
    s.read site = match s.fault? site, s.at? site.address with
      | some fault, _ => .error fault
      | none, some o => .ok o
      | none, none => .error site.missing := by
  cases site with
  | entry partition name =>
    simp only [read, fault?, at?, Site.address, getEntry]
    cases s.entries.get? (.cluster partition name) <;> rfl
  | exported partition nameSpace name =>
    simp only [read, fault?, at?, Site.address, getExport]
    cases s.faults.get? ⟨partition, nameSpace, name⟩ with
    | some fault => rfl
    | none => cases s.exports.get? ⟨partition, nameSpace, name⟩ <;> rfl
  | binding partition name =>
    simp only [read, fault?, at?, Site.address, getBinding]
    cases s.bindings.get? (.cluster partition name) <;> rfl

/-- A read depends on the fault and the object of its site. -/
theorem read_congr (faults : s'.fault? site = s.fault? site)
    (objects : s'.at? site.address = s.at? site.address) : s'.read site = s.read site := by
  rw [read_eq, read_eq, faults, objects]

theorem read_of_some {o : Object} (faultless : s.fault? site = none)
    (there : s.at? site.address = some o) : s.read site = .ok o := by
  rw [read_eq, faultless, there]

theorem read_of_none (faultless : s.fault? site = none) (gone : s.at? site.address = none) :
    s.read site = .error site.missing := by
  rw [read_eq, faultless, gone]

end Reads

section Sites

/-- The name under which a binding is created. -/
def nameFor (suffix : String) (binding : ApiBinding) : String :=
  if binding.metadata.name = "" then binding.metadata.generateName ++ suffix
  else binding.metadata.name

/-- The key that a mutation is about. -/
def Mutation.site : Mutation → Site
  | putEntry partition entry => .entry partition entry.name
  | deleteEntry partition name => .entry partition name
  | putExport partition e => .exported partition e.metadata.nameSpace e.metadata.name
  | deleteExport key => .ofKey key
  | putBinding partition binding => .binding partition binding.metadata.name
  | setPhase partition name _ => .binding partition name
  | createBinding suffix partition binding => .binding partition (nameFor suffix binding)
  | updateEntryStatus partition entry => .entry partition entry.name

/-- The key that an access is about, unless it only reads. -/
def Access.site? : Access → Option Site
  | operate (.mutate m) => some m.site
  | operate (.failExport key _) => some (.ofKey key)
  | operate (.clearFault key) => some (.ofKey key)
  | undoStatus partition previous => some (.entry partition previous.name)
  | undoBinding partition name => some (.binding partition name)
  | call suffix c => (mutation? suffix c).map Mutation.site

variable {s : Memory}

theorem key_of_created {suffix : String} {partition : Partition} {binding created : ApiBinding}
    (done : (s.createBinding suffix partition binding).1 = .ok created) :
    Stored.key partition created = .cluster partition (nameFor suffix binding) := by
  unfold createBinding at done
  extract_lets metadata name key at done
  split at done
  · cases done
  · split at done
    · cases done
    · obtain rfl := Except.ok.inj done
      rfl

end Sites

section Answers

/-- What a mutation gives back. -/
inductive Reply where
  /-- The object as it is stored now. -/
  | stored (o : Object)
  /-- Whether there was something to delete. -/
  | removed (there : Bool)
  | refused (e : StoreError)

def Reply.ofResult {α : Type} (place : α → Object) : Except StoreError α → Reply
  | .ok a => stored (place a)
  | .error e => refused e

section Results

variable {α : Type} {place : α → Object} {result : Except StoreError α}

theorem Reply.ofResult_eq_stored {o : Object} (replied : ofResult place result = stored o) :
    ∃ a, result = .ok a ∧ place a = o := by
  cases result with
  | ok a => exact ⟨a, rfl, stored.inj replied⟩
  | error e => cases replied

theorem Reply.ofResult_ne_removed {there : Bool} : ofResult place result ≠ removed there := by
  cases result <;> exact nofun

theorem Reply.ofResult_eq_refused {e : StoreError} :
    ofResult place result = refused e ↔ result = .error e := by
  cases result <;> simp [ofResult]

end Results

def Mutation.reply : Mutation → Memory → Reply
  | putEntry partition entry, s =>
    .stored (.entry (.cluster partition entry.name) (s.putEntry partition entry).1)
  | deleteEntry partition name, s => .removed (s.deleteEntry partition name).1
  | putExport partition e, s =>
    .stored (.exported ⟨partition, e.metadata.nameSpace, e.metadata.name⟩
      (s.putExport partition e).1)
  | deleteExport key, s => .removed (s.deleteExport key).1
  | putBinding partition binding, s =>
    .stored (.binding (.cluster partition binding.metadata.name) (s.putBinding partition binding).1)
  | setPhase partition name phase, s =>
    .ofResult (.binding (.cluster partition name)) (s.setPhase partition name phase).1
  | createBinding suffix partition binding, s =>
    .ofResult (.binding (.cluster partition (nameFor suffix binding)))
      (s.createBinding suffix partition binding).1
  | updateEntryStatus partition entry, s =>
    .ofResult (.entry (.cluster partition entry.name)) (s.updateEntryStatus partition entry).1

/-- The errors of mutations. -/
inductive Mutation.Fails : Mutation → StoreError → Prop where
  | noEntry (partition : Partition) (entry : CatalogEntry) :
      Fails (.updateEntryStatus partition entry)
        (.notFound entryKind (Stored.key partition entry).display)
  | conflict (partition : Partition) (entry : CatalogEntry) (actual : Version) :
      actual ≠ entry.metadata.version → Fails (.updateEntryStatus partition entry)
        (.conflict entryKind (Stored.key partition entry).display entry.metadata.version actual)
  | noBinding (partition : Partition) (name : String) (phase : BindingPhase) :
      Fails (.setPhase partition name phase)
        (.notFound bindingKind (ObjectKey.cluster partition name).display)
  | nameless (suffix : String) (partition : Partition) (binding : ApiBinding) :
      Fails (.createBinding suffix partition binding)
        (.invalid bindingKind "neither name nor generateName is set")
  | taken (suffix : String) (partition : Partition) (binding : ApiBinding) :
      Fails (.createBinding suffix partition binding)
        (.alreadyExists bindingKind (ObjectKey.cluster partition (nameFor suffix binding)).display)

variable {s : Memory} {m : Mutation}

theorem Mutation.edit?_eq (m : Mutation) (s : Memory) :
    m.edit? s = match m.reply s with
      | .stored o => some (.put o)
      | .removed true => some (.remove m.site.address)
      | _ => none := by
  cases m with
  | putEntry partition entry => rfl
  | deleteEntry partition name =>
    simp only [edit?, reply, site]
    cases (s.deleteEntry partition name).1 <;> rfl
  | putExport partition e => rfl
  | deleteExport key =>
    simp only [edit?, reply, site]
    cases (s.deleteExport key).1 <;> rfl
  | putBinding partition binding => rfl
  | setPhase partition name phase =>
    simp only [edit?, reply]
    cases (s.setPhase partition name phase).1 <;> rfl
  | createBinding suffix partition binding =>
    simp only [edit?, reply]
    cases done : (s.createBinding suffix partition binding).1 with
    | error e => rfl
    | ok created => simp [Except.toOption, Reply.ofResult, key_of_created done]
  | updateEntryStatus partition entry =>
    simp only [edit?, reply]
    cases (s.updateEntryStatus partition entry).1 <;> rfl

/-- The object that is given back is of the key that the mutation is about. -/
theorem Mutation.address_of_stored {o : Object} (replied : m.reply s = .stored o) :
    o.address = m.site.address := by
  cases m with
  | putEntry | putExport | putBinding =>
    cases replied
    rfl
  | deleteEntry | deleteExport => cases replied
  | setPhase | createBinding | updateEntryStatus =>
    obtain ⟨a, -, rfl⟩ := Reply.ofResult_eq_stored replied
    rfl

theorem Mutation.address_edit? {edit : Edit} (edited : m.edit? s = some edit) :
    edit.address = m.site.address := by
  rw [Mutation.edit?_eq] at edited
  split at edited
  next o replied =>
    obtain rfl := Option.some.inj edited
    exact address_of_stored replied
  · obtain rfl := Option.some.inj edited
    rfl
  · cases edited

/-- What was not there to be deleted is not there afterwards either. -/
theorem Mutation.absent_of_removed_false (replied : m.reply s = .removed false) :
    s.at? m.site.address = none := by
  cases m with
  | putEntry | putExport | putBinding => cases replied
  | deleteEntry partition name =>
    simp only [reply, Memory.deleteEntry, Reply.removed.injEq] at replied
    split at replied
    · cases replied
    next missing => simpa [at?, site, Site.address, Table.contains] using missing
  | deleteExport key =>
    simp only [reply, Memory.deleteExport, Reply.removed.injEq] at replied
    split at replied
    · cases replied
    next missing => simpa [at?, site, Table.contains] using missing
  | setPhase | createBinding | updateEntryStatus =>
    exact absurd replied Reply.ofResult_ne_removed

end Answers

section Refusals

variable {s : Memory} {partition : Partition} {e : StoreError}

theorem refused_setPhase {name : String} {phase : BindingPhase}
    (refused : (s.setPhase partition name phase).1 = .error e) :
    (Mutation.setPhase partition name phase).Fails e ∧
      (s.setPhase partition name phase).2 = s.bump := by
  unfold setPhase at refused ⊢
  dsimp only at refused ⊢
  split at refused
  · obtain rfl := Except.error.inj refused
    exact ⟨.noBinding partition name phase, rfl⟩
  · cases refused

theorem refused_createBinding {suffix : String} {binding : ApiBinding}
    (refused : (s.createBinding suffix partition binding).1 = .error e) :
    (Mutation.createBinding suffix partition binding).Fails e ∧
      (s.createBinding suffix partition binding).2 = s := by
  constructor
  · unfold createBinding at refused
    extract_lets metadata name key at refused
    split at refused
    · obtain rfl := Except.error.inj refused
      exact .nameless ..
    · split at refused
      · obtain rfl := Except.error.inj refused
        exact .taken ..
      · cases refused
  · rcases createBinding_cases s suffix partition binding with ⟨other, same⟩ | ⟨created, done, -⟩
    · rw [same]
    · rw [done] at refused
      cases refused

theorem refused_updateEntryStatus {entry : CatalogEntry}
    (refused : (s.updateEntryStatus partition entry).1 = .error e) :
    (Mutation.updateEntryStatus partition entry).Fails e ∧
      (s.updateEntryStatus partition entry).2 = s.bump := by
  cases found : s.entries.get? (Stored.key partition entry) with
  | none =>
    rw [updateEntryStatus_of_missing found] at refused ⊢
    obtain rfl := Except.error.inj refused
    exact ⟨.noEntry partition entry, rfl⟩
  | some stored =>
    by_cases current : entry.metadata.version = stored.metadata.version
    · rw [updateEntryStatus_of_current found current] at refused
      cases refused
    · rw [updateEntryStatus_of_stale found current] at refused ⊢
      obtain rfl := Except.error.inj refused
      exact ⟨.conflict partition entry _ (Ne.symm current), rfl⟩

/-- A mutation that is refused changes nothing, but it may have used up a version. -/
theorem Mutation.refused {m : Mutation} (replied : m.reply s = .refused e) :
    m.Fails e ∧ m.apply s = { s with lastVersion := (m.apply s).lastVersion } := by
  cases m with
  | putEntry | putExport | putBinding | deleteEntry | deleteExport => cases replied
  | setPhase partition name phase =>
    obtain ⟨fails, same⟩ := refused_setPhase (Reply.ofResult_eq_refused.1 replied)
    exact ⟨fails, by rw [apply, same, bump]⟩
  | createBinding suffix partition binding =>
    obtain ⟨fails, same⟩ := refused_createBinding (Reply.ofResult_eq_refused.1 replied)
    exact ⟨fails, by rw [apply, same]⟩
  | updateEntryStatus partition entry =>
    obtain ⟨fails, same⟩ := refused_updateEntryStatus (Reply.ofResult_eq_refused.1 replied)
    exact ⟨fails, by rw [apply, same, bump]⟩

end Refusals

section Frame

variable {s : Memory} {access : Access}

theorem Access.address_edit? {edit : Edit} (edited : access.edit? s = some edit) :
    ∃ site, access.site? = some site ∧ edit.address = site.address := by
  cases access with
  | operate op =>
    cases op with
    | mutate m => exact ⟨_, rfl, Mutation.address_edit? edited⟩
    | failExport | clearFault => cases edited
  | undoStatus partition previous =>
    cases edited
    exact ⟨_, rfl, rfl⟩
  | undoBinding partition name =>
    simp only [edit?] at edited
    split at edited
    · cases edited
      exact ⟨_, rfl, rfl⟩
    · cases edited
  | call suffix c =>
    obtain ⟨m, asked, edited⟩ := Option.bind_eq_some_iff.1 edited
    exact ⟨m.site, by rw [site?, asked]; rfl, Mutation.address_edit? edited⟩

/-- An object that the access is not about is left as it is. -/
theorem Access.at?_apply {address : Address}
    (apart : ∀ site, access.site? = some site → site.address ≠ address) :
    (access.apply s).at? address = s.at? address := by
  rw [(access.edits s).objects]
  cases edited : access.edit? s with
  | none => rfl
  | some edit =>
    obtain ⟨site, about, same⟩ := Access.address_edit? edited
    refine Function.update_of_ne (fun here => apart site about ?_) ..
    rw [← same, here]

theorem Mutation.fault?_apply (m : Mutation) (s : Memory) (site : Site) :
    (m.apply s).fault? site = s.fault? site := by
  obtain ⟨news, told⟩ := m.announces s
  cases site <;> simp only [fault?, told.faults]

/-- Faults of other exports stay; only what is done to faults has to be looked at. -/
theorem Access.fault?_apply {site : Site} (apart : access.site? ≠ some site) :
    (access.apply s).fault? site = s.fault? site := by
  cases access with
  | operate op =>
    cases op with
    | mutate m => exact m.fault?_apply s site
    | failExport key e =>
      cases site with
      | entry | binding => rfl
      | exported partition nameSpace name =>
        refine Table.get?_insert_ne fun same => apart ?_
        rw [site?, ← same]
        rfl
    | clearFault key =>
      cases site with
      | entry | binding => rfl
      | exported partition nameSpace name =>
        refine (Table.get?_erase ..).trans (if_neg fun same => apart ?_)
        rw [site?, ← same]
        rfl
  | undoStatus partition previous => cases site <;> rfl
  | undoBinding partition name =>
    simp only [apply, Memory.undoBinding]
    split <;> cases site <;> rfl
  | call suffix c =>
    rw [apply_call]
    cases mutation? suffix c with
    | none => rfl
    | some m => exact m.fault?_apply s site

theorem Access.read_apply {site : Site} (apart : access.site? ≠ some site) :
    (access.apply s).read site = s.read site :=
  read_congr (Access.fault?_apply apart) (Access.at?_apply fun _ about same =>
    apart (about.trans (congrArg some (Site.address_inj.1 same))))

variable {partition : Partition}

theorem Access.listEntries_apply (apart : ∀ name, access.site? ≠ some (.entry partition name)) :
    (access.apply s).listEntries partition = s.listEntries partition := by
  refine listed_congr fun key inside => ?_
  -- No access is about a key with a namespace, so any key of the partition is left alone.
  have kept : (access.apply s).at? (.entry key) = s.at? (.entry key) := by
    refine Access.at?_apply fun site about same => ?_
    cases site with
    | entry other name =>
      cases Address.entry.inj same
      exact apart name (inside ▸ about)
    | exported | binding => cases same
  exact Option.map_injective (fun _ _ same => (Object.entry.inj same).2) kept

theorem Access.listBindings_apply
    (apart : ∀ name, access.site? ≠ some (.binding partition name)) :
    (access.apply s).listBindings partition = s.listBindings partition := by
  refine listed_congr fun key inside => ?_
  have kept : (access.apply s).at? (.binding key) = s.at? (.binding key) := by
    refine Access.at?_apply fun site about same => ?_
    cases site with
    | binding other name =>
      cases Address.binding.inj same
      exact apart name (inside ▸ about)
    | exported | entry => cases same
  exact Option.map_injective (fun _ _ same => (Object.binding.inj same).2) kept

end Frame

section Written

variable {s : Memory} {m : Mutation}

theorem Mutation.read_of_stored {o : Object} (replied : m.reply s = .stored o)
    (faultless : s.fault? m.site = none) : (m.apply s).read m.site = .ok o := by
  refine read_of_some ((m.fault?_apply s _).trans faultless) ?_
  rw [(m.edits s).objects, Mutation.edit?_eq, replied, ← Mutation.address_of_stored replied]
  exact Function.update_self ..

theorem Mutation.read_of_removed {there : Bool} (replied : m.reply s = .removed there)
    (faultless : s.fault? m.site = none) : (m.apply s).read m.site = .error m.site.missing := by
  refine read_of_none ((m.fault?_apply s _).trans faultless) ?_
  rw [(m.edits s).objects, Mutation.edit?_eq, replied]
  cases there with
  | true => exact Function.update_self ..
  | false => exact Mutation.absent_of_removed_false replied

end Written

section Lists

variable {s : Memory} {partition : Partition}

theorem Keyed.mem_listEntries_iff_exists (keyed : s.Keyed) {entry : CatalogEntry} :
    entry ∈ s.listEntries partition ↔ ∃ name, s.getEntry partition name = .ok entry := by
  rw [keyed.mem_listEntries_iff]
  refine ⟨fun found => ⟨_, found⟩, ?_⟩
  rintro ⟨name, found⟩
  obtain ⟨rfl, -⟩ := keyed.getEntry_eq_ok_iff.1 found
  exact found

theorem Keyed.mem_listBindings_iff_exists (keyed : s.Keyed) {binding : ApiBinding} :
    binding ∈ s.listBindings partition ↔ ∃ name, s.getBinding partition name = .ok binding := by
  rw [keyed.mem_listBindings_iff]
  refine ⟨fun found => ⟨_, found⟩, ?_⟩
  rintro ⟨name, found⟩
  have own : ObjectKey.cluster partition name = Stored.key partition binding :=
    keyed.bindings _ _ (getBinding_eq_ok.1 found)
  obtain rfl : name = binding.metadata.name := congrArg ObjectKey.name own
  exact found

end Lists

/-- In every store that comes up, whatever is done to it: a read of a key that this is not about
gives what it gave before, the version included, and the lists of a partition are as before if it is
about no key of theirs. A mutation is about one key. What it has stored there, a read of that key
gives, and after a deletion there is nothing, unless look-ups of that export are made to fail; a
mutation that is refused leaves everything as it was, but for the version that comes next. The lists
of a partition have exactly the objects that its reads find, in the order of the names and each
once. -/
theorem reads_follow_operations {s : Memory} (reachable : s.Reachable) :
    (∀ access : Access,
      (∀ site, access.site? ≠ some site → (access.apply s).read site = s.read site) ∧
      (∀ partition, (∀ name, access.site? ≠ some (.entry partition name)) →
        (access.apply s).listEntries partition = s.listEntries partition) ∧
      ∀ partition, (∀ name, access.site? ≠ some (.binding partition name)) →
        (access.apply s).listBindings partition = s.listBindings partition) ∧
    (∀ m : Mutation,
      match m.reply s with
      | .stored o => s.fault? m.site = none → (m.apply s).read m.site = .ok o
      | .removed _ => s.fault? m.site = none → (m.apply s).read m.site = .error m.site.missing
      | .refused e => m.Fails e ∧ m.apply s = { s with lastVersion := (m.apply s).lastVersion }) ∧
    ∀ partition,
      (∀ entry, entry ∈ s.listEntries partition ↔
        ∃ name, s.getEntry partition name = .ok entry) ∧
      (s.listEntries partition).Pairwise (fun a b => a.name < b.name) ∧
      (∀ binding, binding ∈ s.listBindings partition ↔
        ∃ name, s.getBinding partition name = .ok binding) ∧
      (s.listBindings partition).Pairwise fun a b => a.metadata.name < b.metadata.name := by
  have keyed := reachable.keyed
  refine ⟨fun access => ⟨fun _ => Access.read_apply, fun _ => Access.listEntries_apply,
    fun _ => Access.listBindings_apply⟩, fun m => ?_, fun partition => ⟨fun _ =>
    keyed.mem_listEntries_iff_exists, ?_, fun _ => keyed.mem_listBindings_iff_exists, ?_⟩⟩
  · split
    next replied => exact Mutation.read_of_stored replied
    next replied => exact Mutation.read_of_removed replied
    next replied => exact Mutation.refused replied
  · exact keyed.listEntries_sorted.imp compareOfLessAndEq_eq_lt.1
  · exact keyed.listBindings_sorted.imp compareOfLessAndEq_eq_lt.1

namespace Sample

/-- Writes the status of an entry over a version that it does not have. -/
def outdated : Mutation := .updateEntryStatus .root (Stored.withVersion tools 1)

end Sample

/-- The write is refused, and uses up a version; then a deletion shows in the read of its own key
and not in another. -/
theorem reads_follow_operations_sample :
    Sample.outdated.apply Sample.store = { Sample.store with lastVersion := 3 } ∧
    ((Mutation.deleteEntry .root "tools").apply Sample.store).read (.entry .root "tools") =
      .error (.notFound entryKind "root/tools") ∧
    ((Mutation.deleteEntry .root "tools").apply Sample.store).read
        (.exported .root none "widgets") =
      Sample.store.read (.exported .root none "widgets") := by
  obtain ⟨frame, written, -⟩ := reads_follow_operations Sample.reachable
  obtain ⟨others, -⟩ := frame (.operate (.mutate (.deleteEntry .root "tools")))
  refine ⟨(written Sample.outdated).2, ?_, others _ (by decide)⟩
  exact written (.deleteEntry .root "tools") rfl

end Memory
end ApiCatalog
