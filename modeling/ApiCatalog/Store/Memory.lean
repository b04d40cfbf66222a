import ApiCatalog.Store.Call
import ApiCatalog.Store.Feed
import ApiCatalog.Store.Snapshot
import ApiCatalog.Table

/-!
# A store in memory

A `Memory` keeps the objects of each kind in key order and gives every changed object the next
version. A status is written only over the version it was derived from. Every change is published on
the feed; a call that fails changes no object, though it may use up a version.
-/
namespace ApiCatalog

/-- The version after `v`; the largest one is its own successor. -/
def Version.next (v : Version) : Version :=
  if v = 0xffffffffffffffff then v else v + 1

structure Memory where
  entries : Table ObjectKey CatalogEntry
  exports : Table ObjectKey ApiExport
  bindings : Table ObjectKey ApiBinding
  /-- Exports whose look-up fails. -/
  faults : Table ObjectKey StoreError
  lastVersion : Version
  /-- The number of committed status writes. -/
  statusWrites : Nat
  /-- The events published so far, oldest first. -/
  published : List Event
  deriving DecidableEq, Inhabited

namespace Memory

def empty : Memory := ⟨.empty, .empty, .empty, .empty, 0, 0, []⟩

/-- Uses up a version. -/
def bump (s : Memory) : Memory := { s with lastVersion := s.lastVersion.next }

def publish (s : Memory) (change : Change) (key : ObjectKey) : Memory :=
  { s with published := s.published ++ [⟨change, key⟩] }

section Snapshots

variable {α : Type} [Stored α]

/-- The object, under the next version if it has none; and the last version then used. -/
def numbered (last : Version) (a : α) : α × Version :=
  if Stored.version a = 0 then (Stored.withVersion a last.next, last.next) else (a, last)

/-- Numbers the objects in order. -/
def numberAll (last : Version) : List (Placed α) → List (Placed α) × Version
  | [] => ([], last)
  | placed :: rest =>
    let here := numbered last placed.object
    let after := numberAll here.2 rest
    (⟨placed.partition, here.1⟩ :: after.1, after.2)

/-- The objects by key; of objects with the same key the last one counts. -/
def tabulate (list : List (Placed α)) : Table ObjectKey α :=
  .ofRows (list.map fun placed => (placed.key, placed.object))

/-- The objects in key order. -/
def listing (t : Table ObjectKey α) : List (Placed α) :=
  t.rows.map fun row => ⟨row.1.partition, row.2⟩

end Snapshots

/-- The store that holds the objects of a snapshot. Objects without a version get one above all
others, entries first, then exports, then bindings. -/
def ofSnapshot (s : Snapshot) : Memory :=
  let entries := numberAll (s.versions.foldl max 0) s.entries
  let exports := numberAll entries.2 s.exports
  let bindings := numberAll exports.2 s.bindings
  { empty with
    entries := tabulate entries.1
    exports := tabulate exports.1
    bindings := tabulate bindings.1
    lastVersion := bindings.2 }

def snapshot (s : Memory) : Snapshot := ⟨listing s.entries, listing s.exports, listing s.bindings⟩

/-- Creates or replaces an entry, its status included. -/
def putEntry (s : Memory) (partition : Partition) (entry : CatalogEntry) : CatalogEntry × Memory :=
  let s := s.bump
  let key := Stored.key partition entry
  let stored := Stored.withVersion entry s.lastVersion
  (stored, { s with entries := s.entries.insert key stored }.publish .entryChanged key)

/-- Whether there was such an entry. -/
def deleteEntry (s : Memory) (partition : Partition) (name : String) : Bool × Memory :=
  let key := ObjectKey.cluster partition name
  if s.entries.contains key then
    (true, { s with entries := s.entries.erase key }.publish .entryDeleted key)
  else (false, s)

def putExport (s : Memory) (partition : Partition) (e : ApiExport) : ApiExport × Memory :=
  let s := s.bump
  let key := Stored.key partition e
  let stored := Stored.withVersion e s.lastVersion
  (stored, { s with exports := s.exports.insert key stored }.publish .exportChanged key)

/-- Whether there was such an export. -/
def deleteExport (s : Memory) (key : ObjectKey) : Bool × Memory :=
  if s.exports.contains key then
    (true, { s with exports := s.exports.erase key }.publish .exportChanged key)
  else (false, s)

def putBinding (s : Memory) (partition : Partition) (binding : ApiBinding) : ApiBinding × Memory :=
  let s := s.bump
  let key := Stored.key partition binding
  let stored := Stored.withVersion binding s.lastVersion
  (stored, { s with bindings := s.bindings.insert key stored }.publish .bindingChanged key)

/-- Moves a binding to another phase; a version is used up even if there is no such binding. -/
def setPhase (s : Memory) (partition : Partition) (name : String) (phase : BindingPhase) :
    Except StoreError ApiBinding × Memory :=
  let s := s.bump
  let key := ObjectKey.cluster partition name
  match s.bindings.get? key with
  | none => (.error (.notFound bindingKind key.display), s)
  | some binding =>
    let stored := Stored.withVersion { binding with phase := phase } s.lastVersion
    (.ok stored, { s with bindings := s.bindings.insert key stored }.publish .bindingChanged key)

/-- Lets every look-up of the export fail. -/
def failExport (s : Memory) (key : ObjectKey) (e : StoreError) : Memory :=
  { s with faults := s.faults.insert key e }

def clearFault (s : Memory) (key : ObjectKey) : Memory :=
  { s with faults := s.faults.erase key }

def getEntry (s : Memory) (partition : Partition) (name : String) :
    Except StoreError CatalogEntry :=
  let key := ObjectKey.cluster partition name
  match s.entries.get? key with
  | some entry => .ok entry
  | none => .error (.notFound entryKind key.display)

/-- The entries of a partition, in name order. -/
def listEntries (s : Memory) (partition : Partition) : List CatalogEntry :=
  (s.entries.filter fun key _ => key.partition == partition).values

/-- A fault comes before the export itself. -/
def getExport (s : Memory) (key : ObjectKey) : Except StoreError ApiExport :=
  match s.faults.get? key with
  | some fault => .error fault
  | none =>
    match s.exports.get? key with
    | some e => .ok e
    | none => .error (.notFound exportKind key.display)

/-- Replaces the status of the stored entry if it has the version of the given one. -/
def updateEntryStatus (s : Memory) (partition : Partition) (entry : CatalogEntry) :
    Except StoreError CatalogEntry × Memory :=
  let s := s.bump
  let key := Stored.key partition entry
  match s.entries.get? key with
  | none => (.error (.notFound entryKind key.display), s)
  | some stored =>
    let expected := entry.metadata.version
    let actual := stored.metadata.version
    if expected = actual then
      let updated := Stored.withVersion { stored with status := entry.status } s.lastVersion
      (.ok updated,
        { s with
          entries := s.entries.insert key updated
          statusWrites := s.statusWrites + 1 }.publish .entryChanged key)
    else (.error (.conflict entryKind key.display expected actual), s)

/-- The bindings of a partition, in name order. -/
def listBindings (s : Memory) (partition : Partition) : List ApiBinding :=
  (s.bindings.filter fun key _ => key.partition == partition).values

def getBinding (s : Memory) (partition : Partition) (name : String) :
    Except StoreError ApiBinding :=
  let key := ObjectKey.cluster partition name
  match s.bindings.get? key with
  | some binding => .ok binding
  | none => .error (.notFound bindingKind key.display)

/-- Whether the store has to make up a name for the binding. -/
def needsName (binding : ApiBinding) : Bool :=
  binding.metadata.name == "" && binding.metadata.generateName != ""

/-- Creates a binding under a name that no other binding of the partition has. A name is generated
by putting `suffix` after the stem that the binding asks for. -/
def createBinding (s : Memory) (suffix : String) (partition : Partition) (binding : ApiBinding) :
    Except StoreError ApiBinding × Memory :=
  let metadata := binding.metadata
  if metadata.name = "" ∧ metadata.generateName = "" then
    (.error (.invalid bindingKind "neither name nor generateName is set"), s)
  else
    let name := if metadata.name = "" then metadata.generateName ++ suffix else metadata.name
    let key := ObjectKey.cluster partition name
    if s.bindings.contains key then
      (.error (.alreadyExists bindingKind key.display), s)
    else
      let s := s.bump
      let created := { binding with metadata := { metadata with name, version := s.lastVersion } }
      (.ok created,
        { s with bindings := s.bindings.insert key created }.publish .bindingChanged key)

/-- Takes a status write back: the entry that was stored before is put in its place. -/
def undoStatus (s : Memory) (partition : Partition) (previous : CatalogEntry) : Memory :=
  let key := Stored.key partition previous
  { s with
    entries := s.entries.insert key previous
    statusWrites := s.statusWrites - 1 }.publish .entryChanged key

/-- Takes the creation of a binding back. -/
def undoBinding (s : Memory) (partition : Partition) (name : String) : Memory :=
  let key := ObjectKey.cluster partition name
  if s.bindings.contains key then
    { s with bindings := s.bindings.erase key }.publish .bindingChanged key
  else s

/-- Answers a call; `fresh` makes up the end of a generated name. -/
def answer {m : Type → Type} [Monad m] (fresh : m String) :
    (call : Call) → StateT Memory m call.Answer
  | .getEntry partition name => do return (← get).getEntry partition name
  | .listEntries partition => do return .ok ((← get).listEntries partition)
  | .getExport partition nameSpace name => do return (← get).getExport ⟨partition, nameSpace, name⟩
  | .updateEntryStatus partition entry => modifyGet (·.updateEntryStatus partition entry)
  | .listBindings partition => do return .ok ((← get).listBindings partition)
  | .getBinding partition name => do return (← get).getBinding partition name
  | .createBinding partition binding => do
    let suffix ← if needsName binding then fresh else pure ""
    modifyGet (·.createBinding suffix partition binding)

end Memory
end ApiCatalog
