import ApiCatalog.Content
import ApiCatalog.Document.Reader
import ApiCatalog.Store.Memory
import ApiCatalog.Text.Blank

/-!
# A store with a state file

The state file holds one document, the snapshot of the store. It is read once, when the store is
opened, and written anew after every status write and every creation of a binding. A change that
cannot be written is taken back, so that the memory does not run ahead of the file.
-/
namespace ApiCatalog

namespace FileStore

/-- The document of a file, if there is one. -/
def document? : Content → Option Document
  | .document value => some (Document.ofJson value)
  | .text text => Document.ofText? text

def isBlank : Content → Bool
  | .document _ => false
  | .text text => Text.isAllBlank text

/-- The snapshot in a file; a missing or blank file holds the empty one. -/
def load (path : String) : Except FileFault Content → Except StoreError Snapshot
  | .error .missing => .ok .empty
  | .error fault => .error (.io path fault.message)
  | .ok content =>
    if isBlank content then .ok .empty
    else
      match (document? content).bind Snapshot.ofDocument? with
      | some snapshot => .ok snapshot
      | none => .error (.serialization (path ++ ": not a snapshot"))

/-- The store that a file holds. -/
def opened (path : String) (content : Except FileFault Content) : Except StoreError Memory :=
  (load path content).map .ofSnapshot

section Writing

variable {m : Type → Type} [Monad m]

/-- Writes the contents of the store to the file. -/
def persist (path : String) (save : Content → m (Except FileFault Unit)) :
    StateT Memory m (Except StoreError Unit) := do
  match ← save (.document (encode (← get).snapshot)) with
  | .ok () => return .ok ()
  | .error fault => return .error (.io path fault.message)

/-- Writes the file after a status write, which is taken back if that fails. -/
def updateEntryStatus (path : String) (save : Content → m (Except FileFault Unit))
    (partition : Partition) (entry : CatalogEntry) :
    StateT Memory m (Except StoreError CatalogEntry) := do
  match (← get).getEntry partition entry.name with
  | .error e => return .error e
  | .ok previous =>
    match ← modifyGet (·.updateEntryStatus partition entry) with
    | .error e => return .error e
    | .ok updated =>
      match ← persist path save with
      | .ok () => return .ok updated
      | .error e =>
        modify (·.undoStatus partition previous)
        return .error e

/-- Writes the file after the creation of a binding, which is taken back if that fails. -/
def createBinding (path : String) (save : Content → m (Except FileFault Unit)) (suffix : String)
    (partition : Partition) (binding : ApiBinding) :
    StateT Memory m (Except StoreError ApiBinding) := do
  match ← modifyGet (·.createBinding suffix partition binding) with
  | .error e => return .error e
  | .ok created =>
    match ← persist path save with
    | .ok () => return .ok created
    | .error e =>
      modify (·.undoBinding partition created.metadata.name)
      return .error e

/-- Answers a call; only the calls that change something write the file. -/
def answer (path : String) (save : Content → m (Except FileFault Unit)) (fresh : m String) :
    (call : Call) → StateT Memory m call.Answer
  | .updateEntryStatus partition entry => updateEntryStatus path save partition entry
  | .createBinding partition binding => do
    let suffix ← if Memory.needsName binding then fresh else pure ""
    createBinding path save suffix partition binding
  | call => Memory.answer fresh call

end Writing

/-- A place for one document, which may refuse to be written. -/
structure Disk where
  content : Except FileFault Content
  /-- Why writing fails at the moment, if it does. -/
  refusal : Option FileFault
  deriving Inhabited

namespace Disk

/-- Replaces the content, or fails and leaves it as it is. -/
def save (content : Content) : StateM Disk (Except FileFault Unit) := do
  match (← get).refusal with
  | some fault => return .error fault
  | none =>
    modify ({ · with content := .ok content })
    return .ok ()

end Disk
end FileStore
end ApiCatalog
