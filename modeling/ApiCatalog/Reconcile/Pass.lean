import ApiCatalog.Reconcile.Derivation
import ApiCatalog.Reconcile.Outcome
import ApiCatalog.Store.Call

/-!
# Passes over an entry

A pass fetches an entry, looks its references up in order, derives the status and commits it if it
differs. Each of these steps is guarded by a cancellation signal: once the signal is up no step is
started, and a step that still waits is given up. A failing look-up does not end the pass; it makes
the reference invalid.
-/
namespace ApiCatalog

/-- What a reference resolves to; an export that cannot be read counts as one that is missing. -/
inductive Resolution where
  | found (e : ApiExport)
  | notFound
  | failed (reason : String)
  deriving DecidableEq, Inhabited

namespace Resolution

def export? : Resolution → Option ApiExport
  | found e => some e
  | _ => none

/-- What the reference adds to the status. -/
def contribution (reference : ExportReference) : Resolution → Contribution
  | found e => .resolved e
  | _ => .unresolved reference

def ofAnswer : Except StoreError ApiExport → Resolution
  | .ok e => found e
  | .error e => if e.isNotFound then notFound else failed e.message

end Resolution

/-- Looks an export up in the store. A path that is no partition needs no call. -/
def lookup (reference : ExportReference) (nameSpace : Option String) :
    Program Call.Answer Resolution :=
  match Partition.ofString reference.path with
  | .error e => .done (.failed e.message)
  | .ok partition =>
    .ask (.getExport partition nameSpace reference.exportName) fun answer =>
      .done (.ofAnswer answer)

namespace Pass

/-- The guarded steps of a pass. -/
inductive Step where
  | fetch (partition : Partition) (name : String)
  | lookup (reference : ExportReference) (nameSpace : Option String)
  | commit (partition : Partition) (entry : CatalogEntry)
  deriving DecidableEq, Inhabited

abbrev Step.Answer : Step → Type
  | fetch .. => Except StoreError CatalogEntry
  | lookup .. => Resolution
  | commit .. => Except StoreError CatalogEntry

/-- The calls that a step makes, at most one of them if look-ups go to the store. -/
def Step.calls (find : ExportReference → Option String → Program Call.Answer Resolution) :
    (step : Step) → Program Call.Answer step.Answer
  | fetch partition name => .query (Call.getEntry partition name)
  | lookup reference nameSpace => find reference nameSpace
  | commit partition entry => .query (Call.updateEntryStatus partition entry)

/-- Looks the references up one after the other. -/
def resolve (nameSpace : Option String) :
    List ExportReference → Program Step.Answer (List Contribution)
  | [] => .done []
  | reference :: rest =>
    .ask (.lookup reference nameSpace) fun resolution => do
      let others ← resolve nameSpace rest
      return resolution.contribution reference :: others

/-- Derives the status of an entry. -/
def derive (entry : CatalogEntry) (nameSpace : Option String) (policy : SchemaPolicy)
    (now : Instant) : Program Step.Answer Derivation := do
  let contributions ← resolve nameSpace entry.exports
  return .ofContributions policy contributions entry.status.conditions now

/-- Writes the derived status over the fetched one if they differ. -/
def commit (request : Request) (entry : CatalogEntry) (d : Derivation) :
    Program Step.Answer (Except PassError Outcome) :=
  if d.status = entry.status then .done (.ok (.unchanged d.invalidReferences))
  else
    .ask (.commit request.partition { entry with status := d.status }) fun
      | .ok stored => .done (.ok (.statusUpdated stored.metadata.version d.invalidReferences))
      | .error e => .done (.error (.commit request.display e))

end Pass

/-- One pass over the entry of a request; `now` is the time of the conditions it sets. -/
def reconcile (policy : SchemaPolicy) (now : Instant) (request : Request) :
    Program Pass.Step.Answer (Except PassError Outcome) :=
  .ask (.fetch request.partition request.name) fun
    | .ok entry => do
      let derivation ← Pass.derive entry request.nameSpace policy now
      Pass.commit request entry derivation
    | .error e => .done <|
      if e.isNotFound then .ok .entryGone else .error (.fetch request.display e)

namespace Pass

section Running

variable {m : Type → Type} [Monad m] {α : Type}

/-- Runs steps unless the signal is up. A step that gives no answer was still waiting when the
signal came up. -/
def runGuarded (signal : m Bool) (perform : (step : Step) → m (Option step.Answer)) :
    Program Step.Answer α → m (Option α)
  | .done a => pure (some a)
  | .ask step next => do
    if ← signal then
      pure none
    else
      match ← perform step with
      | none => pure none
      | some answer => runGuarded signal perform (next answer)

/-- The result of a pass, which is an error if the pass was cancelled. -/
def settle : Option (Except PassError α) → Except PassError α
  | some result => result
  | none => .error .cancelled

end Running

end Pass
end ApiCatalog
