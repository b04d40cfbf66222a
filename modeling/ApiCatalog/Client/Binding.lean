import ApiCatalog.Client.Action

/-!
# Binding a catalog entry

Binding creates, in a target partition, one binding for each complete reference of an entry that has
none there yet, and waits until the created ones are bound.
-/
namespace ApiCatalog.Binding

structure Options where
  /-- Of the form `root:<workspace>:<entry>`. -/
  entryRef : String
  target : Partition
  /-- How long to wait; zero for not at all. -/
  timeout : Duration
  /-- The time between two looks at the bindings. -/
  pollInterval : Duration
  deriving DecidableEq

/-- The partition of the entry and its name. -/
def Options.validate (o : Options) : Except ClientError (Partition × String) :=
  match Partition.ofString o.entryRef with
  | .error _ => .error (.invalidEntryReference o.entryRef)
  | .ok path =>
    if path.isRooted then
      match path.split? with
      | some parts => .ok parts
      | none => .error (.invalidEntryReference o.entryRef)
    else .error (.invalidEntryReference o.entryRef)

/-- Names of the created and of the reused bindings, and the references that were skipped. -/
structure Report where
  created : List String
  reused : List String
  skipped : List String
  deriving DecidableEq, Repr, Inhabited

/-- What became of one complete reference. -/
inductive Fate where
  | created (name : String)
  | reused (name : String)
  | failed (e : StoreError)
  deriving DecidableEq, Repr, Inhabited

namespace Fate

def created? : Fate → Option String
  | created name => some name
  | _ => none

def reused? : Fate → Option String
  | reused name => some name
  | _ => none

def error? : Fate → Option ClientError
  | failed e => some (.store e)
  | _ => none

end Fate

/-- Says which references are incomplete; these are given back. -/
def skip : List ExportReference → Client (List String)
  | [] => return []
  | reference :: rest => do
    if reference.isComplete then skip rest
    else
      Client.print ["invalid reference ", Text.quoted reference.path, "/",
        Text.quoted reference.exportName]
      let others ← skip rest
      return reference.display :: others

/-- Says that a binding for the reference is there already. -/
def reuse (wanted found : ApiBinding) : Client Fate := do
  let name := found.metadata.name
  if found.claims ≠ wanted.claims then
    Client.print ["Binding for ", name,
      " already exists, but the permission claims are different. Skipping any action."]
  Client.print ["Found an existing APIBinding ", name, " pointing to the same export reference."]
  return .reused name

/-- Reuses the first existing binding with the same reference, or creates one. -/
def bindReference (target : Partition) (existing : List ApiBinding) (reference : ExportReference) :
    Client Fate := do
  let wanted := ApiBinding.forReference reference
  match existing.find? fun b => b.reference == reference with
  | some found => reuse wanted found
  | none =>
    match ← Client.act (.call (.createBinding target wanted)) with
    | .ok created => return .created created.metadata.name
    | .error e => return .failed e

def bindAll (target : Partition) (existing : List ApiBinding) :
    List ExportReference → Client (List Fate)
  | [] => return []
  | reference :: rest => do
    let fate ← bindReference target existing reference
    let others ← bindAll target existing rest
    return fate :: others

/-- The names of those bindings that are not bound, or the text of the first error. -/
def sweep (target : Partition) : List String → Client (Except String (List String))
  | [] => return .ok []
  | name :: rest => do
    match ← Client.act (.call (.getBinding target name)) with
    | .error e => return .error e.message
    | .ok binding =>
      match ← sweep target rest with
      | .error reason => return .error reason
      | .ok unbound => return .ok (if binding.isBound then unbound else name :: unbound)

/-- The end of a wait. It has none if the clock does not go so far: its seconds are below 2^63. -/
def deadline? (start timeout : Duration) : Option Duration :=
  if (start + timeout).seconds < 0x8000000000000000 then some (start + timeout) else none

/-- Looks at the bindings until all are bound or the deadline is over. At least one look is taken
before the deadline counts; more than `patience` looks are not. -/
def wait (o : Options) (deadline : Option Duration) (names : List String) :
    Nat → Client (Except String Unit)
  | 0 => throw .unfinished
  | patience + 1 => do
    match ← sweep o.target names with
    | .error reason => return .error reason
    | .ok [] => return .ok ()
    | .ok unbound =>
      let now ← Client.act .clock
      if deadline.any fun deadline => deadline.nanos ≤ now.nanos then
        return .error ("timed out waiting for bindings to be bound: " ++
          String.intercalate ", " unbound)
      else
        Client.act (.sleep o.pollInterval)
        wait o deadline names patience

/-- Waits until all bindings are bound; the timeout counts from now on. -/
def waitUntilBound (o : Options) (names : List String) (patience : Nat) :
    Client (Except String Unit) := do
  let start ← Client.act .clock
  wait o (deadline? start o.timeout) names patience

/-- Waits for the created bindings, and says how it went. -/
def await (o : Options) (entry : String) (created : List String) (patience : Nat) :
    Client Unit := do
  if o.timeout = .zero then
    Client.print ["APIBindings created for catalog entry ", entry,
      "; not waiting for them to bind."]
  else
    match ← waitUntilBound o created patience with
    | .error reason => Client.fail (.bindFailed entry reason)
    | .ok () => Client.print ["APIBinding created and bound to catalog entry ", entry, "."]

def run (patience : Nat) (o : Options) : Client Report := do
  match o.validate with
  | .error e => Client.fail e
  | .ok (partition, name) =>
    match ← Client.act (.call (.getEntry partition name)) with
    | .error _ => Client.fail (.entryNotFound partition.path name)
    | .ok entry =>
      let skipped ← skip entry.exports
      let (existing, listErrors) ← match ← Client.act (.call (.listBindings o.target)) with
        | .ok existing => pure (existing, [])
        | .error e => pure ([], [ClientError.store e])
      let fates ← bindAll o.target existing (entry.exports.filter (·.isComplete))
      let created := fates.filterMap Fate.created?
      await o name created patience
      Client.flush
      Client.conclude (listErrors ++ fates.filterMap Fate.error?)
      return ⟨created, fates.filterMap Fate.reused?, skipped⟩

end ApiCatalog.Binding
