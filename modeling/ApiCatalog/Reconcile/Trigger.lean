import ApiCatalog.Reconcile.Outcome
import ApiCatalog.Store.Call
import ApiCatalog.Store.Feed

/-!
# What triggers passes

Requests come from two sides: a partition is enqueued as a whole, and events of the feed are
forwarded. An event of an entry asks for a pass over that entry, an event of an export for one over
every entry of the watched partitions that refers to it.
-/
namespace ApiCatalog

/-- Requests that wait to be handled. A closed queue takes none. -/
structure Queue where
  closed : Bool
  waiting : List Request
  deriving DecidableEq, Inhabited

namespace Queue

/-- Puts requests at the end, `none` if one of them is not taken. -/
def send? (q : Queue) (requests : List Request) : Option Queue :=
  if q.closed && !requests.isEmpty then none
  else some { q with waiting := q.waiting ++ requests }

end Queue

namespace Trigger

/-- Whether an entry refers to the export stored under the key; the namespace does not matter. -/
def refersTo (key : ObjectKey) (entry : CatalogEntry) : Bool :=
  entry.exports.any fun reference =>
    reference.path == key.partition.path && reference.exportName == key.name

/-- Requests for the entries of the partitions that refer to the export. A partition that cannot be
listed is passed over. -/
def dependents (key : ObjectKey) : List Partition → Program Call.Answer (List Request)
  | [] => .done []
  | partition :: rest =>
    .ask (.listEntries partition) fun answer => do
      let here := match answer with
        | .ok entries => (entries.filter (refersTo key)).map (Request.forEntry partition)
        | .error _ => []
      let others ← dependents key rest
      return here ++ others

/-- The requests that an event gives rise to. With no watched partition every entry event counts. -/
def requests (watched : List Partition) (e : Event) : Program Call.Answer (List Request) :=
  match e.change with
  | .entryChanged | .entryDeleted =>
    .done (if watched.isEmpty || watched.contains e.key.partition then [.ofKey e.key] else [])
  | .exportChanged => dependents e.key watched
  | .bindingChanged => .done []

/-- Asks for a pass over every entry of a partition. The number of requests is given back. -/
def enqueueAll (partition : Partition) (q : Queue) :
    Program Call.Answer (Except PassError Nat × Queue) :=
  .ask (.listEntries partition) fun
    | .error e => .done (.error (.fetch partition.path e), q)
    | .ok entries => .done <|
      match q.send? (entries.map (Request.forEntry partition)) with
      | some q => (.ok entries.length, q)
      | none => (.error (.failed "request channel closed"), q)

/-- How forwarding stands when it stops. -/
inductive Forwarded where
  /-- Every event before the position is forwarded. -/
  | upTo (position : Nat)
  /-- The queue did not take a request. -/
  | refused
  deriving DecidableEq, Repr

/-- Forwards events from a position of the feed until none is left, at most `fuel` of them. Events
that were missed are passed over. -/
def forward {m : Type → Type} [Monad m] (watched : List Partition) (published : m (List Event))
    (answer : (call : Call) → m call.Answer) (send : List Request → m Bool) :
    Nat → Nat → m Forwarded
  | 0, position => pure (.upTo position)
  | fuel + 1, position => do
    match Feed.receive (← published) position with
    | .nothing => pure (.upTo position)
    | .lagged _ next => forward watched published answer send fuel next
    | .event e next =>
      if ← send (← (requests watched e).run answer) then
        forward watched published answer send fuel next
      else
        pure .refused

end Trigger
end ApiCatalog
