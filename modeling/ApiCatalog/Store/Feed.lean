import ApiCatalog.Store.Key

/-!
# The change feed

A store publishes an event for every change of an object. A subscriber reads the feed from the
position at which it subscribed; the feed keeps the latest events only, and a subscriber that is
further behind is told how many it missed.
-/
namespace ApiCatalog

inductive Change where
  | entryChanged
  | entryDeleted
  | exportChanged
  | bindingChanged
  deriving DecidableEq, Repr, Inhabited

structure Event where
  change : Change
  key : ObjectKey
  deriving DecidableEq, Inhabited

namespace Feed

/-- The number of events that are kept for subscribers. -/
def capacity : Nat := 256

/-- What a subscriber finds, with the position it goes on from. -/
inductive Received where
  | event (e : Event) (next : Nat)
  | lagged (missed : Nat) (next : Nat)
  | nothing

/-- Reads a feed, oldest event first, from a position. -/
def receive (published : List Event) (position : Nat) : Received :=
  let oldest := published.length - capacity
  if position < oldest then .lagged (oldest - position) oldest
  else
    match published[position]? with
    | some e => .event e (position + 1)
    | none => .nothing

end Feed
end ApiCatalog
