import ApiCatalog.Reconcile.Loop
import ApiCatalog.Reconcile.Trigger

/-!
# Watching partitions

A watch first asks for a pass over every entry and then follows the change feed: each write of a
status is an event of its own, which leads to one more pass over the entry.
-/
namespace ApiCatalog

namespace Watch

/-- What waits to be done: queued requests, and the feed from a position on. -/
structure State where
  queue : Queue
  position : Nat
  tally : Loop.Tally
  deriving Inhabited

/-- The state in which only the feed from `position` on is to be followed. -/
def State.start (position : Nat) : State := ⟨⟨false, []⟩, position, .zero⟩

/-- How a watch comes to rest. -/
inductive Rest where
  /-- Nothing is queued and no event is left. -/
  | idle (state : State)
  | finished (result : Except PassError Loop.Stats)

section Running

variable {m : Type → Type} [Monad m]

/-- Queues the requests that events give rise to, in order. -/
def forwardAll (watched : List Partition) (answer : (call : Call) → m call.Answer) :
    List Event → Queue → m Queue
  | [], queue => pure queue
  | e :: rest, queue => do
    let requests ← (Trigger.requests watched e).run answer
    forwardAll watched answer rest ((queue.send? requests).getD queue)

/-- Forwards what is published and not forwarded yet. -/
def forward (watched : List Partition) (published : m (List Event))
    (answer : (call : Call) → m call.Answer) (state : State) : m State := do
  let events ← published
  let queue ← forwardAll watched answer (events.drop state.position) state.queue
  pure { state with queue, position := events.length }

/-- Handles requests and forwards events until nothing is left to do, in at most `patience`
passes. -/
def settle (limits : Loop.Limits) (watched : List Partition) (published : m (List Event))
    (answer : (call : Call) → m call.Answer) (pass : Request → m (Except PassError Outcome)) :
    Nat → State → m Rest
  | 0, state => pure (.idle state)
  | patience + 1, state => do
    let state ← forward watched published answer state
    match state.queue.waiting with
    | [] => pure (.idle state)
    | request :: waiting =>
      match state.tally.rule limits (← pass request) with
      | .finish result => pure (.finished result)
      | .proceed tally =>
        settle limits watched published answer pass patience
          { state with queue := { state.queue with waiting }, tally }

end Running

end Watch
end ApiCatalog
