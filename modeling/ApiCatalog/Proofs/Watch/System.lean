import ApiCatalog.Proofs.Reconcile.Solo
import ApiCatalog.Reconcile.Watch

/-!
# The parts of a watch

A watch consists of a store, a forwarder that follows its feed, the start-up that enqueues the
watched partitions, a queue, and a worker that makes the passes. Here each part makes one move at a
time, one call to the store at most, in any order; in between others mutate the store. A send to a
full queue is a move that comes later.
-/
namespace ApiCatalog.Watch

/-- Finds requests by calls to the store and then sends them one by one. -/
abbrev Sender := Program Call.Answer (List Request)

inductive Forwarder where
  | listening
  /-- An event is received; its requests are not all sent yet. -/
  | delivering (e : Event) (sender : Sender)

inductive Worker where
  | idle (tally : Loop.Tally)
  /-- A pass over the entry of the request is under way, with `rest` left to do. -/
  | passing (tally : Loop.Tally) (request : Request)
      (rest : Program Pass.Step.Answer (Except PassError Outcome))
  | stopped

structure System where
  store : Memory
  /-- How far the forwarder has read the feed. -/
  position : Nat
  /-- The number of events that were gone before the forwarder could read them. -/
  missed : Nat
  forwarder : Forwarder
  /-- The partitions that start-up has still to list. -/
  unlisted : List Partition
  starter : Sender
  waiting : List Request
  worker : Worker

/-- What is set for a watch as a whole. -/
structure Setting where
  policy : SchemaPolicy
  limits : Loop.Limits
  watched : List Partition

inductive Move where
  /-- Someone else changes the store. -/
  | mutate (m : Memory.Mutation)
  | forward
  | enqueue
  /-- The worker goes on; a pass that begins reads this time. -/
  | work (now : Instant)
  | stop

/-- Answers a call. No sender makes up a name. -/
def respond (call : Call) : StateM Memory call.Answer := Memory.answer (pure "") call

/-- One call or one send of a sender. -/
def Sender.advance (s : Memory) (waiting : List Request) : Sender → Sender × Memory × List Request
  | .ask call next =>
    let reply := respond call s
    (next reply.1, reply.2, waiting)
  | .done (request :: rest) => (.done rest, s, waiting ++ [request])
  | .done [] => (.done [], s, waiting)

namespace System

variable (setting : Setting)

/-- The forwarder subscribes before anything is enqueued. -/
def start (store : Memory) : System where
  store
  position := store.published.length
  missed := 0
  forwarder := .listening
  unlisted := setting.watched
  starter := .done []
  waiting := []
  worker := .idle .zero

def forward (sys : System) : System :=
  match sys.forwarder with
  | .listening =>
    match Feed.receive sys.store.published sys.position with
    | .event e next =>
      { sys with position := next, forwarder := .delivering e (Trigger.requests setting.watched e) }
    | .lagged missed next => { sys with position := next, missed := sys.missed + missed }
    | .nothing => sys
  | .delivering _ (.done []) => { sys with forwarder := .listening }
  | .delivering e sender =>
    let (sender, store, waiting) := sender.advance sys.store sys.waiting
    { sys with forwarder := .delivering e sender, store, waiting }

/-- What is enqueued for a partition, by someone who sends it to the queue request by request. -/
def listing (partition : Partition) : Sender := do
  let done ← Trigger.enqueueAll partition ⟨false, []⟩
  return done.2.waiting

def enqueue (sys : System) : System :=
  match sys.starter, sys.unlisted with
  | .done [], [] => sys
  | .done [], partition :: rest => { sys with unlisted := rest, starter := listing partition }
  | starter, _ =>
    let (starter, store, waiting) := starter.advance sys.store sys.waiting
    { sys with starter, store, waiting }

def work (now : Instant) (sys : System) : System :=
  match sys.worker with
  | .idle tally =>
    match sys.waiting with
    | [] => sys
    | request :: waiting =>
      { sys with waiting, worker := .passing tally request (reconcile setting.policy now request) }
  | .passing tally request (.ask step next) =>
    let reply := Memory.perform step sys.store
    { sys with store := reply.2, worker := .passing tally request (next reply.1) }
  | .passing tally _ (.done result) =>
    match tally.rule setting.limits result with
    | .proceed tally => { sys with worker := .idle tally }
    | .finish _ => { sys with worker := .stopped }
  | .stopped => sys

def step (sys : System) : Move → System
  | .mutate m => { sys with store := m.apply sys.store }
  | .forward => sys.forward setting
  | .enqueue => sys.enqueue
  | .work now => sys.work setting now
  | .stop => { sys with worker := .stopped }

/-- The moves one after the other. -/
def run (sys : System) (moves : List Move) : System := moves.foldl (step setting) sys

end System
end ApiCatalog.Watch
