import ApiCatalog.Reconcile.Outcome

/-!
# The reconcile loop

The loop handles queued requests one at a time and counts how their passes end. It stops at a stop
signal, at the end of the queue, or when too many passes fail in a row.
-/
namespace ApiCatalog

namespace Loop

structure Limits where
  /-- So many failures in a row end the loop; at least one is needed. -/
  maxConsecutiveErrors : Nat
  stopOnError : Bool
  deriving DecidableEq, Repr, Inhabited

structure Stats where
  processed : Nat
  updated : Nat
  unchanged : Nat
  gone : Nat
  failed : Nat
  deriving DecidableEq, Repr, Inhabited

namespace Stats

def zero : Stats := ⟨0, 0, 0, 0, 0⟩

def record (s : Stats) : Outcome → Stats
  | .entryGone => { s with processed := s.processed + 1, gone := s.gone + 1 }
  | .unchanged _ => { s with processed := s.processed + 1, unchanged := s.unchanged + 1 }
  | .statusUpdated .. => { s with processed := s.processed + 1, updated := s.updated + 1 }

def recordFailure (s : Stats) : Stats :=
  { s with processed := s.processed + 1, failed := s.failed + 1 }

end Stats

/-- The counts so far and the number of failures in a row at their end. -/
structure Tally where
  stats : Stats
  failuresInRow : Nat
  deriving DecidableEq, Repr, Inhabited

def Tally.zero : Tally := ⟨.zero, 0⟩

/-- What the loop does after a pass. -/
inductive Ruling where
  | proceed (tally : Tally)
  | finish (result : Except PassError Stats)

/-- Counts a pass and rules whether the loop goes on. A cancelled pass is not counted. -/
def Tally.rule (limits : Limits) (tally : Tally) : Except PassError Outcome → Ruling
  | .ok outcome => .proceed ⟨tally.stats.record outcome, 0⟩
  | .error .cancelled => .finish (.ok tally.stats)
  | .error e =>
    let failures := tally.failuresInRow + 1
    if limits.stopOnError then .finish (.error e)
    else if limits.maxConsecutiveErrors ≤ failures then
      .finish (.error (.failed
        ("Max errors (" ++ toString limits.maxConsecutiveErrors ++ ") reached")))
    else .proceed ⟨tally.stats.recordFailure, failures⟩

/-- Handles the requests of a closed queue; also gives the requests that are left. -/
def run {m : Type → Type} [Monad m] (limits : Limits) (stopped : m Bool)
    (pass : Request → m (Except PassError Outcome)) :
    Tally → List Request → m (Except PassError Stats × List Request)
  | tally, [] => pure (.ok tally.stats, [])
  | tally, request :: rest => do
    if ← stopped then
      pure (.ok tally.stats, request :: rest)
    else
      match tally.rule limits (← pass request) with
      | .proceed tally => run limits stopped pass tally rest
      | .finish result => pure (result, rest)

end Loop
end ApiCatalog
