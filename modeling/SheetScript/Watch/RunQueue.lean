import SheetScript.Log

/-!
A queue for runs of one job: runs never overlap, and requests made while one is going lead to one
more run.

A request only marks what is wanted, and calls for a worker if the queue is not running. A worker
starts the job, and when the job has ended it checks whether another run is wanted. Requests can come
between any two steps of a worker, and nothing but the marks keeps two workers apart.
-/

namespace SheetScript.Watch

inductive Worker
  /-- Called for; its thread need not exist yet. -/
  | starting
  | working
  | checking
  deriving DecidableEq, Repr

structure RunQueue where
  /-- A run is going, about to start, or about to be checked for another one. -/
  running : Bool
  /-- Another run is wanted after the present one. -/
  pending : Bool
  /-- Whoever waits for the queue to be idle may go on. -/
  idle : Bool
  /-- The workers there are, in the order in which they were called for. -/
  workers : List Worker
  started : Nat
  ended : Nat
  deriving DecidableEq, Repr

/-- A step of some thread. Workers are named by their place. -/
inductive Event
  | request
  | start (place : Nat)
  | finish (place : Nat) (failed : Bool)
  | check (place : Nat)
  deriving DecidableEq, Repr

namespace RunQueue

def empty : RunQueue := ⟨false, false, true, [], 0, 0⟩

def request (queue : RunQueue) : RunQueue :=
  if queue.running then { queue with pending := true }
  else { queue with running := true, idle := false, workers := queue.workers ++ [.starting] }

def next? (queue : RunQueue) : Event → Option RunQueue
  | .request => some queue.request
  | .start place =>
    if queue.workers[place]? = some .starting then
      some { queue with workers := queue.workers.set place .working, started := queue.started + 1 }
    else none
  | .finish place _ =>
    if queue.workers[place]? = some .working then
      some { queue with workers := queue.workers.set place .checking, ended := queue.ended + 1 }
    else none
  | .check place =>
    if queue.workers[place]? = some .checking then
      if queue.pending then
        some { queue with pending := false, workers := queue.workers.set place .starting }
      else
        some { queue with running := false, idle := true, workers := queue.workers.eraseIdx place }
    else none

def eventLog : Event → Log
  | .finish _ true => [⟨.error, "Watch run failed"⟩]
  | _ => []

/-- The queue after an event; one that cannot happen changes nothing. -/
def after (queue : RunQueue) (event : Event) : RunQueue :=
  (queue.next? event).getD queue

def run? (queue : RunQueue) (events : List Event) : Option RunQueue :=
  events.foldlM next? queue

/-- The queue when its worker has gone as far as it can without the job ending. -/
def settle (queue : RunQueue) : RunQueue :=
  (queue.after (.check 0)).after (.start 0)

/-- Jobs that end before the queue rests, if no request comes. -/
def jobsDue (queue : RunQueue) : Nat :=
  match queue.workers.head? with
  | none => 0
  | some .checking => queue.pending.toNat
  | some .starting | some .working => 1 + queue.pending.toNat

end RunQueue

end SheetScript.Watch
