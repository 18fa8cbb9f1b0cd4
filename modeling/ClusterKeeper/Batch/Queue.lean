/-
# Batches

The tasks of a batch run on their own and report to one queue, as does a timer. The
receiver takes the reports one by one until every task has succeeded, one has failed, or the
timer has run out, whichever it meets first.
-/

import ClusterKeeper.Reconcile.Error

namespace ClusterKeeper

/-- A report on the queue. -/
inductive Report where
  | applied (label : String)
  | failed (label : String) (error : CloudError)
  | timedOut
  deriving DecidableEq

/-- A batch as it runs. A task is named by its position; it, or the timer, can report until
it has done so. -/
structure Batch where
  limit : Duration
  labels : List String
  running : List Nat
  timer : Bool
  /-- How many reports the queue holds at most. -/
  capacity : Nat
  queue : List Report
  /-- How many tasks the receiver still waits for. -/
  remaining : Nat
  outcome : Option (Except ReconcileError Unit)

/-- What may happen next. -/
inductive BatchEvent where
  /-- A task ends. -/
  | finish (task : Nat) (result : Except CloudError Unit)
  /-- The timer runs out. -/
  | ring
  /-- The receiver takes a report. -/
  | receive

namespace Batch

/-- A batch of tasks that have all been started. One without tasks is done. -/
def start (labels : List String) (limit : Duration) : Batch where
  limit := limit
  labels := labels
  running := List.range labels.length
  timer := !labels.isEmpty
  capacity := labels.length + 1
  queue := []
  remaining := labels.length
  outcome := if labels.isEmpty then some (.ok ()) else none

/-- The batch behind a report that its receiver took. -/
def consume (b : Batch) : Report → Batch
  | .applied _ =>
    { b with
      remaining := b.remaining - 1
      outcome := if b.remaining - 1 = 0 then some (.ok ()) else none }
  | .failed label e => { b with outcome := some (.error (.concurrentApply label e)) }
  | .timedOut => { b with outcome := some (.error (.timeout b.limit b.remaining)) }

/-- What a task reports that has come to a result. -/
def report (b : Batch) (task : Nat) : Except CloudError Unit → Report
  | .ok () => .applied (b.labels.getD task "")
  | .error e => .failed (b.labels.getD task "") e

/-- The batch behind a report that is sent, if the queue has room for it. -/
def send (b : Batch) (report : Report) : Option Batch :=
  if b.queue.length < b.capacity then some { b with queue := b.queue ++ [report] } else none

/-- The batch behind an event, if the event can happen. The receiver takes nothing once
there is an outcome, and waits at an empty queue for as long as anyone may still report. -/
def step (b : Batch) : BatchEvent → Option Batch
  | .finish task result =>
    if task ∈ b.running then
      { b with running := b.running.erase task }.send (b.report task result)
    else none
  | .ring => if b.timer then { b with timer := false }.send .timedOut else none
  | .receive =>
    match b.outcome with
    | some _ => none
    | none =>
      match b.queue with
      | report :: queue => some ({ b with queue }.consume report)
      | [] =>
        -- No one is left who could report.
        if b.running.isEmpty && !b.timer then
          some { b with outcome := some (.error (.incomplete b.remaining)) }
        else none

/-- Lets an event happen if it can. -/
def stepOrStay (b : Batch) (e : BatchEvent) : Batch := (b.step e).getD b

/-- Lets a task or the timer report, and the receiver take the report. -/
def deliver (b : Batch) (e : BatchEvent) : Batch := (b.stepOrStay e).stepOrStay .receive

/-- Lets events happen one after the other, each at its time, and tells when the outcome was
there. -/
def runTimed : (events : List (Nat × BatchEvent)) → Batch → Nat → Batch × Nat
  | [], b, clock => (b, clock)
  | (time, e) :: rest, b, clock =>
    if b.outcome.isSome then (b, clock) else runTimed rest (b.deliver e) time

end Batch

end ClusterKeeper
