/-
# Timed batches

A batch whose tasks take known times. Reports arrive in the order of their times, those of
tasks before that of the timer where the times are equal. Tasks that are still running when
the batch ends go on to their own end.
-/

import ClusterKeeper.Batch.Queue

namespace ClusterKeeper

/-- A task that ends after a number of milliseconds, or never. -/
structure TimedTask where
  label : String
  ends : Option Nat
  result : Except CloudError Unit

namespace TimedTask

/-- The ends of tasks in order of their times. -/
def arrivals (tasks : List TimedTask) : List (Nat × BatchEvent) :=
  let ends := tasks.zipIdx.filterMap fun (t, i) =>
    t.ends.map fun time => (time, BatchEvent.finish i t.result)
  ends.mergeSort fun a b => decide (a.1 ≤ b.1)

/-- Runs a batch from a time on: its outcome, and the time at which it ends. -/
def run (tasks : List TimedTask) (limit : Duration) (clock : Nat) :
    Except ReconcileError Unit × Nat :=
  let ends := arrivals tasks
  let before := ends.takeWhile (·.1 ≤ limit.waitMillis)
  let after := ends.dropWhile (·.1 ≤ limit.waitMillis)
  let events := before ++ (limit.waitMillis, .ring) :: after
  let (b, took) := Batch.runTimed events (.start (tasks.map (·.label)) limit) 0
  (b.outcome.getD (.error (.incomplete b.remaining)), clock + took)

/-- The tasks that succeed by a time, with the time of each, in the order of their times and
then of their labels. -/
def succeeded (tasks : List TimedTask) (time : Nat) : List (Nat × String) :=
  let done := tasks.filterMap fun t =>
    match t.ends, t.result with
    | some ends, .ok () => if ends ≤ time then some (ends, t.label) else none
    | _, _ => none
  done.mergeSort fun a b => a.1 < b.1 || (a.1 == b.1 && decide (a.2 ≤ b.2))

end TimedTask

end ClusterKeeper
