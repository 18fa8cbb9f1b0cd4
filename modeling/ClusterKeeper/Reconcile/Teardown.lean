/-
# Teardowns

A teardown removes every resource of a graph, the last one first. What is not there is
skipped. A delete that may succeed later is tried again after a wait, with a fresh look at
the resource; any other error ends the teardown and leaves the rest untouched.
-/

import ClusterKeeper.Reconcile.Walk

namespace ClusterKeeper.Reconciler

/-- Removes the resource at a place, if it is there. -/
def tearDown (known : Cluster) (place : Place) (cluster : Cluster) :
    (patience : Nat) → Backoff → Walk (Except ReconcileError Cluster)
  | 0, _ => .brokenOff
  | patience + 1, backoff => do
    match ← Walk.call (.actual place.index known) with
    | .error e =>
      -- Also when it has vanished between two attempts.
      if e.isNotFound then return .ok cluster
      else return .error (.resolve .actual place e)
    | .ok (_, state) =>
      match ← Walk.call (.delete place.index state cluster) with
      | .ok next => return .ok next
      | .error e =>
        if e.isRetryable then
          if backoff.exhausted then
            return .error (.retriesExhausted place backoff.attempts e)
          else
            Walk.wait backoff.delay
            tearDown known place cluster patience backoff.next
        else return .error (.delete place e)

/-- Removes the resources at places, in the order given. -/
def tearDownAll (r : Reconciler) : List Place → Cluster → Walk (Except ReconcileError Cluster)
  | [], c => return .ok c
  | p :: ps, c => do
    match ← tearDown r.known p c r.patience r.policy.start with
    | .ok next => tearDownAll r ps next
    | .error e => return .error e

/-- Removes every resource, the last one first. -/
def destroy (r : Reconciler) : Walk (Except ReconcileError Cluster) :=
  Walk.phase (r.tearDownAll r.places.reverse r.known)

end ClusterKeeper.Reconciler
