/-
# Passes

A pass makes every resource what it should be, in order. If it fails, or if an interrupt is
seen between two resources, it removes what it has applied so far, the latest first, and
reports whether that succeeded. Two snapshots advance with the pass: the applied one, which
each resource is applied to, and the observed one, which each resource is looked up in.
-/

import ClusterKeeper.Cluster.Document
import ClusterKeeper.Reconcile.Ledger
import ClusterKeeper.Reconcile.Walk

namespace ClusterKeeper

/-- How far a pass has come. -/
structure Progress where
  applied : Cluster
  observed : Cluster
  ledger : Ledger := ∅
  deriving DecidableEq

namespace Reconciler

/-! ## Rolling back -/

/-- Removes the resource at a place, and tries again after a wait for as long as the error
says that it may succeed later and the backoff is not exhausted. -/
def remove (place : Place) (state : ResourceState) (cluster : Cluster) :
    (patience : Nat) → Backoff → Walk (Except CleanupError Cluster)
  | 0, _ => .brokenOff
  | patience + 1, backoff => do
    match ← Walk.call (.delete place.index state cluster) with
    | .ok next => return .ok next
    | .error e =>
      if e.isRetryable && !backoff.exhausted then
        Walk.wait backoff.delay
        remove place state cluster patience backoff.next
      -- The attempt that failed is the one after those that the backoff has counted.
      else return .error ⟨place, backoff.attempts + 1, e⟩

/-- Removes what is entered, in the order given. -/
def removeAll (r : Reconciler) :
    List (Nat × ResourceState) → Cluster → Walk (Except CleanupError Cluster)
  | [], c => return .ok c
  | (index, state) :: rest, c => do
    match ← remove (r.placeAt index) state c r.patience r.policy.start with
    | .ok next => removeAll r rest next
    | .error e => return .error e

/-- Removes all that a pass has applied, the latest first. -/
def cleanUp (r : Reconciler) (p : Progress) : Walk (Except CleanupError Cluster) :=
  r.removeAll (Ledger.latestFirst p.ledger) p.applied

/-- The error of a pass that failed at a place, after the cleanup. -/
def rollBack (r : Reconciler) (phase : Phase) (place : Place) (failure : CloudError)
    (p : Progress) : Walk ReconcileError := do
  match ← r.cleanUp p with
  | .ok _ => return .rolledBack phase place failure
  | .error e => return .cleanupFailed phase place failure e

/-- The error of a pass that was interrupted before a place, after the cleanup. -/
def breakOff (r : Reconciler) (signal : Signal) (index : Nat) (p : Progress) :
    Walk ReconcileError := do
  match ← r.cleanUp p with
  | .ok _ => return .interrupted signal index
  | .error e => return .interruptedCleanupFailed signal index e

/-! ## Applying -/

/-- Looks a resource up in the observed cluster. One that is not there has an empty state
and leaves the cluster as it is. -/
def lookUp (resource : Resource) (index : Nat) (observed : Cluster) :
    Walk (Except CloudError (Cluster × ResourceState)) := do
  match ← Walk.call (.actual index observed) with
  | .ok found => return .ok found
  | .error e =>
    if e.isNotFound then
      return .ok (observed, { kind := resource.kind, name := resource.name })
    else return .error e

/-- One resource is applied; the error tells the phase that failed and how far the pass has
come. -/
def applyOne (resource : Resource) (index : Nat) (p : Progress) :
    Walk (Except (Phase × CloudError × Progress) Progress) := do
  match ← Walk.call (.expected index p.applied) with
  | .error e => return .error (.expected, e, p)
  | .ok (_, expected) =>
    match ← lookUp resource index p.observed with
    | .error e => return .error (.actual, e, p)
    | .ok (observed, actual) =>
      match ← Walk.call (.apply index actual expected p.applied) with
      | .error e => return .error (.apply, e, p)
      | .ok (applied, state) =>
        -- Entered before it is rendered, so that a failure to render removes it too.
        let p : Progress := { applied, observed, ledger := Ledger.record p.ledger index state }
        match ← Walk.call (.render index state observed) with
        | .error e => return .error (.apply, e, p)
        | .ok observed => return .ok { p with observed }

/-- Applies the rest of the graph, from an index on. -/
def applyFrom (r : Reconciler) :
    List Resource → (index : Nat) → Progress → Walk (Except ReconcileError Cluster)
  | [], _, p => return .ok p.applied
  | resource :: rest, index, p => do
    -- An interrupt is seen before a resource is touched, never behind the last one.
    let signal ← Walk.poll
    if signal.isRequested then return .error (← r.breakOff signal index p)
    else
      match ← applyOne resource index p with
      | .ok p => applyFrom r rest (index + 1) p
      | .error (phase, e, p) =>
        return .error (← r.rollBack phase ⟨index, resource.label⟩ e p)

/-- Makes the cluster what is expected, unless that is what it is already. -/
def reconcile (r : Reconciler) (actual expected : Cluster) :
    Walk (Except ReconcileError Cluster) :=
  Walk.phase <|
    if actual.sameAs expected then return .ok expected
    else r.applyFrom r.graph 0 { applied := expected, observed := actual }

end Reconciler

end ClusterKeeper
