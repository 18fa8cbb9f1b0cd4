/-
# Snapshots

The actual or the expected state of all resources, folded into one cluster. A snapshot
starts from what the cluster declares; what the cloud once assigned is forgotten. Every
resource sees what those before it have entered.
-/

import ClusterKeeper.Reconcile.Walk

namespace ClusterKeeper.Reconciler

/-- Folds the actual states of the resources into a cluster, in order. A resource that is
not there leaves the cluster as it is. -/
def observeFrom : List Place → Cluster → Walk (Except ReconcileError Cluster)
  | [], c => return .ok c
  | p :: ps, c => do
    match ← Walk.call (.actual p.index c) with
    | .ok (next, _) => observeFrom ps next
    | .error e =>
      if e.isNotFound then observeFrom ps c
      else return .error (.resolve .actual p e)

/-- Folds the expected states of the resources into a cluster, in order. -/
def expectFrom : List Place → Cluster → Walk (Except ReconcileError Cluster)
  | [], c => return .ok c
  | p :: ps, c => do
    match ← Walk.call (.expected p.index c) with
    | .ok (next, _) => expectFrom ps next
    | .error e => return .error (.resolve .expected p e)

/-- The observed snapshot. -/
def actual (r : Reconciler) (known : Cluster) : Walk (Except ReconcileError Cluster) :=
  Walk.phase (observeFrom r.places known.declared)

/-- The expected snapshot. -/
def expected (r : Reconciler) (known : Cluster) : Walk (Except ReconcileError Cluster) :=
  Walk.phase (expectFrom r.places known.declared)

end ClusterKeeper.Reconciler
