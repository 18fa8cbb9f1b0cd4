import ClusterKeeper.Files.Machine
import ClusterKeeper.Interrupt.Handles
import ClusterKeeper.Json.Lookup
import ClusterKeeper.Main
import ClusterKeeper.Proofs.Batch.AllOrNothing
import ClusterKeeper.Proofs.Cli.Commands
import ClusterKeeper.Proofs.Reconcile.Adoption
import ClusterKeeper.Proofs.Reconcile.RetriedRuns
import ClusterKeeper.Proofs.Reconcile.TwoSnapshots
import ClusterKeeper.Proofs.Reconcile.Unheeded
import ClusterKeeper.Proofs.Reconcile.UpToDate
import ClusterKeeper.Proofs.Settings.Defaults
import ClusterKeeper.Proofs.Store.Archive
import ClusterKeeper.Proofs.Store.Exclusion
import ClusterKeeper.Proofs.Store.Isolation
import ClusterKeeper.Proofs.Store.Survival
import ClusterKeeper.Reconcile.Pass
import ClusterKeeper.Settings.Document
import ClusterKeeper.Simulation.Batch
import ClusterKeeper.Simulation.Graph
import ClusterKeeper.Proofs.Cluster.Declaration
import ClusterKeeper.Proofs.Reconcile.Resolution
import ClusterKeeper.Proofs.Graph.Building
import ClusterKeeper.Proofs.Graph.Distinct
import ClusterKeeper.Proofs.Reconcile.Pacing
import ClusterKeeper.Proofs.Json.Levels
import ClusterKeeper.Proofs.Cloud.State
import ClusterKeeper.Proofs.Interrupt.History
