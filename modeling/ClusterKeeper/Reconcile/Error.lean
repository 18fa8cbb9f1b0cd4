/-
# Errors of a walk over the resources

Each error names the resource it happened at by its place in the graph and its label. When
a pass fails, what it created is removed again; if that fails too, resources are abandoned
and the error says so.
-/

import ClusterKeeper.Cloud.Error
import ClusterKeeper.Duration
import ClusterKeeper.Interrupt.Monitor

namespace ClusterKeeper

/-- What was being done with a resource. -/
inductive Phase where
  | actual
  | expected
  | apply
  | delete
  deriving DecidableEq, Inhabited, Repr

/-- The name of a phase. -/
def Phase.name : Phase → String
  | .actual => "actual"
  | .expected => "expected"
  | .apply => "apply"
  | .delete => "delete"

/-- A place in the graph. -/
structure Place where
  index : Nat
  resource : String
  deriving DecidableEq, Inhabited, Repr

/-- A resource by its label and place. -/
def Place.text (p : Place) : String := p.resource ++ " (index " ++ toString p.index ++ ")"

/-- A resource that could not be removed. -/
structure CleanupError where
  place : Place
  attempts : Nat
  source : CloudError
  deriving DecidableEq, Repr

/-- The message of a failed cleanup. -/
def CleanupError.message (e : CleanupError) : String :=
  "failed to remove " ++ e.place.text ++ " after " ++ toString e.attempts ++ " attempt(s): "
    ++ e.source.message

/-- What a walk over the resources fails with. -/
inductive ReconcileError where
  | resolve (phase : Phase) (place : Place) (source : CloudError)
  /-- All that the pass had created was removed. -/
  | rolledBack (phase : Phase) (place : Place) (source : CloudError)
  | cleanupFailed (phase : Phase) (place : Place) (failure : CloudError) (source : CleanupError)
  /-- All that the pass had created was removed. -/
  | interrupted (signal : Signal) (index : Nat)
  | interruptedCleanupFailed (signal : Signal) (index : Nat) (source : CleanupError)
  | delete (place : Place) (source : CloudError)
  | retriesExhausted (place : Place) (attempts : Nat) (source : CloudError)
  | provider (cloud : String) (source : CloudError)
  | concurrentApply (resource : String) (source : CloudError)
  | timeout (limit : Duration) (remaining : Nat)
  | incomplete (remaining : Nat)
  | cluster (error : ClusterError)
  deriving DecidableEq

namespace ReconcileError

/-- What an operator is told when resources are left behind. -/
def abandonment : String :=
  "cleanup failed, resources abandoned, manual intervention required: "

/-- The name of an error, for programs. -/
def code : ReconcileError → String
  | .resolve .. => "Resolve"
  | .rolledBack .. => "RolledBack"
  | .cleanupFailed .. => "CleanupFailed"
  | .interrupted .. => "Interrupted"
  | .interruptedCleanupFailed .. => "InterruptedCleanupFailed"
  | .delete .. => "Delete"
  | .retriesExhausted .. => "RetriesExhausted"
  | .provider .. => "Provider"
  | .concurrentApply .. => "ConcurrentApply"
  | .timeout .. => "Timeout"
  | .incomplete .. => "Incomplete"
  | .cluster .. => "Cluster"

/-- The message of an error. -/
def message : ReconcileError → String
  | .resolve phase place source =>
    phase.name ++ " failed for " ++ place.text ++ ": " ++ source.message
  | .rolledBack phase place source =>
    phase.name ++ " failed for " ++ place.text
      ++ "; atomic cleanup successful, no orphaned resources: " ++ source.message
  | .cleanupFailed phase place failure source =>
    phase.name ++ " failed for " ++ place.text ++ ": " ++ failure.message ++ "; " ++ abandonment
      ++ source.message
  | .interrupted signal index =>
    "reconcile interrupted (" ++ signal.text ++ ") before index " ++ toString index
      ++ "; created resources were removed"
  | .interruptedCleanupFailed signal index source =>
    "reconcile interrupted (" ++ signal.text ++ ") before index " ++ toString index ++ "; "
      ++ abandonment ++ source.message
  | .delete place source => "delete failed for " ++ place.text ++ ": " ++ source.message
  | .retriesExhausted place attempts source =>
    "delete of " ++ place.text ++ " still failing after " ++ toString attempts ++ " retries: "
      ++ source.message
  | .provider cloud source =>
    "provider for cloud '" ++ cloud ++ "' unavailable: " ++ source.message
  | .concurrentApply resource source =>
    "concurrent apply failed for " ++ resource ++ ": " ++ source.message
  | .timeout limit remaining =>
    "concurrent apply timed out after " ++ limit.text ++ " with " ++ toString remaining
      ++ " resource(s) pending"
  | .incomplete remaining =>
    "concurrent apply lost " ++ toString remaining ++ " task(s) before completion"
  | .cluster e => "Cluster error: " ++ e.message

/-- The messages of what the error came from, the nearest first. -/
def sources : ReconcileError → List String
  | .resolve _ _ e => e.message :: e.sources
  | .rolledBack _ _ e => e.message :: e.sources
  | .cleanupFailed _ _ _ c => c.message :: c.source.message :: c.source.sources
  | .interrupted _ _ => []
  | .interruptedCleanupFailed _ _ c => c.message :: c.source.message :: c.source.sources
  | .delete _ e => e.message :: e.sources
  | .retriesExhausted _ _ e => e.message :: e.sources
  | .provider _ e => e.message :: e.sources
  | .concurrentApply _ e => e.message :: e.sources
  | .timeout _ _ => []
  | .incomplete _ => []
  | .cluster e => [e.message]

/-- Whether resources were left behind. -/
def isAbandoned : ReconcileError → Bool
  | .cleanupFailed .. => true
  | .interruptedCleanupFailed .. => true
  | _ => false

/-- Whether an interrupt ended the pass. -/
def isInterrupted : ReconcileError → Bool
  | .interrupted .. => true
  | .interruptedCleanupFailed .. => true
  | _ => false

end ReconcileError

end ClusterKeeper
