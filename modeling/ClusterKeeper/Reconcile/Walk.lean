/-
# Walks over a graph

A walk calls the resources of a graph one by one, waits, looks at the interrupt monitor
between two resources, and resets the monitor when it ends. What a call answers, and which
interrupts are requested while it runs, is up to the cloud.
-/

import ClusterKeeper.Cloud.State
import ClusterKeeper.Graph.Basic
import ClusterKeeper.Reconcile.Error
import ClusterKeeper.Retry.Backoff

namespace ClusterKeeper

/-- A call to the resource at a place of the graph, with the cluster as it is known at the
time of the call. -/
inductive CloudCall where
  /-- What the resource should be. -/
  | expected (index : Nat) (known : Cluster)
  /-- What the resource is. -/
  | actual (index : Nat) (known : Cluster)
  /-- Make the resource what it should be. -/
  | apply (index : Nat) (actual expected : ResourceState) (applied : Cluster)
  /-- Remove the resource. -/
  | delete (index : Nat) (state : ResourceState) (known : Cluster)
  /-- Enter what is known of the resource into the cluster. -/
  | render (index : Nat) (state : ResourceState) (known : Cluster)
  deriving DecidableEq

namespace CloudCall

/-- What a call answers: an error, or the cluster as the resource leaves it. -/
@[reducible]
def Answer : CloudCall → Type
  | .expected _ _ => Except CloudError (Cluster × ResourceState)
  | .actual _ _ => Except CloudError (Cluster × ResourceState)
  | .apply _ _ _ _ => Except CloudError (Cluster × ResourceState)
  | .delete _ _ _ => Except CloudError Cluster
  | .render _ _ _ => Except CloudError Cluster

/-- The place of the resource that is called. -/
def index : CloudCall → Nat
  | .expected i _ => i
  | .actual i _ => i
  | .apply i _ _ _ => i
  | .delete i _ _ => i
  | .render i _ _ => i

end CloudCall

/-- What a walk asks of the world. -/
inductive WalkQuestion where
  | call (c : CloudCall)
  | wait (d : Duration)
  /-- What the interrupt monitor has recorded. -/
  | poll
  /-- The phase is over, and the monitor goes back to idle. -/
  | endPhase
  deriving DecidableEq

/-- The answers to each question. -/
@[reducible]
def WalkQuestion.Answer : WalkQuestion → Type
  | .call c => c.Answer
  | .wait _ => Unit
  | .poll => Signal
  | .endPhase => Unit

/-- A walk over a graph. -/
abbrev Walk (α : Type) := Dialogue WalkQuestion.Answer α

namespace Walk

variable {α : Type}

/-- Asks one question. -/
def ask (q : WalkQuestion) : Walk q.Answer := Dialogue.question q

/-- Calls a resource. -/
def call (c : CloudCall) : Walk c.Answer := ask (.call c)

/-- Waits. -/
def wait (d : Duration) : Walk Unit := ask (.wait d)

/-- Looks at the interrupt monitor. -/
def poll : Walk Signal := ask .poll

/-- A walk that resets the interrupt monitor when it ends, however it ends. -/
def phase (w : Walk α) : Walk α := do
  let x ← w
  ask .endPhase
  return x

end Walk

/-- What walks are made for: a cluster as it is known, the graph of its resources, and how
long to wait before a delete is tried again. -/
structure Reconciler where
  known : Cluster
  graph : Graph
  policy : BackoffPolicy
  /-- How often the delete of one resource may fail with an error that may pass before the walk
  is broken off, whatever the policy. A policy that gives up sooner keeps it from that. -/
  patience : Nat

namespace Reconciler

/-- The places of a graph, in order, from a place on. -/
def placesFrom (index : Nat) : Graph → List Place
  | [] => []
  | r :: rs => ⟨index, r.label⟩ :: placesFrom (index + 1) rs

/-- The places of all resources, in order. -/
def places (r : Reconciler) : List Place := placesFrom 0 r.graph

/-- The label of the resource at an index. -/
def placeAt (r : Reconciler) (index : Nat) : Place :=
  ⟨index, (r.graph.getD index default).label⟩

/-- The reconciler for inspection, with a monitor's text. -/
def inspect (r : Reconciler) (monitor : String) : String :=
  Text.inspectRecord "AtomicReconciler"
    [("known", Text.quoted r.known.name), ("model", r.graph.inspect), ("interrupts", monitor),
      ("backoff", r.policy.inspect)]

end Reconciler

end ClusterKeeper
