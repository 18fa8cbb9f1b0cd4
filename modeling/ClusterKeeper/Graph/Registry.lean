/-
# Registries

A registry knows, for every cloud, the factories for the kinds of resources that the cloud
supports. The graph of a cluster has the cluster's own resources that come before its
pools, then the resources of each pool, then those that come behind the pools.
-/

import ClusterKeeper.Graph.Basic

namespace ClusterKeeper

/-- Factories by cloud and kind. The one that was registered last counts. -/
structure Registry (φ : Type) where
  factories : List ((String × ResourceKind) × φ) := []

namespace Registry

variable {φ : Type}

/-- Registers a factory in place of the one for the same cloud and kind. -/
def register (r : Registry φ) (cloud : String) (kind : ResourceKind) (factory : φ) :
    Registry φ :=
  ⟨((cloud, kind), factory) :: r.factories.filter (·.1 != (cloud, kind))⟩

/-- The factory for a cloud and kind. -/
def factory? (r : Registry φ) (cloud : String) (kind : ResourceKind) : Option φ :=
  r.factories.lookup (cloud, kind)

/-- Whether a cloud supports a kind. -/
def supports (r : Registry φ) (cloud : String) (kind : ResourceKind) : Bool :=
  (r.factory? cloud kind).isSome

/-- Whether a cloud supports any kind. -/
def supportsCloud (r : Registry φ) (cloud : String) : Bool :=
  r.factories.any (·.1.1 == cloud)

/-- The registry for inspection. -/
def inspect (r : Registry φ) : String :=
  let keys := r.factories.map fun f => f.1.1 ++ ":" ++ f.1.2.name
  Text.inspectRecord "ResourceRegistry"
    [("factories", Text.quotedList (keys.mergeSort fun a b => decide (a ≤ b)))]

/-- The factories of a cloud among kinds, with the pool that they build for. -/
def factoriesFor (r : Registry φ) (cloud : String) (pool : Option ServerPool)
    (kinds : List ResourceKind) : List (φ × Option ServerPool) :=
  kinds.filterMap fun k => (r.factory? cloud k).map (·, pool)

/-- The factories that build a cluster's graph, in order, with the pools they build for. -/
def order (r : Registry φ) (c : Cluster) : List (φ × Option ServerPool) :=
  r.factoriesFor c.cloud none ResourceKind.beforePools
    ++ c.pools.flatMap (fun p => r.factoriesFor c.cloud (some p) ResourceKind.perPool)
    ++ r.factoriesFor c.cloud none ResourceKind.behindPools

/-- Has factories build a cluster's resources in order, up to the first error. -/
def buildAll (c : Cluster) : List (φ × Option ServerPool) →
    Dialogue (GraphQuestion.Answer (φ := φ)) (Except CloudError Graph)
  | [] => return .ok []
  | (f, pool) :: rest => do
    match ← Dialogue.question (A := GraphQuestion.Answer) (.build f c pool) with
    | .error e => return .error e
    | .ok resource =>
      match ← buildAll c rest with
      | .error e => return .error e
      | .ok resources => return .ok (resource :: resources)

/-- Builds the graph of a cluster and tags its resources with the cluster's tags. -/
def buildGraph (r : Registry φ) (c : Cluster) :
    Dialogue (GraphQuestion.Answer (φ := φ)) (Except CloudError Graph) := do
  if r.supportsCloud c.cloud then
    match ← buildAll c (r.order c) with
    | .error e => return .error e
    | .ok graph =>
      if c.tags.isEmpty then return .ok graph
      else
        match ← graph.tag c.tags with
        | .error e => return .error e
        | .ok () => return .ok graph
  else return .error (.providerNotFound c.cloud)

end Registry

end ClusterKeeper
