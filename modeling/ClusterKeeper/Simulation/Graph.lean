/-
# Simulated factories

Factories that build a resource named after the pool or the cluster that it is for, unless
they are to fail, and resources whose tagging follows a script.
-/

import ClusterKeeper.Graph.Registry
import ClusterKeeper.Simulation.Cloud

namespace ClusterKeeper.Simulation

/-- A factory for resources of a kind. -/
structure Factory where
  kind : ResourceKind
  /-- What stands in front of the name of every resource. -/
  start : String := ""
  error : Option CloudError := none
  /-- The only name that the factory fails for, if it does not fail for all. -/
  onlyFor : Option String := none

/-- Why a factory fails for a name, if it does. -/
def Factory.refusal? (f : Factory) (name : String) : Option CloudError :=
  f.error.filter fun _ => f.onlyFor.all (· == name)

/-- The world of a graph with the resources that were tagged, the latest first. -/
structure GraphWorld where
  world : World
  tagged : List (Resource × Tags) := []

/-- Answers what is asked while the graph of a cluster is built. -/
def graphWorld : (q : GraphQuestion Factory) → GraphWorld → q.Answer × GraphWorld
  | .build f c pool, s =>
    let name := f.start ++ (pool.map (·.name)).getD c.name
    match f.refusal? name with
    | some e => (.error e, s)
    | none => (.ok ⟨f.kind, name⟩, s)
  | .tag r tags, s =>
    let (script, world) := s.world.takeScript r .tag
    let answer := match script.error with
      | some e => .error e
      | none => .ok ()
    (answer, { world, tagged := (r, tags) :: s.tagged })

end ClusterKeeper.Simulation
