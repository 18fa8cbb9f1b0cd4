/-
# Simulated providers

Providers that list the same kinds of resources for every pool they do not refuse, and whose
tasks take known times, hang or fail.
-/

import ClusterKeeper.Batch.Applier
import ClusterKeeper.Batch.Schedule

namespace ClusterKeeper.Simulation

/-- A provider for a cloud. -/
structure Provider where
  cloud : String
  name : String
  kinds : List ResourceKind
  /-- Why the provider cannot be built. -/
  error : Option CloudError := none
  /-- The error for a pool that is refused. -/
  refusal? : String → Option CloudError := fun _ => none
  /-- The milliseconds that a resource takes. -/
  latency : String → Nat := fun _ => 0
  /-- Whether a resource is never done. -/
  hangs : String → Bool := fun _ => false
  /-- The error for a resource that fails. -/
  failure? : String → Option CloudError := fun _ => none

instance : Inhabited Provider := ⟨{ cloud := "", name := "", kinds := [] }⟩

/-- The task of a resource. -/
def Provider.task (p : Provider) (r : Resource) : TimedTask :=
  let label := r.label
  let took := Duration.ofMillis (UInt64.ofNat (p.latency label))
  { label
    ends := if p.hangs label then none else some took.waitMillis
    result := match p.failure? label with
      | some e => .error e
      | none => .ok () }

/-- What has happened while a cluster was applied at once. -/
structure BatchWorld where
  provider : Provider := default
  /-- The pools that were asked about, in order. -/
  asked : List String := []
  /-- The clouds of the providers that were built, in order, each with the cluster. -/
  built : List String := []
  tasks : List TimedTask := []
  clock : Nat := 0

/-- Answers what is asked while a cluster is applied at once. -/
def batchWorld (c : Cluster) : (q : BatchQuestion Provider) → BatchWorld → q.Answer × BatchWorld
  | .connect p, s =>
    let s := { s with provider := p, built := s.built ++ [p.cloud ++ " for " ++ c.name] }
    match p.error with
    | some e => (.error e, s)
    | none => (.ok p.name, s)
  | .list pool, s =>
    let s := { s with asked := s.asked ++ [pool.name] }
    match s.provider.refusal? pool.name with
    | some e => (.error e, s)
    | none => (.ok (s.provider.kinds.map (⟨·, pool.name⟩)), s)
  | .applyAll work limit, s =>
    let tasks := work.map fun a => s.provider.task a.resource
    let (result, clock) := TimedTask.run tasks limit s.clock
    (result, { s with tasks, clock })

end ClusterKeeper.Simulation
